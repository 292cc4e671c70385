import Mathlib.Data.List.Forall2
import Sub2api.Thinking.Blocks

/-!
# The filter before a request

`filterThinkingBlocks` removes from the history the blocks of thinking that the upstream would not
accept: all of them with thinking off, those without a real signature with thinking on, and for the
models with a signed history all of them as soon as one is not accepted.
-/

namespace Sub2api.Thinking

open Sub2api.Go Sub2api.Go.Json

/-! ### The source -/

/-- `antigravity.DummyThoughtSignature`. -/
def dummyThoughtSignature : String := "skip_thought_signature_validator"

/-- The bytes that a body with thinking is known by. -/
def preFilterPatterns : List String :=
  ["\"type\":\"thinking\"", "\"type\": \"thinking\"", "\"type\":\"redacted_thinking\"",
    "\"type\": \"redacted_thinking\"", "\"thinking\":", "\"thinking\" :"]

def looksLikeThinking (body : String) : Bool := preFilterPatterns.any fun p => contains body p

/-- Whether the first pass keeps a block. -/
def keeps (thinkingEnabled alwaysThinking : Bool) (role : String) : JsonValue → Bool
  | .object block =>
    let blockType := text block "type"
    if blockType = "thinking" || blockType = "redacted_thinking" then
      thinkingEnabled && role = "assistant" &&
        (alwaysThinking && blockType = "redacted_thinking" && text block "data" ≠ "" ||
          text block "signature" ≠ "" && text block "signature" ≠ dummyThoughtSignature)
    else if blockType = "" then !JsonMap.has block "thinking"
    else true
  | _ => true

def setContent (content : List JsonValue) : JsonValue → JsonValue
  | .object msg => .object (JsonMap.put "content" (.array content) msg)
  | msg => msg

/-- The first pass over a message. -/
def filterMessage (thinkingEnabled alwaysThinking : Bool) (msg : JsonValue) : JsonValue :=
  match content? msg with
  | some content =>
    if content.all (keeps thinkingEnabled alwaysThinking (role msg)) then msg
    else setContent (content.filter (keeps thinkingEnabled alwaysThinking (role msg))) msg
  | none => msg

/-- The second pass over a message, which leaves no thinking at all. -/
def cleanMessage (msg : JsonValue) : JsonValue :=
  match content? msg with
  | some content =>
    let cleaned := content.filter fun block => !isThinking block
    setContent (if cleaned = [] then [placeholder (role msg)] else cleaned) msg
  | none => msg

/-- `thinking.type` turns thinking on. -/
def thinkingOn (req : JsonMap) : Bool :=
  match req.get "thinking" with
  | some (.object thinking) =>
    text thinking "type" = "enabled" || text thinking "type" = "adaptive"
  | _ => false

/-- Nothing of a message is filtered in the first pass. -/
def untouched (thinkingEnabled alwaysThinking : Bool) (msg : JsonValue) : Bool :=
  match content? msg with
  | some content => content.all (keeps thinkingEnabled alwaysThinking (role msg))
  | none => true

/-- What becomes of a message when something is filtered. -/
def rewriteMessage (thinkingEnabled alwaysThinking : Bool) (msg : JsonValue) : JsonValue :=
  let filtered := filterMessage thinkingEnabled alwaysThinking msg
  if alwaysThinking then cleanMessage filtered else filtered

def filterThinkingBlocksInternal (f : Floats) (body : String) (alwaysThinking : Bool) : String :=
  if looksLikeThinking body = false then body
  else
    match f.unmarshal body with
    | none => body
    | some req =>
      let thinkingEnabled := alwaysThinking || thinkingOn req
      match req.get "messages" with
      | some (.array messages) =>
        if messages.all (untouched thinkingEnabled alwaysThinking) then body
        else
          encode (.object (req.put "messages"
            (.array (messages.map (rewriteMessage thinkingEnabled alwaysThinking)))))
      | _ => body

def filterThinkingBlocks (ids : ModelIDs) (f : Floats) (body mappedModel : String) : String :=
  if shouldPreFilterThinkingBlocks ids mappedModel = false then body
  else filterThinkingBlocksInternal f body (isClaude55SignedThinkingModel ids mappedModel)

/-! ### What a legal history is -/

/-- A block of a thinking type that is accepted: in a message of the assistant, with a real signature
or, where the history is signed, redacted with data. -/
def accepted (signedHistory : Bool) (role : String) : JsonValue → Bool
  | .object block =>
    role = "assistant" && (text block "type" = "thinking" || text block "type" = "redacted_thinking") &&
      (text block "signature" ≠ "" && text block "signature" ≠ dummyThoughtSignature ||
        signedHistory && text block "type" = "redacted_thinking" && text block "data" ≠ "")
  | _ => false

/-- All thinking of the history is accepted. -/
def allAccepted (signedHistory : Bool) (messages : List JsonValue) : Bool :=
  messages.all fun msg =>
    ((content? msg).getD []).all fun block => !isThinking block || accepted signedHistory (role msg) block

/-- Which blocks stay: with thinking off those without thinking, with thinking on also the ones that
are accepted, and for a signed history these all or none. -/
def stays (signedHistory on : Bool) (messages : List JsonValue) (role : String)
    (block : JsonValue) : Bool :=
  !isThinking block ||
    if signedHistory then allAccepted true messages else on && accepted false role block

/-- The blocks that stay are left, unchanged and in their order; where none stays there is something
else that is no thinking. -/
def BlocksKept (stay : JsonValue → Bool) (content content' : List JsonValue) : Prop :=
  if content.filter stay = [] then content' ≠ [] ∧ ∀ block ∈ content', isThinking block = false
  else List.Forall₂ Same (content.filter stay) content'

/-- A message is the same but for the blocks that do not stay. -/
def MessageKept (stay : String → JsonValue → Bool) (msg msg' : JsonValue) : Prop :=
  match content? msg with
  | none => Same msg msg'
  | some content => ∃ content', content? msg' = some content' ∧
      BlocksKept (stay (role msg)) content content' ∧
      ∀ key ≠ "content",
        (field msg' key).map (mapNumbers reduced) = (field msg key).map (mapNumbers reduced)

/-- What the filter makes of a body is a legal history, and filtering it again changes nothing. -/
structure Legal (ids : ModelIDs) (f : Floats) (body mappedModel : String) : Prop where
  messages : List.Forall₂
    (MessageKept (stays (isClaude55SignedThinkingModel ids mappedModel) (thinkingOn (fields body))
      (messages body)))
    (messages body) (messages (filterThinkingBlocks ids f body mappedModel))
  again : filterThinkingBlocks ids f (filterThinkingBlocks ids f body mappedModel) mappedModel =
    filterThinkingBlocks ids f body mappedModel

/-! ### One message -/

variable {enabled always : Bool} {f : Floats} {msg : JsonValue} {content : List JsonValue}

theorem field_setContent (content : List JsonValue) {msg : JsonValue} {old : List JsonValue}
    (here : content? msg = some old) (key : String) :
    field (setContent content msg) key =
      if key = "content" then some (.array content) else field msg key := by
  cases msg with
  | object m => exact get_put m "content" key (.array content)
  | null | bool | number | string | array => cases here

theorem content?_setContent {old : List JsonValue} (here : content? msg = some old) :
    content? (setContent content msg) = some content := by
  rw [content?, field_setContent content here, if_pos rfl]

theorem role_setContent {old : List JsonValue} (here : content? msg = some old) :
    role (setContent content msg) = role msg := by
  rw [role, field_setContent content here, if_neg (by decide)]
  rfl

theorem keeps_pass (role : String) (block : JsonValue) :
    keeps enabled always role (f.pass block) = keeps enabled always role block := by
  cases block with
  | object m =>
      change keeps enabled always role (.object (f.passMap m)) = keeps enabled always role (.object m)
      simp only [keeps, text_passMap, f.has_passMap]
  | null | bool | number | string | array => rfl

/-- What is no thinking is kept. -/
theorem keeps_of_not_thinking {role : String} {block : JsonValue} (other : isThinking block = false) :
    keeps enabled always role block = true := by
  cases block with
  | object m =>
      simp only [isThinking, Bool.or_eq_false_iff, decide_eq_false_iff_not] at other
      obtain ⟨⟨notThinking, notRedacted⟩, notField⟩ := other
      simp only [keeps, notThinking, notRedacted, decide_false, Bool.or_self, Bool.false_eq_true,
        if_false]
      split
      · rename_i untyped
        simpa [untyped] using notField
      · rfl
  | null | bool | number | string | array => rfl

/-- What the first pass keeps of the thinking is what is accepted. -/
theorem keeps_eq (role : String) (block : JsonValue) :
    keeps enabled always role block = (!isThinking block || enabled && accepted always role block) := by
  cases thinking : isThinking block with
  | false => simp [keeps_of_not_thinking thinking]
  | true =>
      cases block with
      | object m =>
          simp only [isThinking, Bool.or_eq_true, Bool.and_eq_true, decide_eq_true_eq] at thinking
          simp only [keeps, accepted]
          rcases thinking with (typed | typed) | ⟨untyped, present⟩
          · simp [typed]
            grind
          · simp [typed]
            grind
          · simp [untyped, present]
      | null | bool | number | string | array => cases thinking

theorem filterMessage_cases :
    (content? msg = none ∧ filterMessage enabled always msg = msg) ∨
      ∃ content, content? msg = some content ∧
        content? (filterMessage enabled always msg) =
          some (content.filter (keeps enabled always (role msg))) ∧
        role (filterMessage enabled always msg) = role msg ∧
        ∀ key ≠ "content", field (filterMessage enabled always msg) key = field msg key := by
  unfold filterMessage
  cases here : content? msg with
  | none => exact Or.inl ⟨rfl, rfl⟩
  | some content =>
      right
      refine ⟨content, rfl, ?_⟩
      dsimp only
      split
      · rename_i all
        rw [List.filter_eq_self.mpr (List.all_eq_true.mp all)]
        exact ⟨here, rfl, fun _ _ => rfl⟩
      · refine ⟨content?_setContent here, role_setContent here, ?_⟩
        intro key other
        rw [field_setContent _ here, if_neg other]

theorem cleanMessage_cases :
    (content? msg = none ∧ cleanMessage msg = msg) ∨
      ∃ content, content? msg = some content ∧
        content? (cleanMessage msg) =
          some (if content.filter (fun block => !isThinking block) = [] then
            [placeholder (role msg)] else content.filter fun block => !isThinking block) ∧
        role (cleanMessage msg) = role msg ∧
        ∀ key ≠ "content", field (cleanMessage msg) key = field msg key := by
  unfold cleanMessage
  cases here : content? msg with
  | none => exact Or.inl ⟨rfl, rfl⟩
  | some content =>
      right
      refine ⟨content, rfl, content?_setContent here, role_setContent here, ?_⟩
      intro key other
      rw [field_setContent _ here, if_neg other]

/-- What the passes leave of the blocks of a message. -/
def leftOver (enabled always : Bool) (role : String) (content : List JsonValue) : List JsonValue :=
  if always then
    let cleaned := content.filter fun block => !isThinking block
    if cleaned = [] then [placeholder role] else cleaned
  else content.filter (keeps enabled false role)

theorem rewriteMessage_cases :
    (content? msg = none ∧ rewriteMessage enabled always msg = msg) ∨
      ∃ content, content? msg = some content ∧
        content? (rewriteMessage enabled always msg) =
          some (leftOver enabled always (role msg) content) ∧
        role (rewriteMessage enabled always msg) = role msg ∧
        ∀ key ≠ "content", field (rewriteMessage enabled always msg) key = field msg key := by
  unfold rewriteMessage leftOver
  rcases @filterMessage_cases enabled always msg with
    ⟨none_, same⟩ | ⟨content, here, filtered, role_, fields_⟩
  · rw [same]
    cases always with
    | false => exact Or.inl ⟨none_, rfl⟩
    | true =>
        rcases @cleanMessage_cases msg with ⟨-, cleaned⟩ | ⟨content, here, -⟩
        · exact Or.inl ⟨none_, cleaned⟩
        · rw [none_] at here
          cases here
  · right
    refine ⟨content, here, ?_⟩
    cases always with
    | false => exact ⟨filtered, role_, fields_⟩
    | true =>
        rcases @cleanMessage_cases (filterMessage enabled true msg) with
          ⟨none_, -⟩ | ⟨content', here', cleaned, role', fields'⟩
        · rw [filtered] at none_
          cases none_
        · rw [filtered] at here'
          cases here'
          have twice : (content.filter (keeps enabled true (role msg))).filter
              (fun block => !isThinking block) = content.filter fun block => !isThinking block := by
            rw [List.filter_filter]
            apply List.filter_congr
            intro block _
            cases thinking : isThinking block with
            | false => simp [keeps_of_not_thinking thinking]
            | true => simp
          rw [twice, role_] at cleaned
          refine ⟨cleaned, role'.trans role_, ?_⟩
          intro key other
          exact (fields' key other).trans (fields_ key other)

/-! ### Which messages come out right -/

/-- The numbers of a message that are written again are exact. -/
def Survives (f : Floats) (stay : String → JsonValue → Bool) (msg : JsonValue) : Prop :=
  match content? msg with
  | none => f.Exact msg
  | some content => (∀ block ∈ content.filter (stay (role msg)), f.Exact block) ∧
      ∀ key ≠ "content", ∀ v, field msg key = some v → f.Exact v

/-- Some block of the message stays. -/
def KeepsSome (stay : String → JsonValue → Bool) (msg : JsonValue) : Prop :=
  ∀ content, content? msg = some content → content.filter (stay (role msg)) ≠ []

theorem survives_asRead {stay : String → JsonValue → Bool} : Survives Floats.asRead stay msg := by
  unfold Survives
  split
  · exact Floats.asRead_exact msg
  · exact ⟨fun block _ => Floats.asRead_exact block, fun _ _ v _ => Floats.asRead_exact v⟩

theorem forall₂_pass (blocks : List JsonValue) :
    List.Forall₂ Same blocks (blocks.map f.pass) ↔ ∀ block ∈ blocks, f.Exact block := by
  rw [List.forall₂_map_right_iff, List.forall₂_same]
  rfl

theorem isThinking_placeholder (role : String) : isThinking (placeholder role) = false := by
  rfl

theorem fields_exact {key : String} {msg' : JsonValue}
    (same : field msg' key = field (f.pass msg) key) :
    (field msg' key).map (mapNumbers reduced) = (field msg key).map (mapNumbers reduced) ↔
      ∀ v, field msg key = some v → f.Exact v := by
  rw [same, field_pass]
  cases field msg key with
  | none => simp
  | some v =>
      constructor
      · intro written w here
        cases here
        exact (Option.some.inj written).symm
      · intro exact_
        exact congrArg some (exact_ v rfl).symm

variable {stay : String → JsonValue → Bool}

theorem messageKept_rewrite (stay_pass : ∀ role block, stay role (f.pass block) = stay role block)
    (left : ∀ role content, leftOver enabled always role content =
      if always = true ∧ content.filter (stay role) = [] then [placeholder role]
      else content.filter (stay role)) :
    MessageKept stay msg (rewriteMessage enabled always (f.pass msg)) ↔
      Survives f stay msg ∧ (always = true ∨ KeepsSome stay msg) := by
  have passed := content?_pass f msg
  unfold MessageKept Survives KeepsSome
  rcases @rewriteMessage_cases enabled always (f.pass msg) with
    ⟨none_, same⟩ | ⟨content', here, written, -, fields_⟩
  · rw [passed, Option.map_eq_none_iff] at none_
    rw [same, none_]
    simp only [reduceCtorEq, false_implies, implies_true, or_true, and_true]
    rfl
  · rw [passed, Option.map_eq_some_iff] at here
    obtain ⟨content, here, rfl⟩ := here
    have kept : (content.map f.pass).filter (stay (role msg)) =
        (content.filter (stay (role msg))).map f.pass := by
      rw [List.filter_map]
      congr 1
      apply List.filter_congr
      intro block _
      exact stay_pass _ _
    rw [role_pass, left, kept] at written
    simp only [List.map_eq_nil_iff] at written
    have fieldsExact : (∀ key ≠ "content",
        (field (rewriteMessage enabled always (f.pass msg)) key).map (mapNumbers reduced) =
          (field msg key).map (mapNumbers reduced)) ↔
        ∀ key ≠ "content", ∀ v, field msg key = some v → f.Exact v := by
      constructor
      · intro same key other
        exact (fields_exact (fields_ key other)).mp (same key other)
      · intro exact_ key other
        exact (fields_exact (fields_ key other)).mpr (exact_ key other)
    rw [here]
    dsimp only
    rw [written]
    simp only [Option.some.injEq, exists_eq_left', forall_eq', fieldsExact]
    unfold BlocksKept
    by_cases nothing : content.filter (stay (role msg)) = []
    · rw [if_pos nothing, nothing]
      cases always with
      | true => simp [isThinking_placeholder]
      | false => simp
    · rw [if_neg nothing, if_neg (fun both => nothing both.2), forall₂_pass]
      simp [nothing]

/-- A body that is left as it is is right where nothing has to be removed. -/
theorem messageKept_self (others : ∀ role block, isThinking block = false → stay role block = true)
    (filled : content? msg ≠ some []) :
    MessageKept stay msg msg ↔ ∀ content, content? msg = some content →
      content.all (stay (role msg)) = true := by
  unfold MessageKept
  cases here : content? msg with
  | none => simp [Same.refl]
  | some content =>
      simp only [Option.some.injEq, exists_eq_left', forall_eq', implies_true, and_true]
      unfold BlocksKept
      constructor
      · intro kept
        rw [← List.filter_eq_self.trans List.all_eq_true.symm]
        split at kept
        · rename_i nothing
          obtain ⟨some_, none_⟩ := kept
          obtain ⟨block, mem⟩ := List.exists_mem_of_ne_nil _ some_
          have stay_ := others (role msg) block (none_ block mem)
          have listed : block ∈ content.filter (stay (role msg)) := List.mem_filter.mpr ⟨mem, stay_⟩
          rw [nothing] at listed
          cases listed
        · exact List.filter_sublist.eq_of_length kept.length_eq
      · intro all
        rw [List.filter_eq_self.mpr (List.all_eq_true.mp all)]
        rw [if_neg (fun empty => filled (here.trans (congrArg some empty)))]
        exact List.forall₂_same.mpr fun block _ => Same.refl block

/-! ### What is written can be read -/

theorem fits_content {depth : ℕ} (fits : Fits (depth + 1) msg) (here : content? msg = some content) :
    Fits depth (.array content) := by
  cases msg with
  | object m =>
      have found : JsonMap.get m "content" = some (.array content) := by
        unfold content? field at here
        split at here
        · rename_i content' found
          cases here
          exact found
        · cases here
      exact fits.get found
  | null | bool | number | string | array => cases here

theorem fits_setContent {depth : ℕ} (fits : Fits (depth + 1) msg)
    (fits' : Fits depth (.array content)) : Fits (depth + 1) (setContent content msg) := by
  cases msg with
  | object m => exact fits.set fits'
  | null | bool | number | string | array => exact fits

theorem fits_filterMessage {depth : ℕ} (fits : Fits (depth + 1) msg) :
    Fits (depth + 1) (filterMessage enabled always msg) := by
  unfold filterMessage
  split
  · rename_i content here
    split
    · exact fits
    · exact fits_setContent fits ((fits_content fits here).items fun _ => List.mem_of_mem_filter)
  · exact fits

theorem fits_cleanMessage {depth : ℕ} (fits : Fits (depth + 3) msg) :
    Fits (depth + 3) (cleanMessage msg) := by
  unfold cleanMessage
  split
  · rename_i content here
    apply fits_setContent fits
    split
    · apply Fits.array
      intro block mem
      rw [List.mem_singleton.mp mem]
      exact fits_placeholder depth (role msg)
    · exact (fits_content fits here).items fun _ => List.mem_of_mem_filter
  · exact fits

theorem fits_rewriteMessage {depth : ℕ} (fits : Fits (depth + 3) msg) :
    Fits (depth + 3) (rewriteMessage enabled always msg) := by
  have filtered := @fits_filterMessage enabled always msg (depth + 2) fits
  unfold rewriteMessage
  cases always with
  | true => exact fits_cleanMessage filtered
  | false => exact filtered

/-! ### The body -/

theorem thinkingOn_passMap (req : JsonMap) : thinkingOn (f.passMap req) = thinkingOn req := by
  unfold thinkingOn
  rw [f.get_passMap]
  cases req.get "thinking" with
  | none => rfl
  | some v => cases v with
    | object thinking =>
        change (text (f.passMap thinking) "type" = "enabled" ||
          text (f.passMap thinking) "type" = "adaptive") = _
        rw [text_passMap]
    | null | bool | number | string | array => rfl

theorem untouched_iff : untouched enabled always msg = true ↔
    ∀ content, content? msg = some content → content.all (keeps enabled always (role msg)) = true := by
  unfold untouched
  cases content? msg with
  | none => simp
  | some content => simp

theorem untouched_pass : untouched enabled always (f.pass msg) = untouched enabled always msg := by
  unfold untouched
  rw [content?_pass, role_pass]
  cases content? msg with
  | none => rfl
  | some content =>
      rw [Option.map_some]
      dsimp only
      rw [List.all_map]
      congr 1
      funext block
      exact keeps_pass _ _

/-- Nothing more is filtered of a message that was rewritten. -/
theorem untouched_rewriteMessage : untouched enabled always (rewriteMessage enabled always msg) =
    true := by
  rw [untouched_iff]
  intro content' here
  rcases @rewriteMessage_cases enabled always msg with ⟨none_, same⟩ | ⟨content, -, written, role_, -⟩
  · rw [same, none_] at here
    cases here
  · rw [written] at here
    cases here
    rw [role_]
    unfold leftOver
    cases always with
    | true =>
        simp only [if_true]
        split
        · simp [keeps_of_not_thinking (isThinking_placeholder (role msg))]
        · apply List.all_eq_true.mpr
          intro block mem
          have other := (List.mem_filter.mp mem).2
          exact keeps_of_not_thinking (by simpa using other)
    | false =>
        apply List.all_eq_true.mpr
        intro block mem
        exact (List.mem_filter.mp mem).2

/-- Nothing is filtered in the first pass over the messages of the body. -/
def AllUntouched (always : Bool) (body : String) : Prop :=
  ∀ msg ∈ messages body, untouched (always || thinkingOn (fields body)) always msg = true

variable {msgs : List JsonValue}

theorem messages_of {body : String} {req : JsonMap} (decoded : decodeObject body = some req)
    (found : req.get "messages" = some (.array msgs)) :
    messages body = msgs := by
  simp [messages, fields, decoded, found]

theorem messages_none {body : String}
    (none_ : ∀ msgs, (fields body).get "messages" ≠ some (.array msgs)) : messages body = [] := by
  unfold messages
  split
  · rename_i msgs found
    exact absurd found (none_ msgs)
  · rfl

/-- The messages of a body are rewritten. -/
theorem internal_rewritten {body : String} {m : JsonMap} (looks : looksLikeThinking body = true)
    (decoded : decodeObject body = some m) (inRange : f.InRange (.object m))
    (found : m.get "messages" = some (.array msgs))
    (touched : ¬msgs.all (untouched (always || thinkingOn m) always) = true) :
    filterThinkingBlocksInternal f body always =
      encode (.object ((f.passMap m).put "messages" (.array (msgs.map fun msg =>
        rewriteMessage (always || thinkingOn m) always (f.pass msg))))) := by
  have same : (untouched (always || thinkingOn m) always ∘ f.pass) =
      untouched (always || thinkingOn m) always := by
    funext msg
    exact untouched_pass
  rw [filterThinkingBlocksInternal, if_neg (by simp [looks]), f.unmarshal_of decoded inRange]
  simp only [f.get_passMap, found, Option.map_some, f.pass_array, thinkingOn_passMap,
    List.all_map, same, if_neg touched, List.map_map]
  rfl

/-- The body is returned as it is, or its messages are rewritten. -/
theorem internal_cases (f : Floats) (body : String) (always : Bool) :
    (filterThinkingBlocksInternal f body always = body ∧
        (looksLikeThinking body = true → f.InRange (.object (fields body)) →
          AllUntouched always body)) ∨
      (looksLikeThinking body = true ∧ f.InRange (.object (fields body)) ∧
        ¬AllUntouched always body ∧
        messages (filterThinkingBlocksInternal f body always) =
          (messages body).map (fun msg =>
            rewriteMessage (always || thinkingOn (fields body)) always (f.pass msg)) ∧
        thinkingOn (fields (filterThinkingBlocksInternal f body always)) =
          thinkingOn (fields body)) := by
  have kept : ∀ (same : filterThinkingBlocksInternal f body always = body),
      messages body = [] → filterThinkingBlocksInternal f body always = body ∧
        (looksLikeThinking body = true → f.InRange (.object (fields body)) →
          AllUntouched always body) := by
    intro same none_
    refine ⟨same, fun _ _ msg mem => ?_⟩
    rw [none_] at mem
    cases mem
  by_cases looks : looksLikeThinking body = true
  · rcases f.unmarshal_cases body with ⟨none_, empty⟩ | ⟨m, decoded, inRange, read⟩
    · left
      have same : filterThinkingBlocksInternal f body always = body := by
        rw [filterThinkingBlocksInternal, if_neg (by simp [looks]), none_]
      refine ⟨same, fun _ inRange msg mem => ?_⟩
      rw [messages_none (by rw [empty inRange]; simp [JsonMap.get])] at mem
      cases mem
    · have fields_ : fields body = m := by rw [fields, decoded]; rfl
      by_cases array : ∃ msgs, m.get "messages" = some (.array msgs)
      · obtain ⟨msgs, found⟩ := array
        have messages_ := messages_of decoded found
        have all_iff : AllUntouched always body ↔
            msgs.all (untouched (always || thinkingOn m) always) = true := by
          rw [AllUntouched, messages_, fields_, List.all_eq_true]
        by_cases all : msgs.all (untouched (always || thinkingOn m) always) = true
        · left
          refine ⟨?_, fun _ _ => all_iff.mpr all⟩
          have same : (untouched (always || thinkingOn m) always ∘ f.pass) =
              untouched (always || thinkingOn m) always := by
            funext msg
            exact untouched_pass
          rw [filterThinkingBlocksInternal, if_neg (by simp [looks]), read]
          simp only [f.get_passMap, found, Option.map_some, f.pass_array, thinkingOn_passMap,
            List.all_map, same, if_pos all]
        · right
          have written := internal_rewritten looks decoded inRange found all
          have fits : Fits (9999 + 1) (.object (f.passMap m)) :=
            f.fits_pass (decodeObject_fits decoded)
          have found_ : (f.passMap m).get "messages" = some (.array (msgs.map f.pass)) := by
            rw [f.get_passMap, found, Option.map_some, f.pass_array]
          have rewritten : Fits (9999 + 1) (.object ((f.passMap m).put "messages"
              (.array (msgs.map fun msg =>
                rewriteMessage (always || thinkingOn m) always (f.pass msg))))) := by
            apply fits.set
            have each := fits.get found_
            cases each with
            | array each =>
                apply Fits.array
                intro item mem
                obtain ⟨msg, listed, rfl⟩ := List.mem_map.mp mem
                exact @fits_rewriteMessage _ _ _ 9995 (each _ (List.mem_map_of_mem listed))
          have read_ := decodeObject_encode rewritten
          refine ⟨looks, fields_ ▸ inRange, fun all_ => all (all_iff.mp all_), ?_, ?_⟩
          · rw [written, messages_, fields_]
            apply messages_of read_
            rw [get_put, if_pos rfl]
          · have field_ : fields (filterThinkingBlocksInternal f body always) =
                (f.passMap m).put "messages" (.array (msgs.map fun msg =>
                  rewriteMessage (always || thinkingOn m) always (f.pass msg))) := by
              rw [written, fields, read_]
              rfl
            rw [field_, fields_, ← thinkingOn_passMap (f := f) m]
            unfold thinkingOn
            rw [get_put, if_neg (by decide)]
      · left
        apply kept
        · rw [filterThinkingBlocksInternal, if_neg (by simp [looks]), read]
          dsimp only
          split
          · rename_i msgs found
            rw [f.get_passMap, Option.map_eq_some_iff] at found
            obtain ⟨v, found, passed⟩ := found
            cases v with
            | array items => exact absurd ⟨items, found⟩ array
            | null | bool | number | string | object => cases passed
          · rfl
        · apply messages_none
          intro msgs found
          rw [fields_] at found
          exact array ⟨msgs, found⟩
  · left
    refine ⟨?_, fun some_ => absurd some_ looks⟩
    rw [filterThinkingBlocksInternal, if_pos (by simpa using looks)]

/-- Filtering twice is filtering once. -/
theorem internal_again (f : Floats) (body : String) (always : Bool) :
    filterThinkingBlocksInternal f (filterThinkingBlocksInternal f body always) always =
      filterThinkingBlocksInternal f body always := by
  rcases internal_cases f body always with ⟨same, -⟩ | ⟨-, -, -, messages_, on⟩
  · rw [same, same]
  · rcases internal_cases f (filterThinkingBlocksInternal f body always) always with
      ⟨same, -⟩ | ⟨-, -, touched, -⟩
    · exact same
    · exfalso
      apply touched
      intro msg mem
      rw [messages_] at mem
      obtain ⟨old, -, rfl⟩ := List.mem_map.mp mem
      rw [on]
      exact untouched_rewriteMessage

/-! ### Which blocks go -/

/-- No block has to go. -/
def NothingGoes (stay : String → JsonValue → Bool) (body : String) : Prop :=
  ∀ msg ∈ messages body, ∀ content, content? msg = some content →
    content.all (stay (role msg)) = true

theorem stays_unsigned (on : Bool) (msgs : List JsonValue) (role : String) (block : JsonValue) :
    stays false on msgs role block = keeps on false role block := by
  rw [keeps_eq]
  rfl

theorem stays_signed {on : Bool} (some_ : allAccepted true msgs = false) (role : String)
    (block : JsonValue) : stays true on msgs role block = !isThinking block := by
  simp [stays, some_]

theorem allAccepted_iff : allAccepted true msgs = true ↔
    ∀ msg ∈ msgs, untouched true true msg = true := by
  unfold allAccepted untouched
  rw [List.all_eq_true]
  apply forall_congr'
  intro msg
  apply imp_congr Iff.rfl
  cases content? msg with
  | none => simp
  | some content =>
      simp only [Option.getD_some, List.all_eq_true]
      apply forall_congr'
      intro block
      rw [keeps_eq, Bool.true_and]

/-- The first pass filters nothing exactly where nothing has to go. -/
theorem allUntouched_iff (always : Bool) (body : String) : AllUntouched always body ↔
    NothingGoes (stays always (thinkingOn (fields body)) (messages body)) body := by
  unfold AllUntouched NothingGoes
  cases always with
  | false =>
      apply forall_congr'
      intro msg
      apply imp_congr Iff.rfl
      rw [untouched_iff, Bool.false_or]
      simp only [List.all_eq_true, stays_unsigned]
  | true =>
      rw [Bool.true_or, ← allAccepted_iff]
      cases all : allAccepted true (messages body) with
      | true => simp [stays, all]
      | false =>
          simp only [Bool.false_eq_true, false_iff]
          intro nothing
          have accepted_ : allAccepted true (messages body) = true := by
            apply allAccepted_iff.mpr
            intro msg mem
            rw [untouched_iff]
            intro content here
            apply List.all_eq_true.mpr
            intro block listed
            have stay := List.all_eq_true.mp (nothing msg mem content here) block listed
            rw [stays_signed all] at stay
            exact keeps_of_not_thinking (by simpa using stay)
          rw [accepted_] at all
          cases all

theorem accepted_pass (always : Bool) (role : String) (block : JsonValue) :
    accepted always role (f.pass block) = accepted always role block := by
  cases block with
  | object m =>
      change accepted always role (.object (f.passMap m)) = accepted always role (.object m)
      simp only [accepted, text_passMap]
  | null | bool | number | string | array => rfl

theorem stays_pass (always on : Bool) (msgs : List JsonValue) (role : String) (block : JsonValue) :
    stays always on msgs role (f.pass block) = stays always on msgs role block := by
  unfold stays
  rw [isThinking_pass, accepted_pass]

/-- What is left over of a message is what stays, or a placeholder. -/
theorem leftOver_eq (always : Bool) {body : String}
    (goes : ¬NothingGoes (stays always (thinkingOn (fields body)) (messages body)) body)
    (role : String) (content : List JsonValue) :
    leftOver (always || thinkingOn (fields body)) always role content =
      if always = true ∧ content.filter
          (stays always (thinkingOn (fields body)) (messages body) role) = [] then
        [placeholder role]
      else content.filter (stays always (thinkingOn (fields body)) (messages body) role) := by
  unfold leftOver
  cases always with
  | false =>
      rw [if_neg (by simp), if_neg (by simp), Bool.false_or]
      apply List.filter_congr
      intro block _
      exact (stays_unsigned _ _ _ _).symm
  | true =>
      have some_ : allAccepted true (messages body) = false := by
        rw [Bool.eq_false_iff]
        intro all
        apply goes
        intro msg _ content _
        simp [stays, all]
      have same : content.filter (stays true (thinkingOn (fields body)) (messages body) role) =
          content.filter fun block => !isThinking block := by
        apply List.filter_congr
        intro block _
        exact stays_signed some_ role block
      rw [same]
      simp

theorem stays_of_not_thinking {always on : Bool} {role : String} {block : JsonValue}
    (other : isThinking block = false) :
    stays always on msgs role block = true := by
  simp [stays, other]

/-- The history is legal exactly where nothing has to go, or where the body looks like one with
thinking, its numbers can be read, the ones that are written again are exact and, without a signed
history, every message keeps a block. -/
theorem legal_iff (ids : ModelIDs) (f : Floats) (body mappedModel : String)
    (filters : shouldPreFilterThinkingBlocks ids mappedModel = true)
    (filled : ∀ msg ∈ messages body, content? msg ≠ some []) :
    let signedHistory := isClaude55SignedThinkingModel ids mappedModel
    let stay := stays signedHistory (thinkingOn (fields body)) (messages body)
    Legal ids f body mappedModel ↔ NothingGoes stay body ∨
      looksLikeThinking body = true ∧ f.InRange (.object (fields body)) ∧
        (∀ msg ∈ messages body, Survives f stay msg) ∧
        (signedHistory = true ∨ ∀ msg ∈ messages body, KeepsSome stay msg) := by
  intro signedHistory stay
  have internal : filterThinkingBlocks ids f body mappedModel =
      filterThinkingBlocksInternal f body signedHistory := by
    rw [filterThinkingBlocks, if_neg (by simp [filters])]
  have again : filterThinkingBlocks ids f (filterThinkingBlocks ids f body mappedModel) mappedModel =
      filterThinkingBlocks ids f body mappedModel := by
    rw [internal, filterThinkingBlocks, if_neg (by simp [filters])]
    exact internal_again f body signedHistory
  have legal : Legal ids f body mappedModel ↔ List.Forall₂ (MessageKept stay) (messages body)
      (messages (filterThinkingBlocksInternal f body signedHistory)) := by
    constructor
    · intro h
      exact internal ▸ h.messages
    · intro h
      exact ⟨internal ▸ h, again⟩
  rw [legal]
  rcases internal_cases f body signedHistory with ⟨same, done⟩ | ⟨looks, inRange, touched, written, -⟩
  · rw [same, List.forall₂_same]
    have nothing : (∀ msg ∈ messages body, MessageKept stay msg msg) ↔ NothingGoes stay body := by
      apply forall_congr'
      intro msg
      apply forall_congr'
      intro mem
      exact messageKept_self (fun _ _ => stays_of_not_thinking) (filled msg mem)
    rw [nothing]
    constructor
    · exact Or.inl
    · rintro (nothing_ | ⟨looks, inRange, -⟩)
      · exact nothing_
      · exact (allUntouched_iff signedHistory body).mp (done looks inRange)
  · have goes : ¬NothingGoes stay body := fun nothing =>
      touched ((allUntouched_iff signedHistory body).mpr nothing)
    rw [written, List.forall₂_map_right_iff, List.forall₂_same]
    have each : ∀ msg ∈ messages body, (MessageKept stay msg (rewriteMessage
        (signedHistory || thinkingOn (fields body)) signedHistory (f.pass msg)) ↔
          Survives f stay msg ∧ (signedHistory = true ∨ KeepsSome stay msg)) := by
      intro msg _
      exact messageKept_rewrite (fun role block => stays_pass _ _ _ role block)
        (leftOver_eq signedHistory goes)
    constructor
    · intro kept
      right
      refine ⟨looks, inRange, fun msg mem => ((each msg mem).mp (kept msg mem)).1, ?_⟩
      by_cases signed_ : signedHistory = true
      · exact Or.inl signed_
      · right
        intro msg mem
        exact ((each msg mem).mp (kept msg mem)).2.resolve_left signed_
    · rintro (nothing | ⟨-, -, survive, some_⟩)
      · exact absurd nothing goes
      · intro msg mem
        apply (each msg mem).mpr
        refine ⟨survive msg mem, ?_⟩
        rcases some_ with signed_ | keeps_
        · exact Or.inl signed_
        · exact Or.inr (keeps_ msg mem)

namespace Sample

/-- Neither changes the names of the samples. -/
def ids : ModelIDs := { toLower := id, normalizeEffortModelID := id }

/-- A message that consists of thinking alone, with thinking off. -/
def onlyThinking : String :=
  "\x7b\"messages\":[\x7b\"role\":\"assistant\",\"content\":[" ++
    "\x7b\"type\":\"thinking\",\"thinking\":\"t\"\x7d]\x7d]\x7d"

/-- Thinking before an answer, with thinking off. -/
def answered : String :=
  "\x7b\"messages\":[\x7b\"role\":\"assistant\",\"content\":[" ++
    "\x7b\"type\":\"thinking\",\"thinking\":\"t\",\"signature\":\"s\"\x7d," ++
    "\x7b\"type\":\"text\",\"text\":\"a\"\x7d]\x7d]\x7d"

end Sample

theorem messageKept_filled {msg' : JsonValue} (kept : MessageKept stay msg msg')
    (some_ : (content? msg).isSome = true) :
    content? msg' ≠ some [] := by
  unfold MessageKept at kept
  cases here : content? msg with
  | none =>
      rw [here] at some_
      cases some_
  | some content =>
      rw [here] at kept
      obtain ⟨content', here', blocks, -⟩ := kept
      rw [here']
      rintro empty
      cases empty
      unfold BlocksKept at blocks
      split at blocks
      · exact blocks.1 rfl
      · rename_i some_
        exact some_ (List.length_eq_zero_iff.mp blocks.length_eq)

/-- The message of thinking alone is left without content. -/
theorem onlyThinking_not_legal :
    ¬Legal Sample.ids Floats.asRead Sample.onlyThinking "claude-sonnet-4-5" := by
  intro legal
  have before : (messages Sample.onlyThinking).map (fun msg => (content? msg).isSome) = [true] := by
    decide +kernel
  have after : (messages (filterThinkingBlocks Sample.ids Floats.asRead Sample.onlyThinking
      "claude-sonnet-4-5")).map (fun msg => (content? msg).map List.length) = [some 0] := by
    decide +kernel
  have each := legal.messages
  obtain ⟨msg, one, some_⟩ := List.map_eq_singleton_iff.mp before
  obtain ⟨msg', one', none_⟩ := List.map_eq_singleton_iff.mp after
  rw [one, one'] at each
  cases each with
  | cons kept rest =>
      apply messageKept_filled kept some_
      obtain ⟨content, here, length⟩ := Option.map_eq_some_iff.mp none_
      rw [here, List.length_eq_zero_iff.mp length]

/-- The thinking goes, and the answer stays. -/
theorem answered_legal : Legal Sample.ids Floats.asRead Sample.answered "claude-sonnet-4-5" := by
  have filled : (messages Sample.answered).all (fun msg =>
      (content? msg).all fun content => !content.isEmpty) = true := by
    decide +kernel
  have left_ : (messages Sample.answered).all (fun msg => (content? msg).all fun content =>
      !(content.filter (stays (isClaude55SignedThinkingModel Sample.ids "claude-sonnet-4-5")
        (thinkingOn (fields Sample.answered)) (messages Sample.answered) (role msg))).isEmpty) =
          true := by
    decide +kernel
  apply (legal_iff Sample.ids Floats.asRead Sample.answered "claude-sonnet-4-5"
    (by decide +kernel) ?_).mpr
  · refine Or.inr ⟨by decide +kernel, by decide +kernel, fun msg _ => survives_asRead, Or.inr ?_⟩
    intro msg mem content here empty
    have some_ := List.all_eq_true.mp left_ msg mem
    rw [here] at some_
    exact absurd empty (by simpa using some_)
  · intro msg mem empty
    have some_ := List.all_eq_true.mp filled msg mem
    rw [empty] at some_
    cases some_

end Sub2api.Thinking
