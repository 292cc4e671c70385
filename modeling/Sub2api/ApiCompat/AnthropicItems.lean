import Sub2api.ApiCompat.AnthropicToResponses
import Sub2api.ApiCompat.ItemLifecycle

/-!
# The items of a converted Anthropic stream

The converter keeps one item open at most, and which one can be read off the blocks that came.
A message item outlives its text blocks, up to the next block of thinking or of a tool call.

* `step_keeps` — what one event of the upstream does to the ledger of the items;
* `converted_items_live` — over every stream that may break off anywhere.
-/

namespace Sub2api.ApiCompat

open Go Transducer ToResponses

/-! ### The upstream -/

/-- How far the upstream has come. By `text` the last finished block that the converter maps was
one of text, which leaves a message item open. -/
inductive Upstream where
  | notStarted
  | between (text : Bool)
  | inBlock (text : Bool) (type : BlockType)
  | ended
  deriving DecidableEq

/-- The converter has items for blocks of this type. -/
def BlockType.mapped : BlockType → Bool
  | .text | .thinking | .redactedThinking | .toolUse => true
  | _ => false

/-- Whether a message item is open after the block. -/
def BlockType.leavesText (type : BlockType) (text : Bool) : Bool :=
  if type.mapped then type == .text else text

/-- The next event of a well-formed upstream: blocks come one after the other, of any types and
with any deltas, and other events come anywhere. -/
def Upstream.follow (u : Upstream) (evt : AnthropicStreamEvent) : Option Upstream :=
  match u, evt.type with
  | u, .other _ => some u
  | .notStarted, .messageStart => some (.between false)
  | .between text, .contentBlockStart =>
    evt.contentBlock.map fun block => .inBlock text block.type
  | .between text, .messageDelta => some (.between text)
  | .between _, .messageStop => some .ended
  | .inBlock text type, .contentBlockDelta => evt.delta.map fun _ => .inBlock text type
  | .inBlock text type, .contentBlockStop => some (.between (type.leavesText text))
  | _, _ => none

/-- The delta brings nothing, or belongs to a block of this type. -/
def AnthropicDelta.fits (delta : AnthropicDelta) (type : BlockType) : Prop :=
  match delta.type with
  | .text => delta.text = "" ∨ type = .text
  | .thinking => delta.thinking = "" ∨ type = .thinking ∨ type = .redactedThinking
  | .inputJSON => delta.partialJSON = "" ∨ type = .toolUse
  | _ => True

/-- The converter has a place for what the event brings: a thinking block starts empty, a delta
fits its block, and a block that is not mapped stops while no message item is open. -/
def Upstream.Accommodates (u : Upstream) (evt : AnthropicStreamEvent) : Prop :=
  match u, evt.type with
  | .between _, .contentBlockStart =>
    ∀ block, evt.contentBlock = some block →
      block.type = .thinking ∨ block.type = .redactedThinking → block.thinking = ""
  | .inBlock _ type, .contentBlockDelta => ∀ delta, evt.delta = some delta → delta.fits type
  | .inBlock text type, .contentBlockStop => type.mapped = true ∨ text = false
  | _, _ => True

/-- The converter has a place for every event from here on. -/
def Upstream.AccommodatesAll (u : Upstream) : List AnthropicStreamEvent → Prop
  | [] => True
  | evt :: rest =>
    u.Accommodates evt ∧ ∀ u', u.follow evt = some u' → u'.AccommodatesAll rest

variable {evt : AnthropicStreamEvent}

theorem Upstream.AccommodatesAll.cons {u u' : Upstream} {rest : List AnthropicStreamEvent}
    (here : u.Accommodates evt) (next : u.follow evt = some u') (later : u'.AccommodatesAll rest) :
    u.AccommodatesAll (evt :: rest) := by
  refine ⟨here, ?_⟩
  intro _ followed
  cases next.symm.trans followed
  exact later

/-- The upstream stands inside a text block. -/
def Upstream.inText : Upstream → Bool
  | .inBlock _ .text => true
  | _ => false

/-! ### What is asked of the items -/

/-- Output indices count from zero, every done event repeats the deltas, and the terminal event
lists the finished items. -/
def Policy.strict : Policy where
  index used i := i == used.length
  reasoningDone streamed text := text == streamed
  argumentsDone streamed arguments := arguments == streamed
  itemArguments streamed arguments := arguments == streamed
  searchArguments streamed arguments := arguments == streamed
  output finished output := output == finished

/-- As `strict`, but a finished call without arguments has the empty object, and nothing is asked
of the text that ends the deltas of a reasoning summary. -/
def Policy.converted : Policy :=
  { Policy.strict with
    reasoningDone := fun _ _ => true
    itemArguments := fun streamed arguments =>
      arguments == if streamed = "" then "\x7b\x7d" else streamed }

/-! ### The open item -/

/-- What the converter has open. -/
inductive Holding where
  | nothing
  | message (writing : Bool)
  | reasoning
  | call
  deriving DecidableEq

def Holding.type : Holding → Option ItemType
  | .nothing => none
  | .message _ => some .message
  | .reasoning => some .reasoning
  | .call => some .functionCall

/-- The open item as the state has it. -/
def Holding.item (s : AnthropicEventToResponsesState) : Holding → Option OpenItem
  | .nothing => none
  | .message writing =>
    some { id := s.currentItemID, type := .message, parts := s.currentContent.map (·.text)
           part := if writing then some s.textAccum else none }
  | .reasoning =>
    some { id := s.currentItemID, type := .reasoning, streamed := s.currentSummary }
  | .call => some { id := s.currentItemID, type := .functionCall, streamed := s.currentArgs }

/-- How many items were added, when `closed` of them are done. -/
def Holding.added (closed : ℤ) : Holding → ℤ
  | .nothing => closed
  | _ => closed + 1

/-- What a block of this type holds open, after `text`. -/
def BlockType.holding (text : Bool) : BlockType → Holding
  | .text => .message true
  | .thinking | .redactedThinking => .reasoning
  | .toolUse => .call
  | _ => if text then .message false else .nothing

def Upstream.holding : Upstream → Holding
  | .between text => if text then .message false else .nothing
  | .inBlock text type => type.holding text
  | _ => .nothing

/-- The ledger of a running stream agrees with the state. -/
structure Holds (h : Holding) (s : AnthropicEventToResponsesState) (k : Ledger) : Prop where
  next : k.next = s.sequenceNumber
  created : k.created = true
  running : k.ended = false
  sent : s.createdSent = true
  unfinished : s.completedSent = false
  finished : k.finished = s.outputs
  items : k.items = Function.update (fun _ => none) s.outputIndex (h.item s)
  count : (k.used.length : ℤ) = h.added s.outputIndex
  below : ∀ i ∈ k.used, i < k.used.length
  type : s.currentItemType = h.type
  texts : ∀ part ∈ s.currentContent, part.type = .outputText
  placed : (∃ writing, h = .message writing) → s.contentIndex = s.currentContent.length
  noContent : (∀ writing, h ≠ .message writing) → s.currentContent = []
  noArguments : h ≠ .call → s.currentArgs = ""

variable {h : Holding} {s : AnthropicEventToResponsesState} {k : Ledger}

/-! ### One event of the converter -/

abbrev follows := Ledger.follow Policy.converted

variable {s' : AnthropicEventToResponsesState}

theorem makeResponsesEvent_keeps {Rel : AnthropicEventToResponsesState → Ledger → Prop}
    (now : Holds h s k) (k' : Ledger) {type : ResponsesEventType} {template : ResponsesStreamEvent}
    (same : s'.sequenceNumber = s.sequenceNumber)
    (reacts : k.react .converted
      { template with type := type, sequenceNumber := s'.sequenceNumber } = some k')
    (after : Rel { s' with sequenceNumber := s'.sequenceNumber + 1 }
      { k' with next := k.next + 1 }) :
    Keeps follows Rel (makeResponsesEvent s' type template) k :=
  .one (follow_react k' (by rw [same, now.next]) now.created now.running reacts) after

/-- The books of `s'` are those of `s`. -/
structure SameBooks (s s' : AnthropicEventToResponsesState) : Prop where
  sequence : s'.sequenceNumber = s.sequenceNumber
  sent : s'.createdSent = s.createdSent
  completed : s'.completedSent = s.completedSent
  outputs : s'.outputs = s.outputs
  index : s'.outputIndex = s.outputIndex

/-- Nothing that a held item or the books depend on changes. -/
structure SameItem (s s' : AnthropicEventToResponsesState) : Prop where
  books : SameBooks s s'
  type : s'.currentItemType = s.currentItemType
  id : s'.currentItemID = s.currentItemID
  content : s'.currentContent = s.currentContent
  placed : s'.contentIndex = s.contentIndex
  text : s'.textAccum = s.textAccum
  summary : s'.currentSummary = s.currentSummary
  arguments : s'.currentArgs = s.currentArgs

theorem Holds.transfer (now : Holds h s k) (same : SameItem s s') : Holds h s' k := by
  obtain ⟨⟨sequence, sent, completed, outputs, index⟩, type, id, content, placed, text, summary,
    arguments⟩ := same
  have item : h.item s' = h.item s := by
    cases h <;> simp only [Holding.item, id, content, text, summary, arguments]
  exact
    { next := by rw [sequence, now.next]
      created := now.created
      running := now.running
      sent := sent.trans now.sent
      unfinished := completed.trans now.unfinished
      finished := now.finished.trans outputs.symm
      items := by rw [index, item, now.items]
      count := by rw [index, now.count]
      below := now.below
      type := type.trans now.type
      texts := by rw [content]; exact now.texts
      placed := by rw [content, placed]; exact now.placed
      noContent := by rw [content]; exact now.noContent
      noArguments := by rw [arguments]; exact now.noArguments }

/-- Writing to the held item leaves the books as they are. -/
theorem Holds.write (now : Holds h s k) {h' : Holding} (busy : h ≠ .nothing) (busy' : h' ≠ .nothing)
    (same : SameBooks s s') (type : s'.currentItemType = h'.type)
    (texts : ∀ part ∈ s'.currentContent, part.type = .outputText)
    (placed : (∃ writing, h' = .message writing) → s'.contentIndex = s'.currentContent.length)
    (noContent : (∀ writing, h' ≠ .message writing) → s'.currentContent = [])
    (noArguments : h' ≠ .call → s'.currentArgs = "") :
    Holds h' { s' with sequenceNumber := s'.sequenceNumber + 1 } { k with
      items := Function.update (fun _ => none) s.outputIndex (h'.item s'), next := k.next + 1 } where
  next := by rw [same.sequence, now.next]
  created := now.created
  running := now.running
  sent := same.sent.trans now.sent
  unfinished := same.completed.trans now.unfinished
  finished := now.finished.trans same.outputs.symm
  items := by
    rw [same.index]
    cases h' <;> rfl
  count := by
    have counted := now.count
    rw [same.index]
    cases h <;> cases h' <;> simp_all [Holding.added]
  below := now.below
  type := type
  texts := texts
  placed := placed
  noContent := noContent
  noArguments := noArguments

/-- An event about the held item, which goes on as the state has it afterwards. -/
theorem write_keeps (now : Holds h s k) {was : OpenItem} (held : h.item s = some was) {h' : Holding}
    (same : SameBooks s s') {eventType : ResponsesEventType} {template : ResponsesStreamEvent}
    {change : OpenItem → Option OpenItem}
    (reads : ∀ k : Ledger, k.react .converted
      { template with type := eventType, sequenceNumber := s'.sequenceNumber } =
        k.within { template with type := eventType, sequenceNumber := s'.sequenceNumber }
          was.type change)
    (index : template.outputIndex = s.outputIndex) (id : template.itemID = was.id)
    (busy : h' ≠ .nothing) (changes : change was = h'.item s') (type : s'.currentItemType = h'.type)
    (texts : ∀ part ∈ s'.currentContent, part.type = .outputText)
    (placed : (∃ writing, h' = .message writing) → s'.contentIndex = s'.currentContent.length)
    (noContent : (∀ writing, h' ≠ .message writing) → s'.currentContent = [])
    (noArguments : h' ≠ .call → s'.currentArgs = "") :
    Keeps follows (Holds h') (makeResponsesEvent s' eventType template) k := by
  have busy' : h ≠ .nothing := by
    rintro rfl
    cases held
  obtain ⟨item', held'⟩ : ∃ item', h'.item s' = some item' := by
    cases h' with
    | nothing => exact absurd rfl busy
    | _ => exact ⟨_, rfl⟩
  refine makeResponsesEvent_keeps now { k with
    items := Function.update (fun _ => none) s.outputIndex (h'.item s') } same.sequence ?_
    (now.write busy' busy same type texts placed noContent noArguments)
  rw [held'] at changes
  rw [reads, held']
  simp [Ledger.within, index, now.items, held, id, changes]

/-! ### Closing and opening an item -/

/-- The texts of output parts are all there is to them. -/
theorem map_text_of_outputText {parts : List ResponsesContentPart}
    (texts : ∀ part ∈ parts, part.type = .outputText) :
    (parts.map (·.text)).map (fun text => { type := .outputText, text := text }) = parts := by
  rw [List.map_map]
  conv_rhs => rw [← List.map_id parts]
  refine List.map_congr_left fun part member => ?_
  obtain ⟨type, text⟩ := part
  cases texts _ member
  rfl

/-- The item that is assembled repeats what was streamed of the held one. -/
theorem repeats_currentItem (now : Holds h s k) {was : OpenItem} (held : h.item s = some was) :
    Policy.converted.repeats was (currentItem s was.type) = true := by
  cases h with
  | nothing => cases held
  | message writing =>
    cases held
    simp only [Policy.repeats, currentItem, beq_iff_eq]
    exact (map_text_of_outputText now.texts).symm
  | reasoning =>
    cases held
    by_cases empty : s.currentSummary = "" <;>
      simp [Policy.repeats, currentItem, empty]
  | call =>
    cases held
    by_cases empty : s.currentArgs = "" <;>
      simp [Policy.repeats, Policy.converted, currentItem, empty]

theorem currentItem_id {type : ItemType} : (currentItem s type).id = s.currentItemID := by
  cases type <;> rfl

theorem currentItem_type {type : ItemType} : (currentItem s type).type = type := by
  cases type <;> rfl

/-- Closing finishes the held item, if no part of it is open. -/
theorem close_keeps (now : Holds h s k) (shut : h ≠ .message true) :
    Keeps follows (Holds .nothing) (closeCurrentResponsesItem s) k := by
  unfold closeCurrentResponsesItem
  rw [now.type]
  cases held : h.item s with
  | none =>
    cases h with
    | nothing => exact .silent now
    | _ => cases held
  | some was =>
    have type : h.type = some was.type := by
      cases h <;> cases held <;> rfl
    have id : was.id = s.currentItemID := by
      cases h <;> cases held <;> rfl
    have part : was.part = none := by
      cases h with
      | message writing =>
        cases writing with
        | true => exact absurd rfl shut
        | false => cases held; rfl
      | _ => cases held <;> rfl
    rw [type]
    dsimp only
    refine makeResponsesEvent_keeps now { k with
      items := Function.update (fun _ => none) s.outputIndex none
      finished := k.finished ++ [currentItem s was.type] } rfl ?_ ?_
    · simp [Ledger.react, Ledger.finish, now.items, held, currentItem_id, currentItem_type, id,
        part, repeats_currentItem now held]
    · exact
        { next := by simp [now.next]
          created := now.created
          running := now.running
          sent := now.sent
          unfinished := now.unfinished
          finished := by simp [now.finished]
          items := by simp [Holding.item]
          count := by
            have counted := now.count
            cases h with
            | nothing => cases held
            | _ => exact counted
          below := now.below
          type := rfl
          texts := by simp
          placed := by simp
          noContent := by simp
          noArguments := by simp }

/-- A new item is announced under the next index. -/
theorem openItem_keeps {env : Surroundings} (now : Holds .nothing s k) (h' : Holding)
    {item : ResponsesOutput} (same : SameBooks s s') (content : s'.currentContent = [])
    (arguments : s'.currentArgs = "")
    (placed : s'.contentIndex = 0 ∨ ∀ writing, h' ≠ .message writing)
    (type : h'.type = some item.type) (notWriting : h' ≠ .message true)
    (summary : h' = .reasoning → s'.currentSummary = "") :
    Keeps follows (Holds h') (openItem env s' item) k := by
  have counted : (k.used.length : ℤ) = s.outputIndex := now.count
  have other : s.outputIndex ∉ k.used := by
    intro member
    have := now.below _ member
    omega
  unfold openItem generateItemID
  dsimp only
  refine makeResponsesEvent_keeps now { k with
    items := Function.update (fun _ => none) s'.outputIndex
      (some { id := "item_" ++ hexEncode (env.randomBytes s'.generated), type := item.type })
    used := k.used ++ [s'.outputIndex] } same.sequence ?_ ?_
  · simp [Ledger.react, Ledger.add, Policy.converted, Policy.strict, other, counted, now.items,
      same.index, Holding.item]
  · exact
      { next := by simp [now.next, same.sequence]
        created := now.created
        running := now.running
        sent := same.sent.trans now.sent
        unfinished := same.completed.trans now.unfinished
        finished := now.finished.trans same.outputs.symm
        items := by
          cases h' with
          | nothing => cases type
          | message writing =>
            cases writing with
            | true => exact absurd rfl notWriting
            | false =>
              have typed : item.type = .message := (Option.some.inj type).symm
              simp [Holding.item, content, typed]
          | reasoning =>
            have typed : item.type = .reasoning := (Option.some.inj type).symm
            simp [Holding.item, summary, typed]
          | call =>
            have typed : item.type = .functionCall := (Option.some.inj type).symm
            simp [Holding.item, arguments, typed]
        count := by
          rw [List.length_append, Nat.cast_add, counted, same.index]
          cases h' with
          | nothing => cases type
          | _ => rfl
        below := by
          intro i member
          rw [List.length_append]
          rcases List.mem_append.mp member with before | last
          · have := now.below i before
            simp only [List.length_cons, List.length_nil, Nat.cast_add]
            omega
          · rw [List.mem_singleton.mp last, same.index]
            simp only [List.length_cons, List.length_nil, Nat.cast_add]
            omega
        type := type.symm
        texts := by rw [content]; simp
        placed := by
          rintro ⟨writing, rfl⟩
          rcases placed with zero | never
          · rw [content, zero]; rfl
          · exact absurd rfl (never writing)
        noContent := fun _ => content
        noArguments := fun _ => arguments }

/-! ### The start of a block -/

theorem Holds.empty (now : Holds .nothing s k) : s.currentContent = [] ∧ s.currentArgs = "" := by
  constructor
  · exact now.noContent (by simp)
  · exact now.noArguments (by simp)

theorem startThinking_keeps {env : Surroundings} {block : AnthropicContentBlock}
    (now : Holds h s k) (shut : h ≠ .message true) (unsaid : block.thinking = "") :
    Keeps follows (Holds .reasoning) (startThinking env block s) k := by
  refine (close_keeps now shut).andThen fun k' closed => ?_
  obtain ⟨content, arguments⟩ := closed.empty
  refine openItem_keeps closed .reasoning ⟨rfl, rfl, rfl, rfl, rfl⟩ content arguments ?_ rfl
    (by simp) fun _ => unsaid
  exact Or.inr (by simp)

theorem startToolUse_keeps {env : Surroundings} {block : AnthropicContentBlock}
    (now : Holds h s k) (shut : h ≠ .message true) :
    Keeps follows (Holds .call) (startToolUse env block s) k := by
  refine (close_keeps now shut).andThen fun k' closed => ?_
  obtain ⟨content, arguments⟩ := closed.empty
  refine openItem_keeps closed .call ⟨rfl, rfl, rfl, rfl, rfl⟩ content arguments ?_ rfl
    (by simp) (by simp)
  exact Or.inr (by simp)

/-- A new part of the open message item. -/
theorem addPart_keeps (now : Holds (.message false) s k) :
    Keeps follows (Holds (.message true))
      (makeResponsesEvent { s with textAccum := "" } .contentPartAdded
        { type := .contentPartAdded, outputIndex := s.outputIndex, contentIndex := s.contentIndex
          itemID := s.currentItemID, part := some { type := .outputText, text := "" } }) k := by
  have placed := now.placed ⟨_, rfl⟩
  refine write_keeps now rfl ?_ (fun _ => by rfl) (by rfl) (by rfl) (by simp) ?_ now.type now.texts
    (fun _ => placed) (by simp) fun _ => now.noArguments (by simp)
  · exact ⟨rfl, rfl, rfl, rfl, rfl⟩
  · simp [placed, Holding.item]

/-- A text block goes into the open message item, or into a new one. -/
theorem startText_keeps {env : Surroundings} (now : Holds h s k) (shut : h ≠ .message true) :
    Keeps follows (Holds (.message true)) (startText env s) k := by
  refine Keeps.andThen (?_ : Keeps follows (Holds (.message false)) _ k)
    fun k' opened => addPart_keeps opened
  split
  · refine (close_keeps now shut).andThen fun k' closed => ?_
    obtain ⟨content, arguments⟩ := closed.empty
    exact openItem_keeps closed (.message false) ⟨rfl, rfl, rfl, rfl, rfl⟩ content arguments
      (Or.inl rfl) rfl (by simp) (by simp)
  · rename_i already
    have type := now.type
    rw [not_not.mp already] at type
    cases h with
    | message writing =>
      cases writing with
      | true => exact absurd rfl shut
      | false => exact .silent now
    | _ => cases type

theorem handleContentBlockStart_keeps {env : Surroundings} {block : AnthropicContentBlock}
    {text : Bool} (started : evt.contentBlock = some block)
    (unsaid : block.type = .thinking ∨ block.type = .redactedThinking → block.thinking = "")
    (now : Holds (Upstream.between text).holding s k) :
    Keeps follows (Holds (block.type.holding text)) (handleContentBlockStart env evt s) k := by
  have shut : (Upstream.between text).holding ≠ .message true := by cases text <;> decide
  unfold handleContentBlockStart
  rw [started]
  dsimp only
  cases type : block.type with
  | thinking => exact startThinking_keeps now shut (unsaid (Or.inl type))
  | redactedThinking => exact startThinking_keeps now shut (unsaid (Or.inr type))
  | text => exact startText_keeps now shut
  | toolUse => exact startToolUse_keeps now shut
  | _ => exact .silent now

/-! ### A delta -/

/-- A delta of the open part. -/
theorem textDelta_keeps {text : String} (now : Holds (.message true) s k) :
    Keeps follows (Holds (.message true))
      (makeResponsesEvent { s with textAccum := s.textAccum ++ text } .outputTextDelta
        { type := .outputTextDelta, outputIndex := s.outputIndex, contentIndex := s.contentIndex
          delta := text, itemID := s.currentItemID }) k := by
  have placed := now.placed ⟨_, rfl⟩
  refine write_keeps now rfl ?_ (fun _ => by rfl) (by rfl) (by rfl) (by simp) ?_ now.type now.texts
    (fun _ => placed) (by simp) fun _ => now.noArguments (by simp)
  · exact ⟨rfl, rfl, rfl, rfl, rfl⟩
  · simp [placed, Holding.item, OpenItem.inPart]

/-- A delta of the open reasoning item. -/
theorem thinkingDelta_keeps {thinking : String} (now : Holds .reasoning s k) :
    Keeps follows (Holds .reasoning)
      (makeResponsesEvent { s with currentSummary := s.currentSummary ++ thinking }
        .reasoningSummaryTextDelta
        { type := .reasoningSummaryTextDelta, outputIndex := s.outputIndex, summaryIndex := 0
          delta := thinking, itemID := s.currentItemID }) k := by
  refine write_keeps now rfl ?_ (fun _ => by rfl) (by rfl) (by rfl) (by simp) (by rfl) now.type
    now.texts (by simp) (fun _ => now.noContent (by simp)) fun _ => now.noArguments (by simp)
  exact ⟨rfl, rfl, rfl, rfl, rfl⟩

/-- A delta of the open call. -/
theorem argumentsDelta_keeps (now : Holds .call s k) {arguments : String} (same : SameBooks s s')
    (type : s'.currentItemType = s.currentItemType) (id : s'.currentItemID = s.currentItemID)
    (content : s'.currentContent = s.currentContent)
    (written : s'.currentArgs = s.currentArgs ++ arguments) :
    Keeps follows (Holds .call) (argumentsDelta s' arguments) k := by
  have none := now.noContent (by simp)
  refine write_keeps now rfl same (fun _ => by rfl) same.index id (by simp) ?_
    (type.trans now.type) (by simp [content, none]) (by simp) (fun _ => content.trans none)
    (by simp)
  simp [Holding.item, id, written]

theorem handleContentBlockDelta_keeps {delta : AnthropicDelta} {text : Bool} {type : BlockType}
    (brings : evt.delta = some delta) (fits : delta.fits type)
    (now : Holds (type.holding text) s k) :
    Keeps follows (Holds (type.holding text)) (handleContentBlockDelta evt s) k := by
  unfold handleContentBlockDelta
  unfold AnthropicDelta.fits at fits
  rw [brings]
  dsimp only
  cases kind : delta.type with
  | text =>
    rw [kind] at fits
    dsimp only at fits ⊢
    split
    · exact .silent now
    · rename_i fresh
      cases fits.resolve_left fresh
      exact textDelta_keeps now
  | thinking =>
    rw [kind] at fits
    dsimp only at fits ⊢
    split
    · exact .silent now
    · rename_i fresh
      rcases fits.resolve_left fresh with rfl | rfl
      · exact thinkingDelta_keeps now
      · exact thinkingDelta_keeps now
  | inputJSON =>
    rw [kind] at fits
    dsimp only at fits ⊢
    split
    · exact .silent now
    · rename_i fresh
      cases fits.resolve_left fresh
      exact argumentsDelta_keeps now ⟨rfl, rfl, rfl, rfl, rfl⟩ rfl rfl rfl rfl
  | signature =>
    dsimp only
    split
    · exact .silent (now.transfer ⟨⟨rfl, rfl, rfl, rfl, rfl⟩, rfl, rfl, rfl, rfl, rfl, rfl, rfl⟩)
    · exact .silent now
  | _ => exact .silent now

/-! ### The stop of a block -/

theorem stopReasoning_keeps (now : Holds .reasoning s k) :
    Keeps follows (Holds .nothing) (stopReasoning s) k := by
  refine Keeps.andThen (?_ : Keeps follows (Holds .reasoning) _ k)
    fun k' said => close_keeps said (by simp)
  refine write_keeps now rfl ?_ (fun _ => by rfl) (by rfl) (by rfl) (by simp) (by rfl) now.type
    now.texts (by simp) (fun _ => now.noContent (by simp)) fun _ => now.noArguments (by simp)
  exact ⟨rfl, rfl, rfl, rfl, rfl⟩

/-- The arguments that end a call are those that its deltas brought. -/
theorem argumentsDone_keeps (now : Holds .call s k) :
    Keeps follows (Holds .call)
      (makeResponsesEvent { s with pendingToolInput := "" } .functionCallArgumentsDone
        { type := .functionCallArgumentsDone, outputIndex := s.outputIndex
          itemID := s.currentItemID, callID := s.currentCallID, name := s.currentName
          arguments := s.currentArgs }) k := by
  refine write_keeps now rfl ?_ (fun _ => by rfl) (by rfl) (by rfl) (by simp) ?_ now.type
    now.texts (by simp) (fun _ => now.noContent (by simp)) (by simp)
  · exact ⟨rfl, rfl, rfl, rfl, rfl⟩
  · simp [keepIf, Policy.converted, Policy.strict, Holding.item]

theorem stopFunctionCall_keeps (now : Holds .call s k) :
    Keeps follows (Holds .nothing) (stopFunctionCall s) k := by
  refine Keeps.andThen (?_ : Keeps follows (Holds .call) _ k) fun k' sent =>
    (argumentsDone_keeps sent).andThen fun k'' done => close_keeps done (by simp)
  split
  · rename_i seeded
    exact argumentsDelta_keeps now ⟨rfl, rfl, rfl, rfl, rfl⟩ rfl rfl rfl (by simp [seeded.1])
  · exact .silent now

/-- Both events that end a part repeat its text. -/
theorem stopText_keeps (now : Holds (.message true) s k) :
    Keeps follows (Holds (.message false)) (stopText s) k := by
  have placed := now.placed ⟨_, rfl⟩
  -- The first event finds the part as it was, though the state has closed it already.
  refine Keeps.andThen (?_ : Keeps follows
    (fun _ => Holds (.message true) { s with sequenceNumber := s.sequenceNumber + 1 }) _ k)
    fun k' said => ?_
  · have books : SameBooks s s := ⟨rfl, rfl, rfl, rfl, rfl⟩
    refine makeResponsesEvent_keeps now { k with
        items := Function.update (fun _ => none) s.outputIndex ((Holding.message true).item s) }
      rfl ?_ (now.write (by simp) (by simp) books now.type now.texts (fun _ => placed) (by simp)
        fun _ => now.noArguments (by simp))
    simp [Ledger.react, Ledger.within, OpenItem.inPart, keepIf, now.items, Holding.item, placed]
  · refine write_keeps said rfl ?_ (fun _ => by rfl) (by rfl) (by rfl) (by simp) ?_ said.type ?_ ?_
      (by simp) fun _ => said.noArguments (by simp)
    · exact ⟨rfl, rfl, rfl, rfl, rfl⟩
    · simp [placed, Holding.item, OpenItem.inPart, makeResponsesEvent]
    · intro part member
      rcases List.mem_append.mp member with before | last
      · exact now.texts part before
      · rw [List.mem_singleton.mp last]
    · intro _
      simp [makeResponsesEvent, placed]

theorem handleContentBlockStop_keeps {text : Bool} {type : BlockType}
    (placed : type.mapped = true ∨ text = false) (now : Holds (type.holding text) s k) :
    Keeps follows (Holds (Upstream.between (type.leavesText text)).holding)
      (handleContentBlockStop s) k := by
  unfold handleContentBlockStop
  have held := now.type
  cases type with
  | text =>
    rw [held]
    exact stopText_keeps now
  | thinking | redactedThinking =>
    rw [held]
    exact stopReasoning_keeps now
  | toolUse =>
    rw [held]
    exact stopFunctionCall_keeps now
  | _ =>
    rcases placed with mapped | rfl
    · cases mapped
    · rw [held]
      exact .silent now

/-! ### The start and the end of the message -/

/-- Nothing has come yet. -/
def Fresh (s : AnthropicEventToResponsesState) (k : Ledger) : Prop :=
  k = {} ∧ ∃ model created, s = { model := model, created := created }

/-- The terminal event is out. -/
def Ended (s : AnthropicEventToResponsesState) (k : Ledger) : Prop :=
  s.completedSent = true ∧ k.ended = true

theorem handleMessageStart_keeps {env : Surroundings} (fresh : Fresh s k) :
    Keeps follows (Holds .nothing) (handleMessageStart env evt s) k := by
  obtain ⟨rfl, model, created, rfl⟩ := fresh
  unfold handleMessageStart
  cases evt.message with
  | none =>
    refine ⟨{ next := 1, created := true }, rfl, ?_⟩
    constructor <;>
      simp [makeResponsesCreatedEvent, Holding.item, Holding.added, Holding.type]
  | some message =>
    refine ⟨{ next := 1, created := true }, rfl, ?_⟩
    constructor <;>
      simp [makeResponsesCreatedEvent, Holding.item, Holding.added, Holding.type]

theorem handleMessageDelta_keeps (now : Holds h s k) :
    Keeps follows (Holds h) (handleMessageDelta evt s) k := by
  unfold handleMessageDelta
  have same : SameItem s (handleMessageDelta evt s).1 := by
    unfold handleMessageDelta
    cases evt.usage <;> cases evt.delta <;> dsimp only <;> (try split) <;>
      exact ⟨⟨rfl, rfl, rfl, rfl, rfl⟩, rfl, rfl, rfl, rfl, rfl, rfl, rfl⟩
  have kept := now.transfer same
  unfold handleMessageDelta at kept
  cases delta : evt.delta with
  | none =>
    rw [delta] at kept
    exact .silent kept
  | some delta' =>
    rw [delta] at kept
    exact .silent kept

theorem makeResponsesCompletedEvent_keeps {status : ResponsesStatus}
    {details : Option ResponsesIncompleteDetails} (now : Holds .nothing s k) :
    Keeps follows Ended
      (makeResponsesCompletedEvent { s with completedSent := true } status details) k := by
  refine .one (follow_react { k with ended := true } now.next.symm now.created now.running ?_)
    ⟨rfl, rfl⟩
  rw [react_terminal]
  · simp [Ledger.endResponse, now.items, Holding.item, Policy.converted, Policy.strict,
      now.finished]
  · dsimp only
    split <;> rfl

/-- The held item is finished first, so that the terminal event lists it too. -/
theorem complete_keeps (now : Holds h s k) (shut : h ≠ .message true) :
    Keeps follows Ended (complete s) k :=
  (close_keeps now shut).andThen fun _ closed => makeResponsesCompletedEvent_keeps closed

/-! ### Runs -/

/-- What the ledger has to do with the state, depending on how far the upstream has come. -/
def InStep : Upstream → AnthropicEventToResponsesState → Ledger → Prop
  | .notStarted => Fresh
  | .ended => Ended
  | u => Holds u.holding

/-- One event of the upstream that the converter has a place for. -/
theorem step_keeps {env : Surroundings} {u u' : Upstream} (goesOn : u.follow evt = some u')
    (placed : u.Accommodates evt) (now : InStep u s k) :
    Keeps follows (InStep u') (anthropicEventToResponsesEvents env s evt) k := by
  unfold anthropicEventToResponsesEvents
  unfold Upstream.follow at goesOn
  unfold Upstream.Accommodates at placed
  cases type : evt.type with
  | messageStart =>
    rw [type] at goesOn
    cases u with
    | notStarted =>
      cases goesOn
      exact handleMessageStart_keeps now
    | _ => cases goesOn
  | contentBlockStart =>
    rw [type] at goesOn placed
    cases u with
    | between text =>
      obtain ⟨block, started, rfl⟩ := Option.map_eq_some_iff.mp goesOn
      exact handleContentBlockStart_keeps started (placed block started) now
    | _ => cases goesOn
  | contentBlockDelta =>
    rw [type] at goesOn placed
    cases u with
    | inBlock text blockType =>
      obtain ⟨delta, brings, rfl⟩ := Option.map_eq_some_iff.mp goesOn
      exact handleContentBlockDelta_keeps brings (placed delta brings) now
    | _ => cases goesOn
  | contentBlockStop =>
    rw [type] at goesOn placed
    cases u with
    | inBlock text blockType =>
      cases goesOn
      exact handleContentBlockStop_keeps placed now
    | _ => cases goesOn
  | messageDelta =>
    rw [type] at goesOn
    cases u with
    | between text =>
      cases goesOn
      exact handleMessageDelta_keeps now
    | _ => cases goesOn
  | messageStop =>
    rw [type] at goesOn
    cases u with
    | between text =>
      cases goesOn
      dsimp only
      unfold handleMessageStop
      rw [if_neg (by simp [now.unfinished])]
      exact complete_keeps now (by cases text <;> decide)
    | _ => cases goesOn
  | other name =>
    rw [type] at goesOn
    have same : u' = u := by cases u <;> cases goesOn <;> rfl
    rw [same]
    exact .silent now

/-- A whole upstream, each of whose events the converter has a place for. -/
theorem run_keeps {env : Surroundings} {events : List AnthropicStreamEvent} {u u' : Upstream}
    (goesOn : observe Upstream.follow u events = some u')
    (placed : u.AccommodatesAll events) (now : InStep u s k) :
    Keeps follows (InStep u') (run (anthropicEventToResponsesEvents env) s events) k := by
  induction events generalizing u s k with
  | nil =>
    cases goesOn
    exact .silent now
  | cons evt rest ih =>
    rw [observe_cons] at goesOn
    obtain ⟨first, follows, later⟩ := Option.bind_eq_some_iff.mp goesOn
    exact (step_keeps follows placed.1 now).run fun k' reached =>
      ih later (placed.2 first follows) reached

/-- The finalizer ends a stream that has begun and has not ended. -/
theorem finalize_keeps {u : Upstream} (begun : u ≠ .notStarted) (outside : u.inText = false)
    (now : InStep u s k) : Keeps follows Ended (finalizeAnthropicResponsesStream s) k := by
  unfold finalizeAnthropicResponsesStream
  cases u with
  | notStarted => exact absurd rfl begun
  | between text =>
    rw [if_neg (by simp [now.sent, now.unfinished])]
    exact complete_keeps now (by cases text <;> decide)
  | inBlock text type =>
    rw [if_neg (by simp [now.sent, now.unfinished])]
    refine complete_keeps now ?_
    cases type with
    | text => cases outside
    | thinking | redactedThinking | toolUse =>
      intro same
      cases same
    | _ => cases text <;> simp [Upstream.holding, BlockType.holding]
  | ended =>
    rw [if_pos (Or.inr now.1)]
    exact .silent now

theorem follow_begun {u u' : Upstream} (begun : u ≠ .notStarted) (goesOn : u.follow evt = some u') :
    u' ≠ .notStarted := by
  unfold Upstream.follow at goesOn
  rintro rfl
  split at goesOn
  · cases goesOn
    exact begun rfl
  all_goals first | cases goesOn | simp at goesOn

theorem observe_begun {u u' : Upstream} {events : List AnthropicStreamEvent}
    (begun : u ≠ .notStarted) (goesOn : observe Upstream.follow u events = some u') :
    u' ≠ .notStarted := by
  induction events generalizing u with
  | nil =>
    cases goesOn
    exact begun
  | cons evt rest ih =>
    rw [observe_cons] at goesOn
    obtain ⟨first, follows, later⟩ := Option.bind_eq_some_iff.mp goesOn
    exact ih (follow_begun begun follows) later

/-- Before the message starts nothing happens. -/
theorem run_notStarted {env : Surroundings} {events : List AnthropicStreamEvent}
    (goesOn : observe Upstream.follow .notStarted events = some .notStarted) :
    run (anthropicEventToResponsesEvents env) s events = (s, []) := by
  induction events with
  | nil => rfl
  | cons evt rest ih =>
    rw [observe_cons] at goesOn
    obtain ⟨first, follows, later⟩ := Option.bind_eq_some_iff.mp goesOn
    have idle : first = .notStarted := by
      by_contra begun
      exact observe_begun begun later rfl
    subst idle
    cases type : evt.type with
    | other name =>
      have silent : anthropicEventToResponsesEvents env s evt = (s, []) := by
        unfold anthropicEventToResponsesEvents
        rw [type]
      rw [run_cons, silent, ih later]
      rfl
    | _ =>
      unfold Upstream.follow at follows
      rw [type] at follows
      cases follows

/-- For every well-formed upstream, broken off anywhere and finalized: nothing is emitted when
the message never started. Otherwise the emitted events are followed to their end, if each event
found its place and the upstream did not break off inside a text block. -/
theorem converted_items_live (env : Surroundings) (model : String) (created : ℤ)
    (events : List AnthropicStreamEvent) (u : Upstream)
    (wellFormed : observe Upstream.follow .notStarted events = some u) :
    (u = .notStarted → responsesStream env model created events = []) ∧
      (u ≠ .notStarted →
        Upstream.notStarted.AccommodatesAll events → u.inText = false →
        ValidLifecycle .converted (responsesStream env model created events)) := by
  constructor
  · rintro rfl
    unfold responsesStream andThen
    rw [run_notStarted wellFormed]
    rfl
  · intro begun placed outside
    have fresh : InStep .notStarted { model := model, created := created } {} :=
      ⟨rfl, model, created, rfl⟩
    have followed := (@run_keeps _ _ env _ _ _ wellFormed placed fresh).andThen fun k reached =>
      finalize_keeps begun outside reached
    exact Follows.mono followed fun _ ended => ended.2

namespace UpstreamSample

def env : Surroundings :=
  { randomBytes := fun n => [(UInt8.ofNat n).toFin], keepsSignatures := fun model => model == "m" }

def start : AnthropicStreamEvent := { type := .messageStart, message := some { model := "m" } }

def stop : AnthropicStreamEvent := { type := .contentBlockStop }

/-- A block with one delta. -/
def blockOf (block : AnthropicContentBlock) (delta : AnthropicDelta) : List AnthropicStreamEvent :=
  [{ type := .contentBlockStart, contentBlock := some block },
   { type := .contentBlockDelta, delta := some delta }, stop]

/-- Thinking and two texts with a ping between them, then a call that breaks off. -/
def brokenOff : List AnthropicStreamEvent :=
  start :: blockOf { type := .thinking } { type := .thinking, thinking := "hm" } ++
    blockOf { type := .text } { type := .text, text := "a" } ++ [{ type := .other "ping" }] ++
    blockOf { type := .text } { type := .text, text := "b" } ++
    [{ type := .contentBlockStart, contentBlock := some { type := .toolUse, name := "t" } },
     { type := .contentBlockDelta, delta := some { type := .inputJSON, partialJSON := "[1" } }]

/-- A call of a tool that takes no arguments. -/
def noArguments : List AnthropicStreamEvent :=
  start ::
    blockOf { type := .toolUse, name := "t", input := "\x7b\x7d" } { type := .inputJSON } ++
    [{ type := .messageDelta, delta := some { stopReason := "tool_use" } },
     { type := .messageStop }]

end UpstreamSample

theorem converted_items_live_sample :
    ValidLifecycle .converted
      (responsesStream UpstreamSample.env "" 0 UpstreamSample.brokenOff) := by
  refine (converted_items_live UpstreamSample.env "" 0 UpstreamSample.brokenOff
    (.inBlock true .toolUse) (by decide)).2 (by decide) ?_ rfl
  apply Upstream.AccommodatesAll.cons (by trivial) rfl
  apply Upstream.AccommodatesAll.cons (by rintro _ ⟨⟩ _; rfl) rfl
  apply Upstream.AccommodatesAll.cons (by rintro _ ⟨⟩; exact Or.inr (Or.inl rfl)) rfl
  apply Upstream.AccommodatesAll.cons (by exact Or.inl rfl) rfl
  apply Upstream.AccommodatesAll.cons (by rintro _ ⟨⟩ _; rfl) rfl
  apply Upstream.AccommodatesAll.cons (by rintro _ ⟨⟩; exact Or.inr rfl) rfl
  apply Upstream.AccommodatesAll.cons (by exact Or.inl rfl) rfl
  apply Upstream.AccommodatesAll.cons (by trivial) rfl
  apply Upstream.AccommodatesAll.cons (by rintro _ ⟨⟩ _; rfl) rfl
  apply Upstream.AccommodatesAll.cons (by rintro _ ⟨⟩; exact Or.inr rfl) rfl
  apply Upstream.AccommodatesAll.cons (by exact Or.inl rfl) rfl
  apply Upstream.AccommodatesAll.cons (by rintro _ ⟨⟩ _; rfl) rfl
  exact Upstream.AccommodatesAll.cons (by rintro _ ⟨⟩; exact Or.inr rfl) rfl trivial

/-- The deltas of a call without arguments are empty, but its done item has the empty object. -/
theorem call_without_arguments_not_strict :
    observe Upstream.follow .notStarted UpstreamSample.noArguments = some .ended ∧
      ¬ValidLifecycle .strict
        (responsesStream UpstreamSample.env "" 0 UpstreamSample.noArguments) := by
  constructor
  · decide
  · decide +kernel

end Sub2api.ApiCompat
