import Mathlib.Data.List.Dedup
import Sub2api.ApiCompat.ChatState

/-!
# The chunkings of a chat message

A chunking cuts a message's reasoning, text and calls into fragments, in any interleaving.
`Gathered` says what the converter has of the pieces seen so far; each fragment extends it.
-/

namespace Sub2api.ApiCompat

open Go Transducer ChatToResponses

/-! ### Chunkings -/

/-- What some fragments have: all reasoning and content, the last finish reason that is not empty,
and the fragments of calls. -/
structure ChatPieces where
  reasoning : String := ""
  content : String := ""
  finish : String := ""
  calls : List ChatToolCall := []

def ChatPieces.add (pieces : ChatPieces) : ChatInput → ChatPieces
  | .reasoning text => { pieces with reasoning := pieces.reasoning ++ text }
  | .content text => { pieces with content := pieces.content ++ text }
  | .toolCall call => { pieces with calls := pieces.calls ++ [call] }
  | .finishReason reason => { pieces with finish := if reason ≠ "" then reason else pieces.finish }
  | .head _ | .closeMessage | .degenerated => pieces

/-- What the chunks have, in the order of their fragments. -/
def piecesOf (chunks : List ChatCompletionsChunk) : ChatPieces :=
  (chunks.flatMap fragments).foldl ChatPieces.add {}

/-- The last of some values that is not empty. -/
def latest (value : String) (later : List String) : String :=
  later.foldl (fun value next => if next ≠ "" then next else value) value

/-- The indices in the order in which they first come. -/
def started (indices : List ℤ) : List ℤ := indices.reverse.dedup.reverse

def callIndex (call : ChatToolCall) : ℤ := call.index.getD 0

/-- The fragments of the call of an index. -/
def fragmentsOf (parts : List ChatToolCall) (index : ℤ) : List ChatToolCall :=
  parts.filter fun part => callIndex part == index

/-- Fragments of a call: the first has the whole name, one at least has the id, and together they
have the arguments. -/
structure FragmentsOf (call : ChatToolCall) (parts : List ChatToolCall) : Prop where
  name : (parts.head?.map (·.function.name)) = some call.function.name
  names : ∀ part ∈ parts, part.function.name = "" ∨ part.function.name = call.function.name
  id : call.id ∈ parts.map (·.id)
  ids : ∀ part ∈ parts, part.id = "" ∨ part.id = call.id
  arguments : String.join (parts.map (·.function.arguments)) = call.function.arguments

def deltasOf (chunks : List ChatCompletionsChunk) : List ChatDelta :=
  chunks.flatMap fun chunk => chunk.choices.map (·.delta)

/-- The chunks have what the choice's message has, each text under the message's own name for it,
and its calls in their order. -/
structure ChunkingOf (choice : ChatChoice) (chunks : List ChatCompletionsChunk) : Prop where
  reasoningContent : String.join ((deltasOf chunks).map fun delta =>
    delta.reasoningContent.getD "") = choice.message.reasoningContent
  reasoning : String.join ((deltasOf chunks).map fun delta => delta.reasoning.getD "") =
    choice.message.reasoning
  content : (piecesOf chunks).content = chatMessageContentText choice.message.content
  finish : (piecesOf chunks).finish = choice.finishReason
  calls : List.Forall₂ FragmentsOf choice.message.toolCalls
    ((started ((piecesOf chunks).calls.map callIndex)).map (fragmentsOf (piecesOf chunks).calls))

/-- A delta's `reasoning` is empty or has no `reasoning_content` beside it, where the message has
none; where it has one, each `reasoning` is empty or has one beside it. -/
def ReasoningRead (message : ChatMessage) (chunks : List ChatCompletionsChunk) : Prop :=
  ∀ delta ∈ deltasOf chunks, delta.reasoning.getD "" = "" ∨
    (delta.reasoningContent.isSome = true ↔ message.reasoningContent ≠ "")

instance (message : ChatMessage) (chunks : List ChatCompletionsChunk) :
    Decidable (ReasoningRead message chunks) :=
  inferInstanceAs (Decidable (∀ delta ∈ deltasOf chunks, _ ∨ _))

/-! ### The reasoning -/

/-- The reasoning of a fragment. -/
def reasoningOf : ChatInput → String
  | .reasoning text => text
  | _ => ""

theorem add_reasoning (inputs : List ChatInput) (pieces : ChatPieces) :
    (inputs.foldl ChatPieces.add pieces).reasoning =
      pieces.reasoning ++ String.join (inputs.map reasoningOf) := by
  induction inputs generalizing pieces with
  | nil => simp
  | cons input rest ih =>
    rw [List.foldl_cons, ih, List.map_cons, String.join_cons, ← String.append_assoc]
    cases input <;> simp [ChatPieces.add, reasoningOf]

theorem join_blank {α : Type} (l : List α) : String.join (l.map fun _ => "") = "" := by
  induction l with
  | nil => rfl
  | cons a rest ih =>
    rw [List.map_cons, String.join_cons, ih]
    rfl

theorem piecesOf_reasoning (chunks : List ChatCompletionsChunk) :
    (piecesOf chunks).reasoning =
      String.join ((deltasOf chunks).map fun delta => delta.reasoningText.getD "") := by
  have choices (l : List ChatChunkChoice) :
      String.join ((l.flatMap fun choice =>
        [.reasoning (choice.delta.reasoningText.getD ""), .content (choice.delta.content.getD "")] ++
          choice.delta.toolCalls.map .toolCall ++
          [.finishReason (choice.finishReason.getD "")]).map reasoningOf) =
        String.join (l.map fun choice => choice.delta.reasoningText.getD "") := by
    induction l with
    | nil => rfl
    | cons choice rest ih =>
      have calls : String.join ((choice.delta.toolCalls.map ChatInput.toolCall).map reasoningOf) =
          "" := by
        rw [List.map_map]
        exact join_blank _
      rw [List.flatMap_cons, List.map_append, String.join_append, ih]
      simp only [List.map_append, String.join_append, calls]
      simp [reasoningOf]
  rw [piecesOf, add_reasoning, String.empty_append]
  unfold deltasOf
  induction chunks with
  | nil => rfl
  | cons chunk rest ih =>
    rw [List.flatMap_cons, List.map_append, String.join_append, ih, List.flatMap_cons,
      List.map_append, String.join_append, List.map_map]
    congr 1
    rw [fragments, List.map_cons, String.join_cons, choices]
    exact String.empty_append

/-- Where some texts are blanked, all of the text is left exactly when the others were blank. -/
theorem join_map_eq_iff {α : Type} {f g : α → String} {l : List α}
    (kept : ∀ a ∈ l, f a = g a ∨ f a = "") :
    String.join (l.map f) = String.join (l.map g) ↔ ∀ a ∈ l, f a = g a := by
  have shorter (l : List α) (kept : ∀ a ∈ l, f a = g a ∨ f a = "") :
      (String.join (l.map f)).length ≤ (String.join (l.map g)).length := by
    induction l with
    | nil => exact le_rfl
    | cons a rest ih =>
      obtain ⟨first, later⟩ := List.forall_mem_cons.mp kept
      simp only [List.map_cons, String.join_cons, String.length_append]
      have rest_ := ih later
      rcases first with same | blank
      · rw [same]
        omega
      · rw [blank, String.length_empty]
        omega
  constructor
  · intro same
    induction l with
    | nil => simp
    | cons a rest ih =>
      obtain ⟨first, later⟩ := List.forall_mem_cons.mp kept
      simp only [List.map_cons, String.join_cons] at same
      have here : f a = g a := by
        rcases first with same' | blank
        · exact same'
        · have lengths := congrArg String.length same
          have rest_ := shorter rest later
          simp only [String.length_append, blank, String.length_empty] at lengths
          rw [blank, String.length_eq_zero_iff.mp (show (g a).length = 0 by omega)]
      rw [here, String.append_right_inj] at same
      exact List.forall_mem_cons.mpr ⟨here, ih later same⟩
  · intro same
    rw [List.map_congr_left same]

/-- The stream's reasoning is the message's exactly when every delta's is read. -/
theorem ChunkingOf.reasoning_iff {choice : ChatChoice} {chunks : List ChatCompletionsChunk}
    (chunking : ChunkingOf choice chunks) :
    (piecesOf chunks).reasoning = choice.message.reasoningText ↔
      ReasoningRead choice.message chunks := by
  have read (delta : ChatDelta) : delta.reasoningText.getD "" =
      if delta.reasoningContent.isSome then delta.reasoningContent.getD ""
      else delta.reasoning.getD "" := by
    unfold ChatDelta.reasoningText
    split <;> rfl
  rw [piecesOf_reasoning, ChatMessage.reasoningText, ReasoningRead]
  by_cases own : choice.message.reasoningContent = ""
  · -- The texts of `reasoning` beside an empty `reasoning_content` are not read.
    have blank : ∀ delta ∈ deltasOf chunks, delta.reasoningContent.getD "" = "" := by
      have whole := (join_blank (deltasOf chunks)).trans
        (chunking.reasoningContent.trans own).symm
      exact fun delta member =>
        ((join_map_eq_iff fun _ _ => Or.inr rfl).mp whole delta member).symm
    rw [if_neg (not_not.mpr own), ← chunking.reasoning, join_map_eq_iff]
    · apply forall₂_congr
      intro delta member
      rw [read]
      have empty := blank delta member
      cases content : delta.reasoningContent with
      | none => simp [own]
      | some text =>
        rw [content] at empty
        simp only [Option.getD_some] at empty
        simp [own, empty]
    · intro delta member
      rw [read]
      have empty := blank delta member
      split
      · exact Or.inr empty
      · exact Or.inl rfl
  · -- The texts of `reasoning` without a `reasoning_content` are read too.
    have same := join_map_eq_iff (l := deltasOf chunks)
      (f := fun delta => delta.reasoningContent.getD "")
      (g := fun delta => delta.reasoningText.getD "") (by
        intro delta member
        rw [read]
        cases delta.reasoningContent
        · exact Or.inr rfl
        · exact Or.inl rfl)
    rw [chunking.reasoningContent] at same
    rw [if_pos own, eq_comm, same]
    apply forall₂_congr
    intro delta member
    rw [read]
    cases delta.reasoningContent with
    | none => simp [own]
    | some text => simp [own]

/-! ### The calls -/

theorem latest_concat {value : String} {later : List String} {next : String} :
    latest value (later ++ [next]) = if next ≠ "" then next else latest value later := by
  simp [latest]

theorem latest_eq {value id : String} {later : List String} (member : id ∈ later)
    (same : ∀ next ∈ later, next = "" ∨ next = id) (some' : id ≠ "") : latest value later = id := by
  induction later using List.reverseRecOn with
  | nil => cases member
  | append_singleton later next ih =>
    rw [latest_concat]
    rcases same next (by simp) with empty | last
    · rw [if_neg (not_not.mpr empty)]
      refine ih ?_ fun next member => same next (List.mem_append_left _ member)
      rcases List.mem_append.mp member with earlier | last
      · exact earlier
      · rw [List.mem_singleton.mp last] at some'
        exact absurd empty some'
    · rw [last, if_pos some']

theorem started_concat {indices : List ℤ} {index : ℤ} :
    started (indices ++ [index]) =
      if index ∈ indices then started indices else started indices ++ [index] := by
  unfold started
  rw [List.reverse_append, List.reverse_singleton, List.singleton_append]
  split
  · rename_i old
    rw [List.dedup_cons_of_mem (List.mem_reverse.mpr old)]
  · rename_i new
    rw [List.dedup_cons_of_notMem (mt List.mem_reverse.mp new), List.reverse_cons]

theorem mem_started {indices : List ℤ} {index : ℤ} : index ∈ started indices ↔ index ∈ indices := by
  simp [started]

variable {parts : List ChatToolCall}

theorem fragmentsOf_concat {part : ChatToolCall} {index : ℤ} :
    fragmentsOf (parts ++ [part]) index =
      if callIndex part = index then fragmentsOf parts index ++ [part]
      else fragmentsOf parts index := by
  unfold fragmentsOf
  rw [List.filter_append]
  split
  · rename_i same
    simp [same]
  · rename_i other
    simp [other]

theorem fragmentsOf_nil {index : ℤ} (absent : index ∉ parts.map callIndex) :
    fragmentsOf parts index = [] := by
  refine List.filter_eq_nil_iff.mpr ?_
  intro part member
  have other : callIndex part ≠ index := by
    rintro rfl
    exact absent (List.mem_map_of_mem member)
  simpa using other

/-! ### What the converter has gathered -/

/-- The name in the first of some fragments. -/
def firstName (parts : List ChatToolCall) : String :=
  (parts.head?.map (·.function.name)).getD ""

variable {setting : ChatSetting} {s : ChatCompletionsToResponsesStreamState}

/-- A stored call is made of the fragments seen, with the name that they have in all. -/
structure Assembled (setting : ChatSetting) (all seen : List ChatToolCall) (stored : StreamTool) :
    Prop where
  name : stored.name = firstName (fragmentsOf all stored.index)
  id : ∃ generated, stored.id =
    latest generated ((fragmentsOf seen stored.index).map (·.id))
  arguments : stored.arguments =
    String.join ((fragmentsOf seen stored.index).map (·.function.arguments))
  known : stored.announced = true → decided setting stored = stored

/-- The converter has these pieces. -/
structure Gathered (setting : ChatSetting) (all : List ChatToolCall)
    (s : ChatCompletionsToResponsesStreamState) (pieces : ChatPieces) : Prop where
  reasoning : s.reasoning = pieces.reasoning
  text : s.text = pieces.content
  opened : s.messageItemID ≠ "" ↔ pieces.content ≠ ""
  closed : s.closedMessages = []
  finish : s.finishReason = pieces.finish
  healthy : s.degeneration = false
  indices : s.toolCalls.map (·.index) = started (pieces.calls.map callIndex)
  calls : ∀ stored ∈ s.toolCalls, Assembled setting all pieces.calls stored

variable {all : List ChatToolCall} {pieces : ChatPieces}

theorem Gathered.start (setting : ChatSetting) (model : String) (created : ℤ)
    (all : List ChatToolCall) : Gathered setting all (newState setting model created) {} := by
  refine ⟨rfl, rfl, ?_, rfl, rfl, rfl, rfl, ?_⟩
  · exact iff_of_false (fun contra => contra rfl) fun contra => contra rfl
  · intro stored member
    cases member

variable {stored : StreamTool}

theorem announcing_name {force : Bool} :
    (announcing setting force stored).name = stored.name := by
  unfold announcing
  split <;> rfl

theorem announcing_id {force : Bool} :
    (announcing setting force stored).id = stored.id := by
  unfold announcing
  split <;> rfl

theorem announcing_arguments {force : Bool} :
    (announcing setting force stored).arguments = stored.arguments := by
  unfold announcing
  split <;> rfl

variable {call : ChatToolCall}

/-- What is decided depends on the name only. -/
theorem decided_touch (known : stored.announced = true → decided setting stored = stored) :
    (touch setting call stored).announced = true →
      decided setting (touch setting call stored) = touch setting call stored := by
  unfold touch announcing
  split
  · intro announced
    exact congrArg (appendArguments call.function.arguments) (known announced)
  · intro _
    rfl

/-- Another fragment of a stored call. -/
theorem Assembled.extend (now : Assembled setting all parts stored)
    (index : callIndex call = stored.index)
    (name : call.function.name = "" ∨
      call.function.name = firstName (fragmentsOf all stored.index)) :
    Assembled setting all (parts ++ [call]) (touch setting call (mergeCall call stored)) := by
  obtain ⟨name', ⟨generated, id⟩, arguments, known⟩ := now
  have sameName : (mergeCall call stored).name = stored.name := by
    show (if call.function.name ≠ "" then call.function.name else stored.name) = stored.name
    rcases name with empty | same
    · rw [if_neg (not_not.mpr empty)]
    · rw [name', same, ite_self]
  have fragments : fragmentsOf (parts ++ [call]) stored.index =
      fragmentsOf parts stored.index ++ [call] := by
    rw [fragmentsOf_concat, if_pos index]
  have index' : (touch setting call (mergeCall call stored)).index = stored.index :=
    touch_index _
  constructor
  · rw [index', ← name', ← sameName]
    exact announcing_name
  · refine ⟨generated, ?_⟩
    rw [index', fragments, List.map_append, List.map_singleton, latest_concat, ← id]
    exact announcing_id
  · rw [index', fragments, List.map_append, String.join_append, ← arguments]
    show (announcing setting false (mergeCall call stored)).arguments ++ _ = _
    rw [announcing_arguments]
    simp [mergeCall]
  · refine decided_touch fun announced => ?_
    have merged : mergeCall call stored =
        { stored with id := if call.id ≠ "" then call.id else stored.id } :=
      congrArg (fun name => { stored with
        id := if call.id ≠ "" then call.id else stored.id, name := name }) sameName
    rw [merged]
    exact congrArg (fun stored' : StreamTool => { stored' with
      id := if call.id ≠ "" then call.id else stored.id }) (known announced)

/-- A fragment of another call changes nothing. -/
theorem Assembled.other (now : Assembled setting all parts stored)
    (index : callIndex call ≠ stored.index) :
    Assembled setting all (parts ++ [call]) stored := by
  have fragments : fragmentsOf (parts ++ [call]) stored.index = fragmentsOf parts stored.index := by
    rw [fragmentsOf_concat, if_neg index]
  obtain ⟨name, id, arguments, known⟩ := now
  refine ⟨name, ?_, ?_, known⟩
  · rw [fragments]
    exact id
  · rw [fragments]
    exact arguments

/-- The first fragment of a call. -/
theorem Assembled.first (absent : callIndex call ∉ parts.map callIndex)
    (name : call.function.name = firstName (fragmentsOf all (callIndex call))) :
    Assembled setting all (parts ++ [call])
      (touch setting call (newCall setting s (callIndex call) call)) := by
  have index : (touch setting call (newCall setting s (callIndex call) call)).index =
      callIndex call := touch_index _
  have fragments : fragmentsOf (parts ++ [call]) (callIndex call) = [call] := by
    rw [fragmentsOf_concat, if_pos rfl, fragmentsOf_nil absent, List.nil_append]
  constructor
  · rw [index, ← name]
    exact announcing_name
  · refine ⟨generatedItemID setting s.generated, ?_⟩
    rw [index, fragments]
    refine announcing_id.trans ?_
    show (if call.id = "" then _ else call.id) = if call.id ≠ "" then call.id else _
    rw [ite_not]
  · rw [index, fragments]
    show (announcing setting false (newCall setting s (callIndex call) call)).arguments ++ _ = _
    rw [announcing_arguments]
    simp [newCall]
  · refine decided_touch fun contra => ?_
    cases contra

/-! ### Each fragment -/

/-- The names of all fragments are whole or empty. -/
def WholeNames (all : List ChatToolCall) : Prop :=
  ∀ part ∈ all, part.function.name = "" ∨
    part.function.name = firstName (fragmentsOf all (callIndex part))

theorem Gathered.handleReasoning {text : String} (now : Gathered setting all s pieces) :
    Gathered setting all (handleReasoning setting text s).1 (pieces.add (.reasoning text)) := by
  obtain ⟨reasoning, text', opened, closed, finish, healthy, indices, calls⟩ := now
  by_cases fresh : text = ""
  · have silent : (ChatToResponses.handleReasoning setting text s).1 = s := by
      unfold ChatToResponses.handleReasoning
      rw [if_pos fresh]
    rw [silent]
    refine ⟨?_, text', opened, closed, finish, healthy, indices, calls⟩
    show s.reasoning = pieces.reasoning ++ text
    rw [fresh, String.append_empty, reasoning]
  · obtain ⟨n, state⟩ := @handleReasoning_state setting s text fresh
    have said : s.reasoning ++ text = (pieces.add (.reasoning text)).reasoning := by
      rw [reasoning]
      rfl
    rw [state]
    split
    · exact ⟨said, text', opened, closed, finish, healthy, indices, calls⟩
    · exact ⟨said, text', opened, closed, finish, healthy, indices, calls⟩

theorem Gathered.closeReasoningItem (now : Gathered setting all s pieces) :
    Gathered setting all (closeReasoningItem s).1 pieces := by
  obtain ⟨reasoning, text', opened, closed, finish, healthy, indices, calls⟩ := now
  obtain ⟨n, state⟩ := closeReasoningItem_state s
  rw [state]
  exact ⟨reasoning, text', opened, closed, finish, healthy, indices, calls⟩

theorem Gathered.handleContent {text : String} (now : Gathered setting all s pieces) :
    Gathered setting all (handleContent setting text s).1 (pieces.add (.content text)) := by
  unfold ChatToResponses.handleContent
  by_cases fresh : text = ""
  · rw [if_pos fresh]
    obtain ⟨reasoning, text', opened, closed, finish, healthy, indices, calls⟩ := now
    have same : (pieces.add (.content text)).content = pieces.content := by
      show pieces.content ++ text = pieces.content
      rw [fresh, String.append_empty]
    refine ⟨reasoning, ?_, ?_, closed, finish, healthy, indices, calls⟩
    · rw [same, text']
    · rw [same]
      exact opened
  · rw [if_neg fresh]
    have written : pieces.content ++ text ≠ "" := by
      intro empty
      exact fresh (String.append_eq_empty_iff.mp empty).2
    obtain ⟨reasoning, text', opened, closed, finish, healthy, indices, calls⟩ :=
      now.closeReasoningItem
    obtain ⟨n, state⟩ := writeText_state setting (ChatToResponses.closeReasoningItem s).1 text
    dsimp only [andThen]
    have said : (ChatToResponses.closeReasoningItem s).1.text ++ text =
        (pieces.add (.content text)).content := by
      rw [text']
      rfl
    rw [state]
    split
    · rename_i isOpen
      exact ⟨reasoning, said, iff_of_true isOpen written, closed, finish, healthy, indices, calls⟩
    · exact ⟨reasoning, said, iff_of_true generatedItemID_ne written, closed, finish, healthy,
        indices, calls⟩

theorem Gathered.handleToolCall (now : Gathered setting all s pieces) (tidy : Tidy s)
    (names : WholeNames all) (next : ∃ later, all = pieces.calls ++ call :: later) :
    Gathered setting all (handleToolCall setting s call).1 (pieces.add (.toolCall call)) := by
  obtain ⟨reasoning, text', opened, closed, finish, healthy, indices, calls⟩ := now
  obtain ⟨later, next⟩ := next
  have member : call ∈ all := by
    rw [next]
    exact List.mem_append_right _ List.mem_cons_self
  have indices' : (pieces.add (.toolCall call)).calls.map callIndex =
      pieces.calls.map callIndex ++ [callIndex call] := List.map_append
  have stored_iff : callIndex call ∈ s.toolCalls.map (·.index) ↔
      callIndex call ∈ pieces.calls.map callIndex := by
    rw [indices, mem_started]
  cases found : tool s (callIndex call) with
  | some stored =>
    obtain ⟨n, state⟩ := @handleToolCall_known setting s call stored tidy.keys found
    have old : callIndex call ∈ pieces.calls.map callIndex := by
      obtain ⟨same, _⟩ := tool_split found
      refine stored_iff.mp ?_
      rw [← same]
      exact List.mem_map_of_mem (List.mem_of_find?_eq_some found)
    rw [state]
    refine ⟨reasoning, text', opened, closed, finish, healthy, ?_, ?_⟩
    · rw [indices', started_concat, if_pos old, ← indices]
      simp only [ChatToResponses.setTool, List.map_map]
      refine List.map_congr_left fun other _ => ?_
      show (if _ then _ else _ : StreamTool).index = _
      split
      · exact touch_index _
      · rfl
    · intro other inCalls
      obtain ⟨before, inCalls', rfl⟩ := List.mem_map.mp inCalls
      split
      · rename_i same
        refine (calls before inCalls').extend same.symm ?_
        rw [same]
        exact names call member
      · rename_i apart
        exact (calls before inCalls').other fun same => apart same.symm
  | none =>
    obtain ⟨n, state⟩ := @handleToolCall_new setting s call tidy.keys found
    have new : callIndex call ∉ pieces.calls.map callIndex :=
      mt stored_iff.mpr (absent_index found)
    have name : call.function.name = firstName (fragmentsOf all (callIndex call)) := by
      have split : fragmentsOf all (callIndex call) =
          call :: fragmentsOf later (callIndex call) := by
        have before : pieces.calls.filter (fun part => callIndex part == callIndex call) = [] :=
          fragmentsOf_nil new
        rw [next]
        unfold fragmentsOf
        rw [List.filter_append, before, List.nil_append]
        exact List.filter_cons_of_pos (beq_self_eq_true (callIndex call))
      rw [split]
      rfl
    rw [state]
    refine ⟨reasoning, text', opened, closed, finish, healthy, ?_, ?_⟩
    · rw [indices', started_concat, if_neg new, ← indices]
      dsimp only
      rw [List.map_append, List.map_singleton, touch_index]
      rfl
    · intro other inCalls
      rcases List.mem_append.mp inCalls with old | isNew
      · refine (calls other old).other ?_
        intro same
        exact absent_index found (List.mem_map.mpr ⟨other, old, same.symm⟩)
      · rw [List.mem_singleton.mp isNew]
        exact .first new name

/-- The input is a fragment of a chunk. -/
def FromChunk : ChatInput → Prop
  | .closeMessage | .degenerated => False
  | _ => True

theorem Gathered.handleInput {input : ChatInput} (now : Gathered setting all s pieces)
    (tidy : Tidy s) (names : WholeNames all) (fromChunk : FromChunk input)
    (next : ∃ later, all = (pieces.add input).calls ++ later) :
    Gathered setting all (handleInput setting s input).1 (pieces.add input) := by
  cases input with
  | head chunk =>
    obtain ⟨reasoning, text', opened, closed, finish, healthy, indices, calls⟩ := now
    obtain ⟨n, state⟩ := ensureCreated_state { s with
      responseID := if chunk.id ≠ "" ∧ s.createdSent = false then chunk.id else s.responseID
      model := if s.model = "" ∧ chunk.model ≠ "" then chunk.model else s.model
      serviceTier := if chunk.serviceTier ≠ "" then chunk.serviceTier else s.serviceTier
      usage :=
        if chunk.usage.isSome then chunk.usage.map chatUsageToResponsesUsage else s.usage }
    show Gathered setting all (ensureCreated _).1 pieces
    rw [state]
    exact ⟨reasoning, text', opened, closed, finish, healthy, indices, calls⟩
  | reasoning text => exact now.handleReasoning
  | content text => exact now.handleContent
  | toolCall call =>
    refine now.handleToolCall tidy names ?_
    obtain ⟨later, next⟩ := next
    exact ⟨later, next.trans (List.append_assoc _ _ _)⟩
  | finishReason reason =>
    obtain ⟨reasoning, text', opened, closed, finish, healthy, indices, calls⟩ := now
    by_cases given : reason = ""
    · have same : pieces.add (.finishReason reason) = pieces := by
        show { pieces with finish := if reason ≠ "" then reason else pieces.finish } = pieces
        rw [if_neg (not_not.mpr given)]
      have silent : (ChatToResponses.handleInput setting s (.finishReason reason)).1 = s :=
        if_neg (not_not.mpr given)
      rw [same, silent]
      exact ⟨reasoning, text', opened, closed, finish, healthy, indices, calls⟩
    · have state : (ChatToResponses.handleInput setting s (.finishReason reason)).1 =
          { s with finishReason := reason } := if_pos given
      rw [state]
      exact ⟨reasoning, text', opened, closed, (if_pos given).symm, healthy, indices, calls⟩
  | closeMessage => cases fromChunk
  | degenerated => cases fromChunk

/-- Fragments only add calls. -/
theorem ChatPieces.calls_grow (inputs : List ChatInput) (pieces : ChatPieces) :
    ∃ later, (inputs.foldl ChatPieces.add pieces).calls = pieces.calls ++ later := by
  induction inputs generalizing pieces with
  | nil => exact ⟨[], (List.append_nil _).symm⟩
  | cons input rest ih =>
    obtain ⟨later, grows⟩ := ih (pieces.add input)
    cases input with
    | toolCall call => exact ⟨call :: later, grows.trans (List.append_assoc _ _ _)⟩
    | head _ | reasoning _ | content _ | finishReason _ | closeMessage | degenerated =>
      exact ⟨later, grows⟩

/-- Over a run the converter gathers the pieces. -/
theorem Gathered.run {inputs : List ChatInput} (now : Gathered setting all s pieces)
    (tidy : Tidy s) (names : WholeNames all) (fromChunk : ∀ input ∈ inputs, FromChunk input)
    (next : ∃ later, all = (inputs.foldl ChatPieces.add pieces).calls ++ later) :
    Gathered setting all (run (ChatToResponses.handleInput setting) s inputs).1
      (inputs.foldl ChatPieces.add pieces) := by
  induction inputs generalizing s pieces with
  | nil => exact now
  | cons input rest ih =>
    obtain ⟨later, next⟩ := next
    obtain ⟨more, grows⟩ := ChatPieces.calls_grow rest (pieces.add input)
    have next' : ∃ later, all = (pieces.add input).calls ++ later := by
      refine ⟨more ++ later, ?_⟩
      rw [next, List.foldl_cons, grows, List.append_assoc]
    have stepped := now.handleInput tidy names (fromChunk input List.mem_cons_self) next'
    exact ih stepped (tidy.handleInput input)
      (fun input member => fromChunk input (List.mem_cons_of_mem _ member)) ⟨later, next⟩

end Sub2api.ApiCompat
