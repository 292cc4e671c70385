import Sub2api.ApiCompat.ChatChunking
import Sub2api.ApiCompat.ChatOutput
import Sub2api.Lists.Fallible

/-!
# The streamed and the finished chat response agree

Both converters make items of a message's reasoning, text and calls. `chat_stream_agrees_iff` says
for which chunkings the terminal event of the stream has the items and the status that the finished
response gets, but for the ids that are generated: a message's empty `reasoning_content` gives way to
its `reasoning`, a delta's does not.
-/

namespace Sub2api.ApiCompat

open Go Transducer ChatToResponses ChatResponse

variable {setting : ChatSetting} {s : ChatCompletionsToResponsesStreamState}

/-- An item but for its id. -/
def withoutID (item : ResponsesOutput) : ResponsesOutput := { item with id := "" }

/-- The response of the last event. -/
def terminalResponse (events : List ResponsesStreamEvent) : Option ResponsesResponse :=
  events.getLast?.bind (·.response)

/-! ### Calls -/

/-- The arguments of the call are JSON. -/
def ValidArguments (call : ChatToolCall) : Prop := Json.valid call.function.arguments = true

/-- Blank arguments are finished as JSON too. -/
theorem valid_finishedArguments {arguments : String} (valid : Json.valid arguments = true) :
    Json.valid (finishedArguments arguments) = true := by
  unfold finishedArguments
  split
  · decide +kernel
  · exact valid

/-- A streamed call is restored as a finished one is. -/
theorem callOutput_toolItem {stored : StreamTool} {call : ChatToolCall} {id : String}
    (known : decided setting stored = stored) (sameID : stored.id = call.id)
    (name : stored.name = call.function.name)
    (arguments : stored.arguments = call.function.arguments) (valid : ValidArguments call) :
    (callOutput setting call).map withoutID = some (withoutID (toolItem setting stored id)) := by
  have valid' := valid_finishedArguments valid
  have isCustom : stored.isCustom = (customToolCallName setting call.function.name).isSome := by
    rw [← name, ← known]
    rfl
  have isToolSearch : stored.isToolSearch = (!stored.isCustom && setting.tools.toolSearchDeclared &&
      call.function.name == toolSearchProxyName) := by
    rw [isCustom, ← name, ← known]
    rfl
  have nameSpace : stored.nameSpace = if stored.isCustom ∨ stored.isToolSearch then none
      else setting.tools.namespaceTools.lookup call.function.name := by
    rw [← name]
    conv_lhs => rw [← known]
    conv_rhs => rw [← known]
    rfl
  unfold callOutput toolItem
  dsimp only
  rw [arguments, sameID, name]
  cases custom : customToolCallName setting call.function.name with
  | some customName =>
    rw [custom, Option.isSome_some] at isCustom
    rw [if_pos isCustom]
    unfold customNameForStreamTool
    rw [custom]
    rfl
  | none =>
    rw [custom, Option.isSome_none] at isCustom
    have notCustom : ¬stored.isCustom = true := by simp [isCustom]
    rw [isCustom] at isToolSearch
    dsimp only
    rw [if_neg notCustom]
    by_cases search : setting.tools.toolSearchDeclared = true ∧
        call.function.name = toolSearchProxyName
    · have isSearch : stored.isToolSearch = true := by
        rw [isToolSearch, search.1, search.2]
        rfl
      rw [if_pos search, if_pos isSearch]
      rfl
    · have notSearch : stored.isToolSearch = false := by
        rw [isToolSearch]
        simpa using search
      rw [isCustom, notSearch, if_neg (by simp)] at nameSpace
      have notSearch' : ¬stored.isToolSearch = true := by simp [notSearch]
      have parses : ¬Json.valid (finishedArguments call.function.arguments) = false := by
        simp [valid']
      rw [if_neg search, if_neg notSearch', if_neg parses, nameSpace]
      cases setting.tools.namespaceTools.lookup call.function.name with
      | some ns => rfl
      | none => rfl

variable {all : List ChatToolCall} {pieces : ChatPieces} {calls : List ChatToolCall}

/-- In a chunking every fragment of a call has its whole name or none. -/
theorem wholeNames (chunking : List.Forall₂ FragmentsOf calls
    ((started (all.map callIndex)).map (fragmentsOf all))) : WholeNames all := by
  intro part member
  have begun : callIndex part ∈ started (all.map callIndex) :=
    mem_started.mpr (List.mem_map_of_mem member)
  obtain ⟨call, _, fragments⟩ := Lists.right_of_forall₂ chunking (List.mem_map_of_mem begun)
  have mine : part ∈ fragmentsOf all (callIndex part) :=
    List.mem_filter.mpr ⟨member, beq_self_eq_true _⟩
  have first : firstName (fragmentsOf all (callIndex part)) = call.function.name := by
    unfold firstName
    rw [fragments.name]
    rfl
  rw [first]
  exact fragments.names part mine

/-- A call is stored as the message has it. -/
theorem Assembled.complete {stored : StreamTool} {call : ChatToolCall}
    (now : Assembled setting all all stored)
    (fragments : FragmentsOf call (fragmentsOf all stored.index)) (some' : call.id ≠ "") :
    stored.id = call.id ∧ stored.name = call.function.name ∧
      stored.arguments = call.function.arguments := by
  obtain ⟨name, ⟨generated, id⟩, arguments, _⟩ := now
  refine ⟨?_, ?_, ?_⟩
  · rw [id]
    refine latest_eq fragments.id ?_ some'
    intro next member
    obtain ⟨part, inParts, rfl⟩ := List.mem_map.mp member
    exact fragments.ids part inParts
  · rw [name]
    unfold firstName
    rw [fragments.name]
    rfl
  · rw [arguments, fragments.arguments]

/-- A call that is announced or decided at the end is decided by its name. -/
theorem decided_announcing {stored : StreamTool}
    (known : stored.announced = true → decided setting stored = stored) :
    decided setting (announcing setting true stored) = announcing setting true stored := by
  by_cases announced : stored.announced = true
  · have same : announcing setting true stored = stored := if_pos (Or.inl announced)
    rw [same]
    exact known announced
  · have speaks : announces setting true stored := by
      rintro (contra | ⟨contra, _⟩)
      · exact announced contra
      · cases contra
    have becomes : announcing setting true stored = decided setting stored := if_neg speaks
    rw [becomes]
    rfl

/-- The calls of the stream are restored as those of the message are. -/
theorem callOutputs {stored : List StreamTool}
    (fragments : List.Forall₂ FragmentsOf calls (stored.map fun tool => fragmentsOf all tool.index))
    (assembled : ∀ tool ∈ stored, Assembled setting all all tool)
    (ids : ∀ call ∈ calls, call.id ≠ "") (valid : ∀ call ∈ calls, ValidArguments call) :
    (calls.filterMap (callOutput setting)).map withoutID =
      ((stored.map (finishedCall setting)).map Prod.snd).map withoutID := by
  induction stored generalizing calls with
  | nil =>
    cases fragments
    rfl
  | cons tool rest ih =>
    cases fragments with
    | @cons call _ calls _ mine others =>
      have made := assembled tool List.mem_cons_self
      obtain ⟨id, name, arguments⟩ := made.complete mine (ids call List.mem_cons_self)
      have output := @callOutput_toolItem setting (announcing setting true tool) call tool.itemID
        (decided_announcing made.known) (announcing_id.trans id) (announcing_name.trans name)
        (announcing_arguments.trans arguments) (valid call List.mem_cons_self)
      obtain ⟨item, found, same⟩ := Option.map_eq_some_iff.mp output
      rw [List.filterMap_cons_some found, List.map_cons, same,
        ih others (fun tool member => assembled tool (List.mem_cons_of_mem _ member))
          (fun call member => ids call (List.mem_cons_of_mem _ member))
          (fun call member => valid call (List.mem_cons_of_mem _ member))]
      rfl

/-! ### The message -/

/-- The text of the message item: reasoning stands in for an answer that has nothing else. -/
def spoken (reasoning content : String) (noCalls : Prop) [Decidable noCalls] : String :=
  if content = "" ∧ trimSpace reasoning ≠ "" ∧ noCalls then reasoning else content

/-- After the fallback. -/
theorem settled_gathered (now : Gathered setting all s pieces) :
    (settle setting s).1.reasoning = pieces.reasoning ∧
    (settle setting s).1.closedMessages = [] ∧
    (settle setting s).1.toolCalls = s.toolCalls ∧
    (settle setting s).1.finishReason = pieces.finish ∧
    (settle setting s).1.text = spoken pieces.reasoning pieces.content (s.toolCalls = []) ∧
    ((settle setting s).1.messageItemID ≠ "" ↔
      spoken pieces.reasoning pieces.content (s.toolCalls = []) ≠ "") := by
  have created : Gathered setting all (ensureCreated s).1 pieces := by
    obtain ⟨reasoning, text, opened, closed, finish, healthy, indices, calls⟩ := now
    obtain ⟨n, state⟩ := ensureCreated_state s
    rw [state]
    exact ⟨reasoning, text, opened, closed, finish, healthy, indices, calls⟩
  have calls : (closeReasoningItem (ensureCreated s).1).1.toolCalls = s.toolCalls := by
    obtain ⟨n, state⟩ := ensureCreated_state s
    obtain ⟨m, state'⟩ := closeReasoningItem_state (ensureCreated s).1
    rw [state', state]
  have settled : (settle setting s).1 =
      (if (closeReasoningItem (ensureCreated s).1).1.degeneration then
        ((closeReasoningItem (ensureCreated s).1).1, [])
      else synthesizeReasoningFallback setting (closeReasoningItem (ensureCreated s).1).1).1 := rfl
  obtain ⟨reasoning, text, opened, closed, finish, healthy, _, _⟩ := created.closeReasoningItem
  rw [settled, if_neg (by simp [healthy])]
  rw [← calls]
  generalize (closeReasoningItem (ensureCreated s).1).1 = after at *
  unfold synthesizeReasoningFallback spoken
  by_cases falls : pieces.content = "" ∧ trimSpace pieces.reasoning ≠ "" ∧ after.toolCalls = []
  · have message : ¬after.messageItemID ≠ "" := fun isOpen => opened.mp isOpen falls.1
    have said : pieces.reasoning ≠ "" := by
      intro unsaid
      rw [unsaid] at falls
      exact falls.2.1 rfl
    have eligible : ¬(after.messageItemID ≠ "" ∨ after.text ≠ "" ∨ after.reasoning = "" ∨
        after.toolCalls ≠ []) := by
      rintro (isOpen | written | unsaid | calls)
      · exact message isOpen
      · exact written (text.trans falls.1)
      · exact said (reasoning.symm.trans unsaid)
      · exact calls falls.2.2
    have notBlank : ¬trimSpace after.reasoning = "" := by
      rw [reasoning]
      exact falls.2.1
    rw [if_pos falls, if_neg eligible, if_neg notBlank]
    obtain ⟨n, state⟩ := writeText_state setting after after.reasoning
    rw [state, if_neg message]
    refine ⟨reasoning, closed, rfl, finish, ?_, iff_of_true generatedItemID_ne said⟩
    show after.text ++ after.reasoning = pieces.reasoning
    rw [text, falls.1, String.empty_append, reasoning]
  · rw [if_neg falls]
    have same : (if after.messageItemID ≠ "" ∨ after.text ≠ "" ∨ after.reasoning = "" ∨
        after.toolCalls ≠ [] then (after, [])
        else if trimSpace after.reasoning = "" then (after, [])
        else writeText setting after after.reasoning).1 = after := by
      split
      · rfl
      · rename_i eligible
        split
        · rfl
        · rename_i notBlank
          rw [reasoning] at notBlank
          have empty : pieces.content = "" := by
            rw [← text]
            by_contra written
            exact eligible (Or.inr (Or.inl written))
          have noCalls : after.toolCalls = [] := by
            by_contra calls
            exact eligible (Or.inr (Or.inr (Or.inr calls)))
          exact absurd ⟨empty, notBlank, noCalls⟩ falls
    rw [same]
    exact ⟨reasoning, closed, rfl, finish, text, opened⟩

variable {message : ChatMessage}

/-- The items of the stream are those of the message. -/
theorem listed_message (now : Gathered setting all s pieces)
    (reasoning : pieces.reasoning = message.reasoningText)
    (content : pieces.content = chatMessageContentText message.content)
    (noCalls : message.toolCalls = [] ↔ s.toolCalls = [])
    (calls : (message.toolCalls.filterMap (callOutput setting)).map withoutID =
      ((s.toolCalls.map (finishedCall setting)).map Prod.snd).map withoutID) :
    (listedItems setting (settle setting s).1).map withoutID =
      (chatMessageToResponsesOutput setting message).map withoutID := by
  obtain ⟨reasoned, closed, same, _, text, opened⟩ := @settled_gathered setting s _ _ now
  have spoken' : spoken message.reasoningText (chatMessageContentText message.content)
      (message.toolCalls = []) = (settle setting s).1.text := by
    rw [text, reasoning, content]
    unfold spoken
    simp only [noCalls]
  have message' : (messageListed setting (settle setting s).1).map withoutID =
      (if (settle setting s).1.text ≠ "" ∨ message.toolCalls = [] then
        [messageOutput (settle setting s).1.text] else []).map withoutID := by
    have iff : (settle setting s).1.messageItemID ≠ "" ∨ (settle setting s).1.toolCalls = [] ↔
        (settle setting s).1.text ≠ "" ∨ message.toolCalls = [] := by
      rw [opened, same, noCalls, text]
    unfold messageListed
    by_cases said : (settle setting s).1.text ≠ "" ∨ message.toolCalls = []
    · rw [if_pos said, if_pos (iff.mpr said)]
      rfl
    · rw [if_neg said, if_neg (mt iff.mp said)]
  have reasoning' : (reasoningListed (settle setting s).1).map withoutID =
      (if message.reasoningText ≠ "" then [reasoningOutput message.reasoningText]
        else []).map withoutID := by
    unfold reasoningListed
    rw [reasoned, reasoning]
    split <;> rfl
  have whole : chatMessageToResponsesOutput setting message =
      (if message.reasoningText ≠ "" then [reasoningOutput message.reasoningText] else []) ++
        (if spoken message.reasoningText (chatMessageContentText message.content)
            (message.toolCalls = []) ≠ "" ∨ message.toolCalls = [] then
          [messageOutput (spoken message.reasoningText
            (chatMessageContentText message.content) (message.toolCalls = []))] else []) ++
        message.toolCalls.filterMap (callOutput setting) := rfl
  rw [whole, spoken']
  unfold listedItems
  rw [closed, same, List.append_nil]
  simp only [List.map_append, reasoning', message', calls]

/-- A message whose calls are all restored has an item. -/
theorem chatMessageToResponsesOutput_ne
    (restored : message.toolCalls.filterMap (callOutput setting) = [] → message.toolCalls = []) :
    chatMessageToResponsesOutput setting message ≠ [] := by
  intro empty
  unfold chatMessageToResponsesOutput at empty
  dsimp only at empty
  obtain ⟨before, calls⟩ := List.append_eq_nil_iff.mp empty
  obtain ⟨_, text⟩ := List.append_eq_nil_iff.mp before
  rw [if_pos (Or.inr (restored calls))] at text
  cases text

theorem withItemIDs_withoutID {first : ℕ} {items : List ResponsesOutput} :
    (withItemIDs setting first items).map withoutID = items.map withoutID := by
  unfold withItemIDs
  rw [List.map_map]
  have same : (withoutID ∘ fun placed : ResponsesOutput × ℕ =>
      { placed.1 with id := generatedItemID setting (first + placed.2) }) =
      withoutID ∘ Prod.fst := rfl
  exact (congrArg (fun f => items.zipIdx.map f) same).trans
    (by rw [← List.map_map, List.zipIdx_map_fst])

/-! ### Runs -/

theorem fragments_fromChunk {chunk : ChatCompletionsChunk} :
    ∀ input ∈ fragments chunk, FromChunk input := by
  intro input member
  unfold fragments at member
  simp only [List.mem_cons, List.mem_flatMap, List.mem_append, List.mem_map, List.not_mem_nil,
    or_false] at member
  rcases member with rfl | ⟨choice, _, ((rfl | rfl) | ⟨call, _, rfl⟩) | rfl⟩
  all_goals trivial

/-- Chunks are taken fragment by fragment. -/
theorem run_chunks (chunks : List ChatCompletionsChunk) :
    run (act setting) s (chunks.map .chunk) =
      run (handleInput setting) s (chunks.flatMap fragments) := by
  induction chunks generalizing s with
  | nil => rfl
  | cons chunk rest ih =>
    rw [List.map_cons, run_cons, List.flatMap_cons, run_append, ih]
    rfl

/-! ### The reasoning -/

/-- The message with this reasoning in place of its own. -/
def saying (message : ChatMessage) (reasoning : String) : ChatMessage :=
  { message with reasoningContent := reasoning, reasoning := "" }

theorem reasoningText_saying {reasoning : String} :
    (saying message reasoning).reasoningText = reasoning := by
  unfold ChatMessage.reasoningText saying
  split
  · rfl
  · rename_i unsaid
    exact (not_not.mp unsaid).symm

/-- Of the items only the reasoning has a summary. -/
theorem summaries_output :
    ((chatMessageToResponsesOutput setting message).map withoutID).flatMap (·.summary) =
      if message.reasoningText ≠ "" then
        [{ type := .summaryText, text := message.reasoningText }] else [] := by
  have calls : (message.toolCalls.filterMap (callOutput setting)).flatMap (·.summary) = [] := by
    rw [List.flatMap_eq_nil_iff]
    intro item member
    obtain ⟨call, _, made⟩ := List.mem_filterMap.mp member
    unfold callOutput at made
    dsimp only at made
    repeat' split at made
    all_goals cases made
    all_goals rfl
  have said (text : String) (p : Prop) [Decidable p] :
      (if p then [messageOutput text] else []).flatMap (·.summary) = [] := by
    split <;> rfl
  rw [List.flatMap_map]
  change (chatMessageToResponsesOutput setting message).flatMap (·.summary) = _
  unfold chatMessageToResponsesOutput
  dsimp only
  rw [List.flatMap_append, List.flatMap_append, calls, List.append_nil, said, List.append_nil]
  split <;> rfl

/-- Other reasoning makes other items. -/
theorem output_saying_iff {reasoning : String} :
    (chatMessageToResponsesOutput setting (saying message reasoning)).map withoutID =
        (chatMessageToResponsesOutput setting message).map withoutID ↔
      reasoning = message.reasoningText := by
  constructor
  · intro same
    have summaries := congrArg (List.flatMap (·.summary)) same
    rw [summaries_output, summaries_output, reasoningText_saying] at summaries
    split at summaries <;> split at summaries
    · simpa using summaries
    · cases summaries
    · cases summaries
    · rename_i unsaid unsaid'
      rw [not_not.mp unsaid, not_not.mp unsaid']
  · intro same
    unfold chatMessageToResponsesOutput
    rw [reasoningText_saying, same]
    rfl

/-- The items of a finished response whose calls are restored. -/
theorem finished_output (setting : ChatSetting) (now : ℤ) (resp : ChatCompletionsResponse)
    (model : String) {choice : ChatChoice} {others : List ChatChoice}
    (chosen : resp.choices = choice :: others)
    (restored : choice.message.toolCalls.filterMap (callOutput setting) = [] →
      choice.message.toolCalls = []) :
    (chatCompletionsResponseToResponses setting now resp model).output.map withoutID =
      (chatMessageToResponsesOutput setting choice.message).map withoutID := by
  unfold chatCompletionsResponseToResponses
  rw [chosen]
  dsimp only
  rw [if_neg (chatMessageToResponsesOutput_ne restored)]
  split
  · exact withItemIDs_withoutID
  · exact withItemIDs_withoutID

/-- Whatever the chunking: but for the generated ids, the terminal event of the stream has the status
of the finished response, and the output of the message with the stream's reasoning. -/
theorem stream_output (setting : ChatSetting) (streamModel model : String) (created now : ℤ)
    {resp : ChatCompletionsResponse} {choice : ChatChoice} {others : List ChatChoice}
    {chunks : List ChatCompletionsChunk} (chosen : resp.choices = choice :: others)
    (ids : ∀ call ∈ choice.message.toolCalls, call.id ≠ "")
    (valid : ∀ call ∈ choice.message.toolCalls, ValidArguments call)
    (chunking : ChunkingOf choice chunks) :
    ∃ final, terminalResponse (chatStream setting streamModel created (chunks.map .chunk)) =
        some final ∧
      final.status = (chatCompletionsResponseToResponses setting now resp model).status ∧
      final.output.map withoutID =
        (chatMessageToResponsesOutput setting
          (saying choice.message (piecesOf chunks).reasoning)).map withoutID ∧
      (chatCompletionsResponseToResponses setting now resp model).output.map withoutID =
        (chatMessageToResponsesOutput setting choice.message).map withoutID := by
  obtain ⟨_, _, content, finish, parts⟩ := chunking
  have start := Tidy.start setting streamModel created
  obtain ⟨tidy, unfinished⟩ :=
    stream_unfinished setting streamModel created (chunks.map .chunk)
  have gathered : Gathered setting (piecesOf chunks).calls
      (run (act setting) (newState setting streamModel created) (chunks.map .chunk)).1
      (piecesOf chunks) := by
    rw [run_chunks]
    refine (Gathered.start setting streamModel created _).run start (wholeNames parts) ?_
      ⟨[], (List.append_nil _).symm⟩
    intro input member
    obtain ⟨chunk, _, inChunk⟩ := List.mem_flatMap.mp member
    exact fragments_fromChunk input inChunk
  obtain ⟨recorded, _⟩ := @Records.run _ _ _ ChatAction (act setting) (ActsKeeping setting)
    (chunks.map .chunk) (fun _ action tidy => tidy.act action)
    (fun _ _ _ _ now tidy => now.act tidy) (Recorded.start setting streamModel created) start
  unfold chatStream
  dsimp only [andThen]
  rw [finalize_eq unfinished]
  generalize run (act setting) (newState setting streamModel created) (chunks.map .chunk) = out
    at tidy unfinished gathered recorded
  obtain ⟨tidy', shut, _⟩ := @settle_state setting out.1 tidy
  obtain ⟨recorded', _⟩ := @Recorded.settle setting _ _ _ recorded
  obtain ⟨events, e, final, last, carries, output, status⟩ :=
    @conclude_response setting _ _ _ recorded' tidy' shut
  have parts' : List.Forall₂ FragmentsOf choice.message.toolCalls
      (out.1.toolCalls.map fun tool => fragmentsOf (piecesOf chunks).calls tool.index) := by
    rw [← gathered.indices, List.map_map] at parts
    exact parts
  have calls := callOutputs parts' gathered.calls ids valid
  have noCalls : choice.message.toolCalls = [] ↔ out.1.toolCalls = [] := by
    have lengths := parts'.length_eq
    rw [List.length_map] at lengths
    rw [← List.length_eq_zero_iff, ← List.length_eq_zero_iff, lengths]
  have restored : choice.message.toolCalls.filterMap (callOutput setting) = [] →
      choice.message.toolCalls = [] := by
    intro nothing
    rw [nothing] at calls
    exact noCalls.mpr (by simpa using calls.symm)
  have items := @listed_message setting _ _ _ (saying choice.message (piecesOf chunks).reasoning)
    gathered reasoningText_saying.symm content noCalls calls
  refine ⟨final, ?_, ?_, output.symm ▸ items,
    finished_output setting now resp model chosen restored⟩
  · unfold terminalResponse
    dsimp only [andThen]
    rw [last, ← List.append_assoc, ← List.append_assoc, List.getLast?_concat, Option.bind_some,
      carries]
  · obtain ⟨_, _, _, reason, _, _⟩ := @settled_gathered setting out.1 _ _ gathered
    rw [status, reason, finish]
    unfold chatCompletionsResponseToResponses
    rw [chosen]
    dsimp only
    split <;> rfl

/-- For every message with named calls and JSON arguments, and every chunking of it: but for the
generated ids, the terminal event of the stream has the output and the status of the finished
response exactly when no delta's reasoning is lost or read beside the message's. -/
theorem chat_stream_agrees_iff (setting : ChatSetting) (streamModel model : String)
    (created now : ℤ) (resp : ChatCompletionsResponse) (choice : ChatChoice)
    (others : List ChatChoice) (chunks : List ChatCompletionsChunk)
    (chosen : resp.choices = choice :: others)
    (ids : ∀ call ∈ choice.message.toolCalls, call.id ≠ "")
    (valid : ∀ call ∈ choice.message.toolCalls, ValidArguments call)
    (chunking : ChunkingOf choice chunks) :
    (∃ final, terminalResponse (chatStream setting streamModel created (chunks.map .chunk)) =
        some final ∧
      final.status = (chatCompletionsResponseToResponses setting now resp model).status ∧
      final.output.map withoutID =
        (chatCompletionsResponseToResponses setting now resp model).output.map withoutID) ↔
      ReasoningRead choice.message chunks := by
  obtain ⟨final, last, status, output, finished⟩ :=
    stream_output setting streamModel model created now chosen ids valid chunking
  rw [← chunking.reasoning_iff, ← @output_saying_iff setting, ← finished, ← output]
  constructor
  · rintro ⟨final', last', -, same⟩
    rw [last] at last'
    cases last'
    exact same
  · intro same
    exact ⟨final, last, status, same⟩

namespace ChatSample

/-- An answer with reasoning, text, and calls of a custom tool and of a function. -/
def answer : ChatChoice :=
  { message :=
      { content := .text "ab", reasoningContent := "hm"
        toolCalls :=
          [{ id := "call_1", function := { name := "patch", arguments := "\x7b\x7d" } },
           { id := "call_2", function := { name := "ls", arguments := "[]" } }] }
    finishReason := "length" }

def delta (delta : ChatDelta) : ChatCompletionsChunk := { choices := [{ delta := delta }] }

def callPart (index : ℤ) (id name arguments : String) : ChatCompletionsChunk :=
  delta { toolCalls := [{ index := some index, id := id
                          function := { name := name, arguments := arguments } }] }

/-- Its text and its calls alternate. -/
def answerChunks : List ChatCompletionsChunk :=
  [delta { reasoningContent := some "hm" }, delta { content := some "a" },
   callPart 1 "call_1" "patch" "\x7b", delta { content := some "b" }, callPart 3 "call_2" "ls" "[",
   callPart 1 "" "" "\x7d", callPart 3 "" "" "]",
   { choices := [{ finishReason := some "length" }] }]

end ChatSample

theorem chat_stream_agrees_sample :
    ∃ final, terminalResponse (chatStream ChatSample.patching "m" 0
        (ChatSample.answerChunks.map .chunk)) = some final ∧
      final.status = (chatCompletionsResponseToResponses ChatSample.patching 0
        { choices := [ChatSample.answer] } "m").status ∧
      final.output.map withoutID = (chatCompletionsResponseToResponses ChatSample.patching 0
        { choices := [ChatSample.answer] } "m").output.map withoutID := by
  refine (chat_stream_agrees_iff ChatSample.patching "m" "m" 0 0 { choices := [ChatSample.answer] }
    ChatSample.answer [] ChatSample.answerChunks rfl (by decide) ?_ ⟨?_, ?_, ?_, ?_, ?_⟩).mpr
    (by decide +kernel)
  · unfold ValidArguments
    decide +kernel
  · decide +kernel
  · decide +kernel
  · decide +kernel
  · decide +kernel
  · have parts : (started ((piecesOf ChatSample.answerChunks).calls.map callIndex)).map
        (fragmentsOf (piecesOf ChatSample.answerChunks).calls) =
          [fragmentsOf (piecesOf ChatSample.answerChunks).calls 1,
           fragmentsOf (piecesOf ChatSample.answerChunks).calls 3] := by decide +kernel
    rw [parts]
    refine .cons ?_ (.cons ?_ .nil)
    · constructor <;> decide +kernel
    · constructor <;> decide +kernel

namespace ChatSample

/-- Its reasoning comes beside an empty `reasoning_content`. -/
def thought : ChatChoice := { message := { content := .text "a", reasoning := "hm" } }

def thoughtChunks : List ChatCompletionsChunk :=
  [delta { reasoningContent := some "", reasoning := some "hm" }, delta { content := some "a" }]

end ChatSample

/-- The stream loses reasoning that the finished response has. -/
theorem chat_stream_loses_reasoning :
    ChunkingOf ChatSample.thought ChatSample.thoughtChunks ∧
      (terminalResponse (chatStream ChatSample.patching "m" 0
        (ChatSample.thoughtChunks.map .chunk))).map (fun final => final.output.map withoutID) ≠
        some ((chatCompletionsResponseToResponses ChatSample.patching 0
          { choices := [ChatSample.thought] } "m").output.map withoutID) := by
  refine ⟨⟨?_, ?_, ?_, ?_, ?_⟩, ?_⟩
  · decide +kernel
  · decide +kernel
  · decide +kernel
  · decide +kernel
  · exact .nil
  · decide +kernel

end Sub2api.ApiCompat
