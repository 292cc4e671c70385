import Sub2api.ApiCompat.ChatItems
import Sub2api.ApiCompat.ChatRecord

/-!
# The output of a finished chat stream

The terminal event lists the items by kind: reasoning, messages, calls. That is what was streamed,
in the order of the indices, exactly when reasoning came first and calls last and the stream had
something in it.

* `chatOutput_eq` — what the terminal event lists;
* `chat_output_as_streamed` — when the list is what was streamed.
-/

namespace Sub2api.ApiCompat

open Go Transducer ChatToResponses

variable {setting : ChatSetting} {s : ChatCompletionsToResponsesStreamState}
  {added : List ItemKey} {done : List Placed}

/-! ### What is asked -/

/-- An item but for its status. -/
def withoutStatus (item : ResponsesOutput) : ResponsesOutput := { item with status := .unset }

/-- The output of the last event's response. -/
def terminalOutput (events : List ResponsesStreamEvent) : Option (List ResponsesOutput) :=
  events.getLast?.bind fun e => e.response.map (·.output)

/-- The terminal event lists each item that was announced and done once, by increasing index, with
its id, type and content. -/
def OutputAsStreamed (events : List ResponsesStreamEvent) : Prop :=
  ∃ listed : List Placed, listed.Perm (doneItems events) ∧
    (listed.map keyOf).Perm (addedItems events) ∧
    listed.Pairwise (fun a b => a.1 < b.1) ∧
    (terminalOutput events).map (·.map withoutStatus) =
      some (listed.map fun placed => withoutStatus placed.2)

/-! ### The end of a stream -/

/-- A call as it is when the stream ends. -/
def finishedCall (setting : ChatSetting) (stored : StreamTool) : Placed :=
  (stored.outputIndex, toolItem setting (announcing setting true stored) stored.itemID)

/-- The key of a call that is announced only at the end. -/
def lateKey (setting : ChatSetting) (stored : StreamTool) : List ItemKey :=
  if announces setting true stored then [callKey (announcing setting true stored)] else []

/-- The open message, which is done at the end. -/
def openMessageItem (s : ChatCompletionsToResponsesStreamState) : List Placed :=
  if s.messageItemID ≠ "" then [(s.messageIndex, messageItem s)] else []

theorem endOpenMessage_state (s : ChatCompletionsToResponsesStreamState) :
    ∃ n, (if s.messageItemID ≠ "" then endMessage s else (s, [])).1 =
      { s with sequenceNumber := n } := by
  split
  · exact endMessage_state s
  · exact ⟨s.sequenceNumber, rfl⟩

theorem endOpenMessage_added :
    addedItems (if s.messageItemID ≠ "" then endMessage s else (s, [])).2 = [] := by
  split
  · exact endMessage_added
  · rfl

theorem endOpenMessage_done :
    doneItems (if s.messageItemID ≠ "" then endMessage s else (s, [])).2 = openMessageItem s := by
  unfold openMessageItem
  split
  · exact endMessage_done
  · rfl

variable {stored : StreamTool}

/-- The call that is found after it was announced. -/
theorem tool_announced (tidy : Tidy s) (found : tool s stored.index = some stored) :
    tool (announceChatToolItem setting true s stored.index).1 stored.index =
      some (announcing setting true stored) := by
  obtain ⟨n, state⟩ := @announceChatToolItem_state setting s true stored.index tidy.keys
  have changed := @tool_setTool s stored.index (announcing setting true) announcing_index
  rw [found] at changed
  rw [state]
  exact changed

theorem closeTool_added (tidy : Tidy s) (found : tool s stored.index = some stored) :
    addedItems (closeTool setting s stored.index).2 = lateKey setting stored := by
  unfold closeTool
  dsimp only [andThen]
  rw [addedItems_append, announceChatToolItem_added found, tool_announced tidy found]
  dsimp only
  rw [endTool_added, List.append_nil]
  rfl

theorem closeTool_done (tidy : Tidy s) (found : tool s stored.index = some stored) :
    doneItems (closeTool setting s stored.index).2 = [finishedCall setting stored] := by
  unfold closeTool
  dsimp only [andThen]
  rw [doneItems_append, announceChatToolItem_done, tool_announced tidy found]
  dsimp only
  rw [endTool_done, announcing_outputIndex, announcing_itemID]
  rfl

/-- The calls are announced and finished one after the other. -/
theorem closeTools_run {closed rest : List StreamTool} (tidy : Tidy s)
    (split : s.toolCalls = closed ++ rest) :
    (∃ n, (run (closeTool setting) s (rest.map (·.index))).1 =
        { s with toolCalls := closed ++ rest.map (announcing setting true), sequenceNumber := n }) ∧
      addedItems (run (closeTool setting) s (rest.map (·.index))).2 =
        rest.flatMap (lateKey setting) ∧
      doneItems (run (closeTool setting) s (rest.map (·.index))).2 =
        rest.map (finishedCall setting) := by
  induction rest generalizing s closed with
  | nil =>
    refine ⟨⟨s.sequenceNumber, ?_⟩, rfl, rfl⟩
    show s = _
    rw [List.map_nil, ← split]
  | cons stored rest ih =>
    have found : tool s stored.index = some stored :=
      tool_of_mem tidy.keys (by rw [split]; simp)
    obtain ⟨m, state⟩ := @closeTool_state setting s stored.index tidy.keys
    have calls := setTool_toolCalls tidy.keys split (announcing setting true)
    have split' : (closeTool setting s stored.index).1.toolCalls =
        (closed ++ [announcing setting true stored]) ++ rest := by
      rw [state, List.append_assoc]
      exact calls
    obtain ⟨⟨n, state'⟩, announced, finished⟩ := ih tidy.closeTool split'
    rw [List.map_cons, run_cons]
    refine ⟨⟨n, ?_⟩, ?_, ?_⟩
    · dsimp only
      rw [state', state]
      simp [ChatToResponses.setTool]
    · rw [addedItems_append, closeTool_added tidy found, announced, List.flatMap_cons]
    · rw [doneItems_append, closeTool_done tidy found, finished]
      rfl

/-! ### What the terminal event lists -/

/-- The reasoning, with all of its text. -/
def reasoningListed (s : ChatCompletionsToResponsesStreamState) : List ResponsesOutput :=
  if s.reasoning ≠ "" then
    [{ type := .reasoning, id := s.reasoningItemID
       summary := [{ type := .summaryText, text := s.reasoning }] }]
  else []

/-- The open message, or an empty one that no event has announced. -/
def messageListed (setting : ChatSetting) (s : ChatCompletionsToResponsesStreamState) :
    List ResponsesOutput :=
  if s.messageItemID ≠ "" ∨ s.toolCalls = [] then
    [{ messageItem s with
       id := nonEmpty s.messageItemID
         (generatedItemID setting (s.generated + (reasoningListed s).length)) }]
  else []

theorem nonEmpty_of_ne {value fallback : String} (some' : value ≠ "") :
    nonEmpty value fallback = value := if_pos some'

theorem filterMap_tools {calls : List StreamTool} {first : ℕ} {id : ℕ → String}
    (found : ∀ stored ∈ calls, tool s stored.index = some stored)
    (itemIDs : ∀ stored ∈ calls, stored.itemID ≠ "") :
    ((calls.map (·.index)).zipIdx first).filterMap (fun (index, n) =>
        (tool s index).map fun stored => toolItem setting stored (nonEmpty stored.itemID (id n))) =
      calls.map fun stored => toolItem setting stored stored.itemID := by
  induction calls generalizing first with
  | nil => rfl
  | cons stored rest ih =>
    rw [List.map_cons, List.zipIdx_cons, List.filterMap_cons]
    dsimp only
    rw [found stored List.mem_cons_self, Option.map_some]
    dsimp only
    rw [nonEmpty_of_ne (itemIDs stored List.mem_cons_self), List.map_cons,
      ih (fun other member => found other (List.mem_cons_of_mem _ member))
        (fun other member => itemIDs other (List.mem_cons_of_mem _ member))]

/-- No id is generated for an item that was streamed. -/
theorem chatOutput_eq (tidy : Tidy s) (reasoned : s.reasoning ≠ "" → s.reasoningItemID ≠ "")
    (itemIDs : ∀ stored ∈ s.toolCalls, stored.itemID ≠ "") :
    chatOutput setting s =
      reasoningListed s ++ s.closedMessages ++ messageListed setting s ++
        s.toolCalls.map fun stored => toolItem setting stored stored.itemID := by
  have tools := @filterMap_tools setting s s.toolCalls 0
    (fun n => generatedItemID setting (s.generated + (reasoningListed s).length +
      (messageListed setting s).length + n))
    (fun stored member => tool_of_mem tidy.keys member) itemIDs
  rw [← ordered_indices tidy] at tools
  rw [← tools]
  have reasoning : (if s.reasoning ≠ "" then
      [({ type := .reasoning
          id := nonEmpty s.reasoningItemID (generatedItemID setting s.generated)
          summary := [{ type := .summaryText, text := s.reasoning }] } : ResponsesOutput)]
      else []) = reasoningListed s := by
    unfold reasoningListed
    by_cases said : s.reasoning = ""
    · rw [if_neg (not_not.mpr said), if_neg (not_not.mpr said)]
    · rw [if_pos said, if_pos said, nonEmpty_of_ne (reasoned said)]
  unfold chatOutput
  dsimp only
  rw [reasoning]
  rfl

/-- Everything that is done when the stream ends. -/
def finishedItems (setting : ChatSetting) (s : ChatCompletionsToResponsesStreamState)
    (done : List Placed) : List Placed :=
  done ++ openMessageItem s ++ s.toolCalls.map (finishedCall setting)

/-- Everything that the terminal event lists. -/
def listedItems (setting : ChatSetting) (s : ChatCompletionsToResponsesStreamState) :
    List ResponsesOutput :=
  reasoningListed s ++ s.closedMessages ++ messageListed setting s ++
    (s.toolCalls.map (finishedCall setting)).map Prod.snd

theorem toolItem_type {id : String} (one : OneType stored) :
    (toolItem setting stored id).type = itemType stored := by
  unfold toolItem itemType
  by_cases custom : stored.isCustom = true
  · simp [custom, one custom]
  · by_cases search : stored.isToolSearch = true
    · simp [custom, search]
    · simp [custom, search]

theorem toolItem_id {id : String} : (toolItem setting stored id).id = id := by
  unfold toolItem
  dsimp only
  split
  · rfl
  · split <;> rfl

theorem itemType_rank : (itemType stored).rank = 2 := by
  unfold itemType
  split
  · rfl
  · split <;> rfl

theorem finishedCall_type (one : OneType stored) :
    (finishedCall setting stored).2.type = itemType (announcing setting true stored) :=
  toolItem_type (oneType_announcing one)

theorem keyOf_finishedCall (one : OneType stored) :
    keyOf (finishedCall setting stored) = callKey (announcing setting true stored) := by
  unfold keyOf callKey
  rw [finishedCall_type one, announcing_outputIndex, announcing_itemID]
  unfold finishedCall
  rw [toolItem_id]

/-- A call is announced before the end or at it. -/
theorem announcedKey_lateKey (one : OneType stored) :
    announcedKey stored ++ lateKey setting stored = [keyOf (finishedCall setting stored)] := by
  rw [keyOf_finishedCall one]
  by_cases announced : stored.announced = true
  · have silent : ¬announces setting true stored := fun speaks => speaks (Or.inl announced)
    have same : announcing setting true stored = stored := if_pos (Or.inl announced)
    unfold announcedKey lateKey
    rw [if_pos announced, if_neg silent, same]
    rfl
  · have speaks : announces setting true stored := by
      rintro (contra | ⟨contra, _⟩)
      · exact announced contra
      · cases contra
    unfold announcedKey lateKey
    rw [if_neg announced, if_pos speaks]
    rfl

/-- What is announced is what is done. -/
theorem Recorded.added_finished (now : Recorded s added done) (tidy : Tidy s)
    (shut : s.reasoningOpen = false) :
    (added ++ s.toolCalls.flatMap (lateKey setting)).Perm
      ((finishedItems setting s done).map keyOf) := by
  have reasoning : reasoningKey s = [] := by simp [reasoningKey, shut]
  have message : messageKey s = (openMessageItem s).map keyOf := by
    unfold messageKey openMessageItem
    split <;> rfl
  have calls : (callKeys s ++ s.toolCalls.flatMap (lateKey setting)).Perm
      ((s.toolCalls.map (finishedCall setting)).map keyOf) := by
    refine (List.flatMap_append_perm s.toolCalls announcedKey (lateKey setting)).trans ?_
    have each : (s.toolCalls.flatMap fun stored => announcedKey stored ++ lateKey setting stored) =
        s.toolCalls.flatMap fun stored => [keyOf (finishedCall setting stored)] :=
      List.flatMap_congr fun stored member => announcedKey_lateKey (tidy.types stored member)
    rw [each, List.map_map, List.map_eq_flatMap]
    exact .refl _
  have keys := now.added
  rw [reasoning, message, List.append_nil] at keys
  refine (keys.append_right _).trans ?_
  unfold finishedItems
  rw [List.map_append, List.map_append, List.append_assoc]
  exact List.Perm.append_left _ calls

theorem placeOf_finishedCall (one : OneType stored) :
    placeOf (finishedCall setting stored) = (stored.outputIndex, 2) := by
  unfold placeOf
  rw [finishedCall_type one, itemType_rank]
  rfl

theorem placesOf_finished (tidy : Tidy s) (shut : s.reasoningOpen = false) :
    placesOf s done = (finishedItems setting s done).map placeOf := by
  have reasoning : reasoningPlace s = [] := by simp [reasoningPlace, shut]
  have message : messagePlace s = (openMessageItem s).map placeOf := by
    unfold messagePlace openMessageItem
    split <;> rfl
  have calls : callPlaces s = (s.toolCalls.map (finishedCall setting)).map placeOf := by
    rw [List.map_map]
    exact List.map_congr_left fun stored member =>
      (placeOf_finishedCall (tidy.types stored member)).symm
  unfold placesOf finishedItems
  rw [reasoning, message, calls, List.append_nil, List.map_append, List.map_append]

/-- The finished items by kind. -/
def byKind (setting : ChatSetting) (s : ChatCompletionsToResponsesStreamState)
    (done : List Placed) : List Placed :=
  done.filter isReasoning ++ done.filter isMessage ++ openMessageItem s ++
    s.toolCalls.map (finishedCall setting)

theorem Recorded.byKind_perm (now : Recorded s added done) :
    (byKind setting s done).Perm (finishedItems setting s done) := by
  have messages : done.filter isMessage = done.filter fun placed => !isReasoning placed := by
    refine List.filter_congr fun placed member => ?_
    rcases now.kinds placed member with reasoning | message
    · rw [reasoning]
      by_contra message
      have message' : isMessage placed = true := by simpa using message
      rw [filter_reasoning_message message'] at reasoning
      cases reasoning
    · rw [message, filter_reasoning_message message]
      rfl
  unfold byKind finishedItems
  rw [messages]
  refine List.Perm.append_right _ (List.Perm.append_right _ ?_)
  exact List.filter_append_perm isReasoning done

/-- Items in order by their places come by increasing index when they are taken by kind. -/
theorem Recorded.byKind_increasing (now : Recorded s added done) (tidy : Tidy s)
    (shut : s.reasoningOpen = false) (ordered : InOrder (placesOf s done)) :
    (byKind setting s done).Pairwise fun a b => a.1 < b.1 := by
  have place {placed : Placed} (member : placed ∈ finishedItems setting s done) :
      placeOf placed ∈ placesOf s done := by
    rw [placesOf_finished tidy shut]
    exact List.mem_map.mpr ⟨placed, member, rfl⟩
  have isDone {placed : Placed} (member : placed ∈ done) :
      placed ∈ finishedItems setting s done :=
    List.mem_append_left _ (List.mem_append_left _ member)
  have apart {a b : Placed} (inA : a ∈ finishedItems setting s done)
      (inB : b ∈ finishedItems setting s done) (lower : (placeOf a).2 < (placeOf b).2) :
      a.1 < b.1 :=
    ordered _ (place inA) _ (place inB) lower
  have reasoned {placed : Placed} (member : placed ∈ done.filter isReasoning) :
      (placeOf placed).2 = 0 := by
    have reasoning := List.of_mem_filter member
    unfold isReasoning at reasoning
    unfold placeOf
    rw [eq_of_beq reasoning]
    rfl
  have written {placed : Placed} (member : placed ∈ done.filter isMessage) :
      (placeOf placed).2 = 1 := by
    have message := List.of_mem_filter member
    unfold isMessage at message
    unfold placeOf
    rw [eq_of_beq message]
    rfl
  have opened {placed : Placed} (member : placed ∈ openMessageItem s) :
      placed = (s.messageIndex, messageItem s) ∧ s.messageItemID ≠ "" := by
    unfold openMessageItem at member
    split at member
    · rename_i isOpen
      exact ⟨List.mem_singleton.mp member, isOpen⟩
    · cases member
  have called {placed : Placed} (member : placed ∈ s.toolCalls.map (finishedCall setting)) :
      (placeOf placed).2 = 2 := by
    obtain ⟨stored, inCalls, rfl⟩ := List.mem_map.mp member
    rw [placeOf_finishedCall (tidy.types stored inCalls)]
  have openDone {placed : Placed} (member : placed ∈ openMessageItem s) :
      placed ∈ finishedItems setting s done :=
    List.mem_append_left _ (List.mem_append_right _ member)
  have callDone {placed : Placed} (member : placed ∈ s.toolCalls.map (finishedCall setting)) :
      placed ∈ finishedItems setting s done :=
    List.mem_append_right _ member
  have single : (done.filter isReasoning).Pairwise fun a b : Placed => a.1 < b.1 := by
    obtain ⟨said, more, _, listed⟩ := now.reasonings
    rw [listed]
    split
    · exact List.pairwise_singleton _ _
    · exact .nil
  unfold byKind
  refine List.pairwise_append.mpr ⟨List.pairwise_append.mpr ⟨List.pairwise_append.mpr
    ⟨single, now.increasing, ?_⟩, ?_, ?_⟩, ?_, ?_⟩
  · intro a inA b inB
    refine apart (isDone (List.mem_of_mem_filter inA)) (isDone (List.mem_of_mem_filter inB)) ?_
    rw [reasoned inA, written inB]
    exact zero_lt_one
  · unfold openMessageItem
    split
    · exact List.pairwise_singleton _ _
    · exact .nil
  · intro a inA b inB
    obtain ⟨latest, isOpen⟩ := opened inB
    rcases List.mem_append.mp inA with reasoning | message
    · refine apart (isDone (List.mem_of_mem_filter reasoning)) (openDone inB) ?_
      rw [reasoned reasoning, latest]
      exact zero_lt_one
    · rw [latest]
      exact now.earlier isOpen a (List.mem_of_mem_filter message) (List.of_mem_filter message)
  · refine List.pairwise_map.mpr (tidy.ordered.imp ?_)
    intro a b before
    exact before
  · intro a inA b inB
    have low : (placeOf a).2 < 2 ∧ a ∈ finishedItems setting s done := by
      rcases List.mem_append.mp inA with earlier | message
      · rcases List.mem_append.mp earlier with reasoning | message
        · rw [reasoned reasoning]
          exact ⟨zero_lt_two, isDone (List.mem_of_mem_filter reasoning)⟩
        · rw [written message]
          exact ⟨one_lt_two, isDone (List.mem_of_mem_filter message)⟩
      · have latest := (opened message).1
        refine ⟨?_, openDone message⟩
        rw [latest]
        exact one_lt_two
    refine apart low.2 (callDone inB) ?_
    rw [called inB]
    exact low.1

/-- What the terminal event lists by kind is what was done, by kind. -/
theorem Recorded.listed_byKind (now : Recorded s added done) (tidy : Tidy s)
    (shut : s.reasoningOpen = false) (straight : Straight s done)
    (something : s.toolCalls ≠ [] ∨ s.messageItemID ≠ "") :
    (listedItems setting s).map withoutStatus =
      (byKind setting s done).map fun placed => withoutStatus placed.2 := by
  obtain ⟨said, more, split, listed⟩ := now.reasonings
  have reasoning : (reasoningListed s).map withoutStatus =
      (done.filter isReasoning).map fun placed => withoutStatus placed.2 := by
    by_cases isDone : s.reasoningDone = true
    · have some' := (now.reasoned (Or.inr isDone)).1
      rw [if_pos isDone] at listed
      have member : (s.reasoningIndex, finishedReasoning s.reasoningItemID said) ∈ done :=
        List.mem_of_mem_filter (by rw [listed]; exact List.mem_singleton_self _)
      have whole : said = s.reasoning := by
        have same := straight.2 _ member rfl
        simpa [finishedReasoning] using same
      unfold reasoningListed
      rw [listed, if_pos some', whole]
      rfl
    · have unsaid := tidy.unreasoned shut (Bool.eq_false_iff.mpr isDone)
      unfold reasoningListed
      rw [listed, if_neg isDone, if_neg (not_not.mpr unsaid)]
      rfl
  have message : messageListed setting s = (openMessageItem s).map Prod.snd := by
    unfold messageListed openMessageItem
    by_cases isOpen : s.messageItemID = ""
    · have none' : ¬(s.messageItemID ≠ "" ∨ s.toolCalls = []) := by tauto
      rw [if_neg none', if_neg (not_not.mpr isOpen)]
      rfl
    · rw [if_pos (Or.inl isOpen), if_pos isOpen, nonEmpty_of_ne isOpen]
      rfl
  unfold listedItems byKind
  rw [message, ← now.messages]
  simp only [List.map_append, List.map_map, reasoning]
  rfl

/-- Items of lower ranks are listed earlier. -/
theorem Recorded.listed_ranks (now : Recorded s added done) (tidy : Tidy s) :
    ((listedItems setting s).map fun item => item.type.rank).Pairwise (· ≤ ·) := by
  have closed : ∀ item ∈ s.closedMessages, item.type = .message := by
    intro item member
    rw [← now.messages] at member
    obtain ⟨placed, inDone, rfl⟩ := List.mem_map.mp member
    have message := List.of_mem_filter inDone
    unfold isMessage at message
    exact eq_of_beq message
  have calls : ∀ item ∈ (s.toolCalls.map (finishedCall setting)).map Prod.snd,
      item.type.rank = 2 := by
    intro item member
    obtain ⟨placed, inCalls, rfl⟩ := List.mem_map.mp member
    obtain ⟨stored, inCalls', rfl⟩ := List.mem_map.mp inCalls
    rw [finishedCall_type (tidy.types stored inCalls'), itemType_rank]
  have reasoning : ∀ item ∈ reasoningListed s, item.type.rank = 0 := by
    intro item member
    unfold reasoningListed at member
    split at member
    · rw [List.mem_singleton.mp member]
      rfl
    · cases member
  have message : ∀ item ∈ messageListed setting s, item.type.rank = 1 := by
    intro item member
    unfold messageListed at member
    split at member
    · rw [List.mem_singleton.mp member]
      rfl
    · cases member
  have level {items : List ResponsesOutput} {n : ℕ} (same : ∀ item ∈ items, item.type.rank = n) :
      items.Pairwise fun a b => a.type.rank ≤ b.type.rank := by
    refine List.pairwise_iff_forall_sublist.mpr fun {a b} pair => ?_
    rw [same a (pair.subset (by simp)), same b (pair.subset (by simp))]
  have closed' : ∀ item ∈ s.closedMessages, item.type.rank = 1 := by
    intro item member
    rw [closed item member]
    rfl
  refine List.pairwise_map.mpr ?_
  unfold listedItems
  refine List.pairwise_append.mpr ⟨List.pairwise_append.mpr ⟨List.pairwise_append.mpr
    ⟨level reasoning, level closed', ?_⟩, level message, ?_⟩, level calls, ?_⟩
  · intro a inA b inB
    rw [reasoning a inA]
    exact Nat.zero_le _
  · intro a inA b inB
    rw [message b inB]
    rcases List.mem_append.mp inA with first | second
    · rw [reasoning a first]
      exact zero_le_one
    · rw [closed' a second]
  · intro a inA b inB
    rw [calls b inB]
    rcases List.mem_append.mp inA with earlier | second
    · rcases List.mem_append.mp earlier with first | second
      · rw [reasoning a first]
        exact Nat.zero_le 2
      · rw [closed' a second]
        exact one_le_two
    · rw [message a second]
      exact one_le_two

/-- The reasoning that is listed is all of it. -/
theorem Recorded.listed_reasoning (now : Recorded s added done) (tidy : Tidy s)
    {item : ResponsesOutput} (member : item ∈ listedItems setting s)
    (reasoning : item.type = .reasoning) :
    item.summary = [{ type := .summaryText, text := s.reasoning }] := by
  unfold listedItems at member
  rcases List.mem_append.mp member with listed | call
  · rcases List.mem_append.mp listed with listed | message
    · rcases List.mem_append.mp listed with listed | message
      · unfold reasoningListed at listed
        split at listed
        · rw [List.mem_singleton.mp listed]
        · cases listed
      · rw [← now.messages] at message
        obtain ⟨placed, inDone, rfl⟩ := List.mem_map.mp message
        have isMessage' := List.of_mem_filter inDone
        have notReasoning := filter_reasoning_message isMessage'
        unfold isReasoning at notReasoning
        rw [reasoning] at notReasoning
        cases notReasoning
    · unfold messageListed at message
      split at message
      · rw [List.mem_singleton.mp message] at reasoning
        cases reasoning
      · cases message
  · obtain ⟨placed, inCalls, rfl⟩ := List.mem_map.mp call
    obtain ⟨stored, inCalls', rfl⟩ := List.mem_map.mp inCalls
    have rank := @itemType_rank (announcing setting true stored)
    rw [← finishedCall_type (tidy.types stored inCalls'), reasoning] at rank
    cases rank

theorem Recorded.listed_length (now : Recorded s added done) (shut : s.reasoningOpen = false)
    (tidy : Tidy s) : (listedItems setting s).length = (finishedItems setting s done).length +
      if s.toolCalls ≠ [] ∨ s.messageItemID ≠ "" then 0 else 1 := by
  obtain ⟨said, more, split, listed⟩ := now.reasonings
  have reasoning : (reasoningListed s).length = (done.filter isReasoning).length := by
    by_cases isDone : s.reasoningDone = true
    · unfold reasoningListed
      rw [listed, if_pos isDone, if_pos (now.reasoned (Or.inr isDone)).1]
      rfl
    · have unsaid := tidy.unreasoned shut (Bool.eq_false_iff.mpr isDone)
      unfold reasoningListed
      rw [listed, if_neg isDone, if_neg (not_not.mpr unsaid)]
      rfl
  have message : (messageListed setting s).length = (openMessageItem s).length +
      if s.toolCalls ≠ [] ∨ s.messageItemID ≠ "" then 0 else 1 := by
    unfold messageListed openMessageItem
    by_cases isOpen : s.messageItemID = ""
    · by_cases noCalls : s.toolCalls = []
      · rw [if_pos (Or.inr noCalls), if_neg (not_not.mpr isOpen), if_neg (by tauto)]
        rfl
      · rw [if_neg (by tauto), if_neg (not_not.mpr isOpen), if_pos (Or.inl noCalls)]
        rfl
    · rw [if_pos (Or.inl isOpen), if_pos isOpen, if_pos (Or.inr isOpen)]
      rfl
  have kinds := (@Recorded.byKind_perm setting s added done now).length_eq
  have closed : s.closedMessages.length = (done.filter isMessage).length := by
    rw [← now.messages, List.length_map]
  unfold byKind at kinds
  unfold listedItems
  simp only [List.length_append, List.length_map] at kinds ⊢
  omega

/-- The terminal event lists what was streamed, in order, exactly when the record is straight and
the stream is not empty. -/
theorem Recorded.listed_iff (now : Recorded s added done) (tidy : Tidy s)
    (shut : s.reasoningOpen = false) :
    (∃ listed : List Placed, listed.Perm (finishedItems setting s done) ∧
      (listed.map keyOf).Perm (added ++ s.toolCalls.flatMap (lateKey setting)) ∧
      listed.Pairwise (fun a b => a.1 < b.1) ∧
      (listedItems setting s).map withoutStatus =
        listed.map fun placed => withoutStatus placed.2) ↔
      Straight s done ∧ (s.toolCalls ≠ [] ∨ s.messageItemID ≠ "") := by
  constructor
  · rintro ⟨listed, perm, _, increasing, same⟩
    have something : s.toolCalls ≠ [] ∨ s.messageItemID ≠ "" := by
      by_contra nothing
      have lengths := congrArg List.length same
      have counted := @Recorded.listed_length setting s added done now shut tidy
      rw [if_neg nothing] at counted
      rw [List.length_map, List.length_map, perm.length_eq] at lengths
      omega
    refine ⟨⟨?_, ?_⟩, something⟩
    · have ranks := @Recorded.listed_ranks setting s added done now tidy
      have ranksOf (items : List ResponsesOutput) :
          (items.map fun item => item.type.rank) =
            (items.map withoutStatus).map fun item => item.type.rank := by
        rw [List.map_map]
        rfl
      rw [ranksOf, same, List.map_map] at ranks
      have sorted : listed.Pairwise fun a b => a.1 < b.1 ∧ (placeOf a).2 ≤ (placeOf b).2 :=
        increasing.and (List.pairwise_map.mp ranks)
      have everywhere : ∀ a ∈ listed, ∀ b ∈ listed, (placeOf a).2 < (placeOf b).2 → a.1 < b.1 :=
        List.Pairwise.forall_of_forall_of_flip (fun _ _ lower => absurd lower (lt_irrefl _))
          (sorted.imp fun pair _ => pair.1)
          (sorted.imp fun pair lower => absurd pair.2 lower.not_ge)
      rw [@placesOf_finished setting s done tidy shut]
      intro p hp q hq lower
      obtain ⟨a, inA, rfl⟩ := List.mem_map.mp hp
      obtain ⟨b, inB, rfl⟩ := List.mem_map.mp hq
      exact everywhere a (perm.symm.subset inA) b (perm.symm.subset inB) lower
    · intro placed member reasoning
      have inListed : placed ∈ listed := perm.symm.subset
        (List.mem_append_left _ (List.mem_append_left _ member))
      have found : withoutStatus placed.2 ∈ (listedItems setting s).map withoutStatus := by
        rw [same]
        exact List.mem_map.mpr ⟨placed, inListed, rfl⟩
      obtain ⟨item, isListed, alike⟩ := List.mem_map.mp found
      have type : item.type = placed.2.type := congrArg (·.type) alike
      have summary : item.summary = placed.2.summary := congrArg (·.summary) alike
      unfold isReasoning at reasoning
      rw [← summary]
      exact now.listed_reasoning tidy isListed (type.trans (eq_of_beq reasoning))
  · rintro ⟨straight, something⟩
    refine ⟨byKind setting s done, now.byKind_perm, ?_,
      now.byKind_increasing tidy shut straight.1,
      now.listed_byKind tidy shut straight something⟩
    exact (now.byKind_perm.map keyOf).trans (now.added_finished tidy shut).symm

/-! ### The finalization -/

/-- The finalization up to the fallback. -/
def settle (setting : ChatSetting) (s : ChatCompletionsToResponsesStreamState) : ChatToResponses :=
  andThen (ensureCreated s) fun s =>
    andThen (closeReasoningItem s) fun s =>
      if s.degeneration then (s, []) else synthesizeReasoningFallback setting s

/-- The finalization from the open message on. -/
def conclude (setting : ChatSetting) (s : ChatCompletionsToResponsesStreamState) :
    ChatToResponses :=
  andThen (if s.messageItemID ≠ "" then endMessage s else (s, [])) fun s =>
    andThen (closeChatToolItems setting s) fun s => completeResponse setting s

theorem finalize_eq (unfinished : s.completedSent = false) :
    finalizeChatCompletionsResponsesStream setting s =
      andThen (settle setting s) (conclude setting) := by
  unfold finalizeChatCompletionsResponsesStream settle
  rw [if_neg (by simp [unfinished]), andThen_assoc]
  simp only [andThen_assoc]
  rfl

/-- The stream has something to list before its end. -/
def Substantial (s : ChatCompletionsToResponsesStreamState) : Prop :=
  s.toolCalls ≠ [] ∨ s.messageItemID ≠ "" ∨
    s.degeneration = false ∧ trimSpace s.reasoning ≠ ""

/-- The fallback comes only when there are no calls. -/
theorem Recorded.fallback (now : Recorded s added done) :
    Records s added done
      (if s.degeneration then (s, []) else synthesizeReasoningFallback setting s) True := by
  have silent : Records s added done (s, []) True :=
    now.quiet .silent ⟨rfl, rfl, rfl, rfl, rfl, rfl, rfl, rfl, rfl, rfl⟩
  split
  · exact silent
  · unfold synthesizeReasoningFallback
    split
    · exact silent
    · rename_i eligible
      split
      · exact silent
      · have noCalls : s.toolCalls = [] := by
          by_contra called
          exact eligible (.inr (.inr (.inr called)))
        exact now.writeText.congr (iff_of_true (Or.inr noCalls) trivial)

theorem Recorded.settle (now : Recorded s added done) :
    Records s added done (settle setting s) True := by
  have created : Records s added done (ensureCreated s) True := by
    obtain ⟨n, state⟩ := ensureCreated_state s
    refine now.quiet ensureCreated_quiet ?_
    rw [state]
    exact ⟨rfl, rfl, rfl, rfl, rfl, rfl, rfl, rfl, rfl, rfl⟩
  have settled : Records s added done (ApiCompat.settle setting s) (True ∧ (True ∧ True)) :=
    created.andThen fun recorded => recorded.closeReasoningItem.andThen fun recorded =>
      recorded.fallback
  exact settled.congr (by simp)

/-- The state after the fallback. -/
theorem settle_state (tidy : Tidy s) :
    Tidy (settle setting s).1 ∧ (settle setting s).1.reasoningOpen = false ∧
      ((settle setting s).1.toolCalls ≠ [] ∨ (settle setting s).1.messageItemID ≠ "" ↔
        Substantial s) := by
  obtain ⟨n, created⟩ := ensureCreated_state s
  obtain ⟨m, closed⟩ := closeReasoningItem_state (ensureCreated s).1
  have tidy₁ : Tidy (ensureCreated s).1 := by
    obtain ⟨part, unsaid, unreasoned, keys, below, ordered, types⟩ := tidy
    rw [created]
    exact ⟨part, unsaid, unreasoned, keys, below, ordered, types⟩
  have tidy₂ := tidy₁.closeReasoningItem
  have settled : (settle setting s).1 =
      (if (closeReasoningItem (ensureCreated s).1).1.degeneration then
        ((closeReasoningItem (ensureCreated s).1).1, [])
      else synthesizeReasoningFallback setting (closeReasoningItem (ensureCreated s).1).1).1 := rfl
  rw [settled]
  have shut : (closeReasoningItem (ensureCreated s).1).1.reasoningOpen = false := by rw [closed]
  have same : Substantial (closeReasoningItem (ensureCreated s).1).1 ↔ Substantial s := by
    rw [closed, created]
    rfl
  rw [← same]
  generalize (closeReasoningItem (ensureCreated s).1).1 = now at tidy₂ shut
  by_cases degenerated : now.degeneration = true
  · rw [if_pos degenerated]
    refine ⟨tidy₂, shut, ?_⟩
    unfold Substantial
    simp [degenerated]
  · rw [if_neg degenerated]
    unfold synthesizeReasoningFallback
    split
    · rename_i ineligible
      refine ⟨tidy₂, shut, ?_⟩
      unfold Substantial
      constructor
      · rintro (calls | message)
        · exact Or.inl calls
        · exact Or.inr (Or.inl message)
      · rintro (calls | message | ⟨_, said⟩)
        · exact Or.inl calls
        · exact Or.inr message
        · by_cases message : now.messageItemID = ""
          · rcases ineligible with message' | text | unsaid | calls
            · exact absurd message message'
            · exact absurd (tidy₂.unsaid message) text
            · rw [unsaid] at said
              exact absurd rfl said
            · exact Or.inl calls
          · exact Or.inr message
    · rename_i eligible
      split
      · rename_i blank
        refine ⟨tidy₂, shut, ?_⟩
        unfold Substantial
        simp [blank]
      · rename_i said
        obtain ⟨k, written⟩ := writeText_state setting now now.reasoning
        have message : now.messageItemID = "" := by
          by_contra message
          exact eligible (Or.inl message)
        refine ⟨tidy₂.writeText, ?_, ?_⟩
        · rw [written, if_neg (not_not.mpr message)]
          exact shut
        · refine iff_of_true (Or.inr ?_)
            (Or.inr (Or.inr ⟨Bool.eq_false_iff.mpr degenerated, said⟩))
          rw [written, if_neg (not_not.mpr message)]
          exact generatedItemID_ne

/-- The terminal event lists the items of the state before it. -/
theorem chatOutput_closed {n : ℤ} (now : Recorded s added done) (tidy : Tidy s)
    (shut : s.reasoningOpen = false) {final : ChatCompletionsToResponsesStreamState}
    (state : final = { s with
      toolCalls := s.toolCalls.map (announcing setting true), sequenceNumber := n })
    (tidy' : Tidy final) : chatOutput setting final = listedItems setting s := by
  have reasoned : s.reasoning ≠ "" → s.reasoningItemID ≠ "" := by
    intro said
    by_cases isDone : s.reasoningDone = true
    · exact (now.reasoned (Or.inr isDone)).2
    · exact absurd (tidy.unreasoned shut (Bool.eq_false_iff.mpr isDone)) said
  have itemIDs : ∀ stored ∈ final.toolCalls, stored.itemID ≠ "" := by
    intro stored member
    rw [state] at member
    obtain ⟨old, inCalls, rfl⟩ := List.mem_map.mp member
    rw [announcing_itemID]
    exact now.itemIDs old inCalls
  have reasoned' : final.reasoning ≠ "" → final.reasoningItemID ≠ "" := by
    rw [state]
    exact reasoned
  rw [chatOutput_eq tidy' reasoned' itemIDs]
  have message : messageListed setting final = messageListed setting s := by
    rw [state]
    unfold messageListed
    simp only [List.map_eq_nil_iff]
    rfl
  have calls : (final.toolCalls.map fun stored => toolItem setting stored stored.itemID) =
      (s.toolCalls.map (finishedCall setting)).map Prod.snd := by
    rw [state, List.map_map, List.map_map]
    refine List.map_congr_left fun stored _ => ?_
    show toolItem setting (announcing setting true stored) (announcing setting true stored).itemID =
      _
    rw [announcing_itemID]
    rfl
  rw [message, calls, state]
  rfl

/-- The end of a stream: the open message and the calls are done before the terminal event. -/
theorem conclude_eq (setting : ChatSetting) (tidy : Tidy s) :
    ∃ events final n, conclude setting s = andThen (final, events) (completeResponse setting) ∧
      Tidy final ∧
      final = { s with
        toolCalls := s.toolCalls.map (announcing setting true), sequenceNumber := n } ∧
      addedItems events = s.toolCalls.flatMap (lateKey setting) ∧
      doneItems events = openMessageItem s ++ s.toolCalls.map (finishedCall setting) := by
  obtain ⟨n, ended⟩ := endOpenMessage_state s
  have opened := @endOpenMessage_added s
  have closed := @endOpenMessage_done s
  unfold conclude
  generalize (if s.messageItemID ≠ "" then endMessage s else (s, [])) = first at ended opened closed
  have tidy₁ : Tidy first.1 := by
    obtain ⟨part, unsaid, unreasoned, keys, below, ordered, types⟩ := tidy
    rw [ended]
    exact ⟨part, unsaid, unreasoned, keys, below, ordered, types⟩
  obtain ⟨⟨m, state⟩, announced, finished⟩ :=
    @closeTools_run setting first.1 [] first.1.toolCalls tidy₁ rfl
  rw [← ordered_indices tidy₁] at state announced finished
  have calls : first.1.toolCalls = s.toolCalls := by rw [ended]
  rw [calls] at announced finished
  refine ⟨first.2 ++ (closeChatToolItems setting first.1).2, (closeChatToolItems setting first.1).1,
    m, ?_, run_preserves (fun _ _ tidy => tidy.closeTool) tidy₁ _, ?_, ?_, ?_⟩
  · rw [← andThen_assoc]
    rfl
  · refine state.trans ?_
    rw [ended]
    rfl
  · rw [addedItems_append, opened, List.nil_append]
    exact announced
  · rw [doneItems_append, closed]
    exact congrArg (openMessageItem s ++ ·) finished

theorem completeResponse_quiet : Quiet (completeResponse setting s) := by
  unfold completeResponse
  dsimp only
  split
  · exact .event (by decide) (by decide)
  · exact .event (by decide) (by decide)

theorem conclude_events (setting : ChatSetting) (tidy : Tidy s) :
    addedItems (conclude setting s).2 = s.toolCalls.flatMap (lateKey setting) ∧
      doneItems (conclude setting s).2 =
        openMessageItem s ++ s.toolCalls.map (finishedCall setting) := by
  obtain ⟨events, final, n, concludes, _, _, announced, finished⟩ := conclude_eq setting tidy
  rw [concludes]
  dsimp only [andThen]
  rw [addedItems_append, doneItems_append, completeResponse_quiet.added,
    completeResponse_quiet.done, List.append_nil, List.append_nil]
  exact ⟨announced, finished⟩

/-- The response of the terminal event. -/
theorem conclude_response (now : Recorded s added done) (tidy : Tidy s)
    (shut : s.reasoningOpen = false) :
    ∃ events e response, (conclude setting s).2 = events ++ [e] ∧ e.response = some response ∧
      response.output = listedItems setting s ∧
      response.status = if s.finishReason = "length" then .incomplete else .completed := by
  obtain ⟨events, final, n, concludes, tidy', state, _, _⟩ := conclude_eq setting tidy
  have output := chatOutput_closed now tidy shut state tidy'
  have reason : final.finishReason = s.finishReason := by rw [state]
  refine ⟨events, _, _, congrArg Prod.snd concludes, rfl, output, ?_⟩
  rw [← reason]

/-- Before its finalization a stream is not complete. -/
theorem stream_unfinished (setting : ChatSetting) (model : String) (created : ℤ)
    (actions : List ChatAction) :
    Tidy (run (act setting) (newState setting model created) actions).1 ∧
      (run (act setting) (newState setting model created) actions).1.completedSent = false := by
  have inputs (s : ChatCompletionsToResponsesStreamState) (input : ChatInput)
      (now : Tidy s ∧ s.completedSent = false) :
      Tidy (handleInput setting s input).1 ∧
        (handleInput setting s input).1.completedSent = false :=
    ⟨now.1.handleInput input, (completedSent_handleInput now.1).trans now.2⟩
  refine run_preserves (P := fun s => Tidy s ∧ s.completedSent = false) ?_
    ⟨Tidy.start setting model created, rfl⟩ actions
  intro s action now
  cases action with
  | chunk chunk => exact run_preserves inputs now _
  | closeMessage => exact inputs s .closeMessage now
  | degenerated => exact inputs s .degenerated now

/-- For every sequence of chunks, with the message closed and the guard tripped at any points: the
terminal event lists exactly what was streamed if and only if reasoning began before all other
items and did not go on once it was done, no message began after a call, and the stream ends with a
call, an open message, or reasoning that the guard lets become a message. -/
theorem chat_output_as_streamed (setting : ChatSetting) (model : String) (created : ℤ)
    (actions : List ChatAction) :
    OutputAsStreamed (chatStream setting model created actions) ↔
      Throughout (act setting) (ActsKeeping setting) (newState setting model created) actions ∧
        Substantial (run (act setting) (newState setting model created) actions).1 := by
  have start := Tidy.start setting model created
  have unfinished := stream_unfinished setting model created actions
  have streamed := @Records.run _ _ _ ChatAction (act setting) (ActsKeeping setting) actions
    (fun _ action tidy => tidy.act action) (fun _ _ _ _ now tidy => now.act tidy)
    (Recorded.start setting model created) start
  unfold chatStream
  dsimp only [andThen]
  rw [finalize_eq unfinished.2]
  generalize run (act setting) (newState setting model created) actions = out at streamed unfinished
  obtain ⟨recorded, straight⟩ := streamed
  obtain ⟨tidy', shut, substantial⟩ := @settle_state setting out.1 unfinished.1
  obtain ⟨recorded', straight'⟩ := @Recorded.settle setting _ _ _ recorded
  obtain ⟨announced, finished⟩ := conclude_events setting tidy'
  obtain ⟨events, e, response, last, carries, output, _⟩ :=
    @conclude_response setting _ _ _ recorded' tidy' shut
  have terminal (before : List ResponsesStreamEvent) :
      terminalOutput (before ++ (conclude setting (settle setting out.1).1).2) =
        some (listedItems setting (settle setting out.1).1) := by
    unfold terminalOutput
    rw [last, ← List.append_assoc, List.getLast?_concat, Option.bind_some, carries, ← output]
    rfl
  have whole := @Recorded.listed_iff setting _ _ _ recorded' tidy' shut
  rw [straight', and_true, straight, and_iff_right (straight_start setting model created),
    substantial] at whole
  rw [← whole]
  unfold OutputAsStreamed finishedItems
  dsimp only [andThen]
  rw [← List.append_assoc, terminal, doneItems_append, addedItems_append, doneItems_append,
    addedItems_append, announced, finished]
  simp only [List.nil_append, List.append_assoc, Option.map_some, Option.some.injEq]

namespace ChatSample

/-- A call, and then text. -/
def textAfterCall : List ChatAction := [callDelta 0 "ls" "", chunk { content := some "done" }]

end ChatSample

/-- The text's index is 1, but it is listed before the call. -/
theorem chat_text_after_call_not_as_streamed :
    ¬OutputAsStreamed (chatStream ChatSample.patching "m" 0 ChatSample.textAfterCall) := by
  have message : ∀ placed ∈ doneItems (chatStream ChatSample.patching "m" 0
      ChatSample.textAfterCall), placed.2.type = .message → placed.1 = 1 := by decide +kernel
  have call : ∀ placed ∈ doneItems (chatStream ChatSample.patching "m" 0
      ChatSample.textAfterCall), placed.2.type = .functionCall → placed.1 = 0 := by decide +kernel
  have output : (terminalOutput (chatStream ChatSample.patching "m" 0
      ChatSample.textAfterCall)).map (·.map (·.type)) = some [.message, .functionCall] := by
    decide +kernel
  rintro ⟨listed, perm, _, increasing, same⟩
  have types : listed.map (fun placed => placed.2.type) = [.message, .functionCall] := by
    have alike := congrArg (Option.map (List.map (·.type))) same
    rw [Option.map_map, Option.map_some] at alike
    have typesOnly : List.map (·.type) ∘ (fun items : List ResponsesOutput =>
        items.map withoutStatus) = List.map (·.type) := by
      funext items
      simp [withoutStatus]
    rw [typesOnly, output, Option.some_inj, List.map_map] at alike
    exact alike.symm
  obtain ⟨first, rest, rfl, isMessage, rest'⟩ := List.map_eq_cons_iff.mp types
  obtain ⟨second, _, rfl, isCall, _⟩ := List.map_eq_cons_iff.mp rest'
  have late : first.1 = 1 := message first (perm.subset (by simp)) isMessage
  have early : second.1 = 0 := call second (perm.subset (by simp)) isCall
  have ordered := List.rel_of_pairwise_cons increasing List.mem_cons_self
  omega

end Sub2api.ApiCompat
