import Sub2api.ApiCompat.ChatEvents

/-!
# What a chat stream has announced and finished so far

`Recorded` relates the state to the items added and done so far. `Straight` says that reasoning
comes before all messages and messages before all calls, by their output indices, and that
finished reasoning has the whole text: then the items can be listed by kind. Each input keeps a
record straight exactly when it is `Keeping`.
-/

namespace Sub2api.ApiCompat

open Go Transducer ChatToResponses

/-! ### Places -/

/-- The order in which the terminal event lists the kinds of items. -/
def ItemType.rank : ItemType → ℕ
  | .reasoning => 0
  | .message => 1
  | _ => 2

/-- An output index and the rank of its item. -/
abbrev Place := ℤ × ℕ

/-- Items of a lower rank have lower indices. -/
def InOrder (places : List Place) : Prop :=
  ∀ p ∈ places, ∀ q ∈ places, p.2 < q.2 → p.1 < q.1

theorem InOrder.congr {places places' : List Place} (same : ∀ p, p ∈ places ↔ p ∈ places') :
    InOrder places ↔ InOrder places' := by
  unfold InOrder
  simp only [same]

/-- An item under a new index is in order when none has a higher rank. -/
theorem inOrder_cons {places : List Place} {n : ℤ} {r : ℕ} (below : ∀ q ∈ places, q.1 < n) :
    InOrder ((n, r) :: places) ↔ InOrder places ∧ ∀ q ∈ places, q.2 ≤ r := by
  constructor
  · intro ordered
    constructor
    · intro p hp q hq lower
      exact ordered p (List.mem_cons_of_mem _ hp) q (List.mem_cons_of_mem _ hq) lower
    · intro q hq
      by_contra higher
      have less := ordered (n, r) List.mem_cons_self q (List.mem_cons_of_mem _ hq)
        (not_le.mp higher)
      exact absurd less (below q hq).asymm
  · rintro ⟨ordered, lowest⟩ p hp q hq lower
    rcases List.mem_cons.mp hp with rfl | hp
    · rcases List.mem_cons.mp hq with rfl | hq
      · exact absurd lower (lt_irrefl _)
      · exact absurd lower (not_lt.mpr (lowest q hq))
    · rcases List.mem_cons.mp hq with rfl | hq
      · exact below p hp
      · exact ordered p hp q hq lower

def placeOf (placed : Placed) : Place := (placed.1, placed.2.type.rank)

variable {setting : ChatSetting} {s : ChatCompletionsToResponsesStreamState}

def reasoningPlace (s : ChatCompletionsToResponsesStreamState) : List Place :=
  if s.reasoningOpen then [(s.reasoningIndex, 0)] else []

def messagePlace (s : ChatCompletionsToResponsesStreamState) : List Place :=
  if s.messageItemID ≠ "" then [(s.messageIndex, 1)] else []

def callPlaces (s : ChatCompletionsToResponsesStreamState) : List Place :=
  s.toolCalls.map fun stored => (stored.outputIndex, 2)

/-- The places of all items that have begun. -/
def placesOf (s : ChatCompletionsToResponsesStreamState) (done : List Placed) : List Place :=
  done.map placeOf ++ reasoningPlace s ++ messagePlace s ++ callPlaces s

def reasoningKey (s : ChatCompletionsToResponsesStreamState) : List ItemKey :=
  if s.reasoningOpen then [(s.reasoningIndex, s.reasoningItemID, .reasoning)] else []

def messageKey (s : ChatCompletionsToResponsesStreamState) : List ItemKey :=
  if s.messageItemID ≠ "" then [(s.messageIndex, s.messageItemID, .message)] else []

/-- The key of a call's item once it is announced. -/
def announcedKey (stored : StreamTool) : List ItemKey :=
  if stored.announced then [callKey stored] else []

def callKeys (s : ChatCompletionsToResponsesStreamState) : List ItemKey :=
  s.toolCalls.flatMap announcedKey

def isReasoning (placed : Placed) : Bool := placed.2.type == .reasoning

def isMessage (placed : Placed) : Bool := placed.2.type == .message

/-! ### The record -/

/-- The state and the items added and done so far. -/
structure Recorded (s : ChatCompletionsToResponsesStreamState) (added : List ItemKey)
    (done : List Placed) : Prop where
  kinds : ∀ placed ∈ done, isReasoning placed = true ∨ isMessage placed = true
  messages : (done.filter isMessage).map Prod.snd = s.closedMessages
  increasing : (done.filter isMessage).Pairwise fun a b => a.1 < b.1
  earlier : s.messageItemID ≠ "" → ∀ placed ∈ done, isMessage placed = true →
    placed.1 < s.messageIndex
  reasonings : ∃ said more, s.reasoning = said ++ more ∧ done.filter isReasoning =
    if s.reasoningDone then [(s.reasoningIndex, finishedReasoning s.reasoningItemID said)] else []
  bounds : ∀ place ∈ placesOf s done, 0 ≤ place.1 ∧ place.1 < s.nextOutputIndex
  begun : placesOf s done = [] → s.nextOutputIndex = 0
  added : added.Perm (done.map keyOf ++ reasoningKey s ++ messageKey s ++ callKeys s)
  reasoned : s.reasoningOpen = true ∨ s.reasoningDone = true →
    s.reasoning ≠ "" ∧ s.reasoningItemID ≠ ""
  once : s.reasoningOpen = true → s.reasoningDone = false
  itemIDs : ∀ stored ∈ s.toolCalls, stored.itemID ≠ ""

/-- The items can be listed by kind, with the whole reasoning. -/
def Straight (s : ChatCompletionsToResponsesStreamState) (done : List Placed) : Prop :=
  InOrder (placesOf s done) ∧
    ∀ placed ∈ done, isReasoning placed = true →
      placed.2.summary = [{ type := .summaryText, text := s.reasoning }]

/-- The input does not disturb the order: reasoning begins before all other items and does not go
on once it is done, and no message begins after a call. -/
def Keeping (s : ChatCompletionsToResponsesStreamState) : ChatInput → Prop
  | .reasoning text =>
    text = "" ∨ s.reasoningOpen = true ∨ s.reasoningDone = false ∧ s.nextOutputIndex = 0
  | .content text => text = "" ∨ s.messageItemID ≠ "" ∨ s.toolCalls = []
  | _ => True

/-- What one handler does to the record; it keeps the record straight when `keeps`. -/
structure Records (s : ChatCompletionsToResponsesStreamState) (added : List ItemKey)
    (done : List Placed) (out : ChatToResponses) (keeps : Prop) : Prop where
  recorded : Recorded out.1 (added ++ addedItems out.2) (done ++ doneItems out.2)
  straight : Straight out.1 (done ++ doneItems out.2) ↔ Straight s done ∧ keeps

variable {added : List ItemKey} {done : List Placed}

theorem Recorded.start (setting : ChatSetting) (model : String) (created : ℤ) :
    Recorded (newState setting model created) [] [] := by
  refine ⟨?_, rfl, .nil, ?_, ⟨"", "", rfl, rfl⟩, ?_, fun _ => rfl, .nil, ?_, ?_, ?_⟩
  · intro placed member
    cases member
  · intro _ placed member
    cases member
  · intro place member
    cases member
  · rintro (contra | contra) <;> cases contra
  · intro contra
    cases contra
  · intro stored member
    cases member

theorem straight_start (setting : ChatSetting) (model : String) (created : ℤ) :
    Straight (newState setting model created) [] := by
  constructor
  · intro p member
    cases member
  · intro placed member
    cases member

/-- One handler after another. -/
theorem Records.andThen {first : ChatToResponses}
    {next : ChatCompletionsToResponsesStreamState → ChatToResponses} {keeps keeps' : Prop}
    (starts : Records s added done first keeps)
    (goesOn : Recorded first.1 (added ++ addedItems first.2) (done ++ doneItems first.2) →
      Records first.1 (added ++ addedItems first.2) (done ++ doneItems first.2)
        (next first.1) keeps') :
    Records s added done (Transducer.andThen first next) (keeps ∧ keeps') := by
  obtain ⟨recorded, straight⟩ := goesOn starts.recorded
  constructor
  · show Recorded (next first.1).1 (added ++ addedItems (first.2 ++ (next first.1).2))
      (done ++ doneItems (first.2 ++ (next first.1).2))
    rw [addedItems_append, doneItems_append, ← List.append_assoc, ← List.append_assoc]
    exact recorded
  · show Straight (next first.1).1 (done ++ doneItems (first.2 ++ (next first.1).2)) ↔ _
    rw [doneItems_append, ← List.append_assoc, straight, starts.straight, and_assoc]

theorem Records.congr {out : ChatToResponses} {keeps keeps' : Prop}
    (records : Records s added done out keeps) (same : keeps ↔ keeps') :
    Records s added done out keeps' :=
  ⟨records.recorded, by rw [records.straight, same]⟩

/-- The parts of the state that a record depends on are the same. -/
structure SameRecord (s s' : ChatCompletionsToResponsesStreamState) : Prop where
  reasoningOpen : s'.reasoningOpen = s.reasoningOpen
  reasoningDone : s'.reasoningDone = s.reasoningDone
  reasoningIndex : s'.reasoningIndex = s.reasoningIndex
  reasoningItemID : s'.reasoningItemID = s.reasoningItemID
  reasoning : s'.reasoning = s.reasoning
  messageIndex : s'.messageIndex = s.messageIndex
  messageItemID : s'.messageItemID = s.messageItemID
  closedMessages : s'.closedMessages = s.closedMessages
  index : s'.nextOutputIndex = s.nextOutputIndex
  calls : s'.toolCalls = s.toolCalls

theorem Recorded.quiet (now : Recorded s added done) {out : ChatToResponses} (quiet : Quiet out)
    (same : SameRecord s out.1) : Records s added done out True := by
  obtain ⟨open_, done_, index, id, reasoning, mIndex, mID, closed, next, calls⟩ := same
  obtain ⟨kinds, messages, increasing, earlier, reasonings, bounds, begun, added', reasoned, once,
    itemIDs⟩ := now
  have places : placesOf out.1 done = placesOf s done := by
    simp only [placesOf, reasoningPlace, messagePlace, callPlaces, open_, index, mIndex, mID, calls]
  constructor
  · rw [quiet.added, quiet.done, List.append_nil, List.append_nil]
    refine ⟨kinds, ?_, increasing, ?_, ?_, ?_, ?_, ?_, ?_, ?_, ?_⟩
    · rw [closed, messages]
    · rw [mID, mIndex]
      exact earlier
    · rw [reasoning, done_, index, id]
      exact reasonings
    · rw [places, next]
      exact bounds
    · rw [places, next]
      exact begun
    · simp only [reasoningKey, messageKey, callKeys, open_, index, id, mIndex, mID, calls]
      exact added'
    · rw [open_, done_, reasoning, id]
      exact reasoned
    · rw [open_, done_]
      exact once
    · rw [calls]
      exact itemIDs
  · rw [quiet.done, List.append_nil]
    unfold Straight
    rw [places, reasoning, and_true]

/-! ### Reasoning -/

theorem filter_reasoning_message {placed : Placed} (message : isMessage placed = true) :
    isReasoning placed = false := by
  unfold isMessage at message
  unfold isReasoning
  rw [eq_of_beq message]
  rfl

/-- Without finished reasoning no item that is done is reasoning. -/
theorem Recorded.no_reasoning (now : Recorded s added done) (notDone : s.reasoningDone = false)
    {placed : Placed} (member : placed ∈ done) : isReasoning placed = false := by
  obtain ⟨said, more, _, listed⟩ := now.reasonings
  rw [notDone] at listed
  by_contra reasoning
  have found := List.mem_filter.mpr ⟨member, Bool.eq_true_of_not_eq_false reasoning⟩
  rw [listed] at found
  cases found

theorem straight_of_no_reasoning (none' : ∀ placed ∈ done, isReasoning placed = false) :
    Straight s done ↔ InOrder (placesOf s done) := by
  constructor
  · exact And.left
  · intro ordered
    refine ⟨ordered, ?_⟩
    intro placed member reasoning
    rw [none' placed member] at reasoning
    cases reasoning

theorem Recorded.closeReasoningItem (now : Recorded s added done) :
    Records s added done (closeReasoningItem s) True := by
  by_cases isOpen : s.reasoningOpen = true
  · obtain ⟨n, state⟩ := closeReasoningItem_state s
    have notDone := now.once isOpen
    have finished : doneItems (ChatToResponses.closeReasoningItem s).2 =
        [(s.reasoningIndex, finishedReasoning s.reasoningItemID s.reasoning)] := by
      rw [closeReasoningItem_done, if_pos isOpen]
    have none' : done.filter isReasoning = [] :=
      List.filter_eq_nil_iff.mpr fun placed member => by
        rw [now.no_reasoning notDone member]
        decide
    have places : placesOf (ChatToResponses.closeReasoningItem s).1 (done ++
        [(s.reasoningIndex, finishedReasoning s.reasoningItemID s.reasoning)]) =
        placesOf s done := by
      rw [state]
      simp [placesOf, reasoningPlace, isOpen, placeOf, finishedReasoning, ItemType.rank,
        messagePlace, callPlaces]
    obtain ⟨kinds, messages, increasing, earlier, reasonings, bounds, begun, added', reasoned, once,
      itemIDs⟩ := now
    have same : (done ++ [(s.reasoningIndex,
        finishedReasoning s.reasoningItemID s.reasoning)]).filter isMessage =
        done.filter isMessage := by
      simp [isMessage, finishedReasoning]
    constructor
    · rw [closeReasoningItem_added, finished, List.append_nil]
      refine ⟨?_, ?_, ?_, ?_, ?_, ?_, ?_, ?_, ?_, ?_, ?_⟩
      · intro placed member
        rcases List.mem_append.mp member with old | new
        · exact kinds placed old
        · rw [List.mem_singleton.mp new]
          exact Or.inl rfl
      · rw [same, messages, state]
      · rw [same]
        exact increasing
      · rw [state]
        intro message placed member isMessage'
        rcases List.mem_append.mp member with old | new
        · exact earlier message placed old isMessage'
        · rw [List.mem_singleton.mp new] at isMessage'
          cases isMessage'
      · refine ⟨s.reasoning, "", ?_, ?_⟩
        · rw [state]
          exact String.append_empty.symm
        · rw [state, List.filter_append, none']
          simp [isOpen, isReasoning, finishedReasoning]
      · rw [places, state]
        exact bounds
      · rw [places, state]
        exact begun
      · rw [state]
        simpa [reasoningKey, isOpen, keyOf, finishedReasoning, messageKey, callKeys] using added'
      · rw [state]
        intro _
        exact reasoned (Or.inl isOpen)
      · rw [state]
        intro contra
        cases contra
      · rw [state]
        exact itemIDs
    · rw [finished, and_true]
      unfold Straight
      rw [places, state]
      refine and_congr_right fun _ => ?_
      constructor
      · intro whole placed member
        exact whole placed (List.mem_append_left _ member)
      · intro whole placed member
        rcases List.mem_append.mp member with old | new
        · exact whole placed old
        · intro _
          rw [List.mem_singleton.mp new]
          rfl
  · have shut := Bool.eq_false_iff.mpr isOpen
    have silent : ChatToResponses.closeReasoningItem s = (s, []) := by
      unfold ChatToResponses.closeReasoningItem
      rw [if_pos shut]
    rw [silent]
    exact now.quiet .silent ⟨rfl, rfl, rfl, rfl, rfl, rfl, rfl, rfl, rfl, rfl⟩

/-! ### Places of new items -/

theorem mem_placesOf {place : Place} :
    place ∈ placesOf s done ↔
      (∃ placed ∈ done, placeOf placed = place) ∨ place ∈ reasoningPlace s ∨
        place ∈ messagePlace s ∨ place ∈ callPlaces s := by
  simp only [placesOf, List.mem_append, List.mem_map, or_assoc]

/-- An item that is done is reasoning, of rank 0, or a message, of rank 1. -/
theorem Recorded.rank_done (now : Recorded s added done) {placed : Placed} (member : placed ∈ done) :
    (placeOf placed).2 ≤ 1 := by
  rcases now.kinds placed member with reasoning | message
  · unfold isReasoning at reasoning
    unfold placeOf
    rw [eq_of_beq reasoning]
    exact zero_le_one
  · unfold isMessage at message
    unfold placeOf
    rw [eq_of_beq message]
    exact le_rfl

theorem rank_reasoningPlace {place : Place} (member : place ∈ reasoningPlace s) : place.2 = 0 := by
  unfold reasoningPlace at member
  split at member
  · rw [List.mem_singleton.mp member]
  · cases member

theorem rank_messagePlace {place : Place} (member : place ∈ messagePlace s) : place.2 = 1 := by
  unfold messagePlace at member
  split at member
  · rw [List.mem_singleton.mp member]
  · cases member

theorem rank_callPlaces {place : Place} (member : place ∈ callPlaces s) : place.2 = 2 := by
  obtain ⟨stored, _, rfl⟩ := List.mem_map.mp member
  rfl

theorem Recorded.rank_le (now : Recorded s added done) {place : Place}
    (member : place ∈ placesOf s done) : place.2 ≤ 2 := by
  rcases mem_placesOf.mp member with ⟨placed, isDone, rfl⟩ | reasoning | message | call
  · exact (now.rank_done isDone).trans (by decide)
  · rw [rank_reasoningPlace reasoning]
    decide
  · rw [rank_messagePlace message]
    decide
  · rw [rank_callPlaces call]

/-- No item has a rank above a message's exactly when there are no calls. -/
theorem Recorded.rank_message (now : Recorded s added done) :
    (∀ place ∈ placesOf s done, place.2 ≤ 1) ↔ s.toolCalls = [] := by
  constructor
  · intro low
    by_contra some'
    obtain ⟨stored, member⟩ := List.exists_mem_of_ne_nil _ some'
    have call : (stored.outputIndex, 2) ∈ callPlaces s := List.mem_map.mpr ⟨stored, member, rfl⟩
    have := low _ (mem_placesOf.mpr (Or.inr (Or.inr (Or.inr call))))
    omega
  · intro noCalls place member
    rcases mem_placesOf.mp member with ⟨placed, isDone, rfl⟩ | reasoning | message | call
    · exact now.rank_done isDone
    · rw [rank_reasoningPlace reasoning]
      decide
    · rw [rank_messagePlace message]
    · unfold callPlaces at call
      rw [noCalls] at call
      cases call

/-- Before the reasoning item, no item has a rank above its exactly when there is none. -/
theorem Recorded.rank_reasoning (now : Recorded s added done) (shut : s.reasoningOpen = false)
    (notDone : s.reasoningDone = false) :
    (∀ place ∈ placesOf s done, place.2 ≤ 0) ↔ s.nextOutputIndex = 0 := by
  constructor
  · intro low
    refine now.begun (List.eq_nil_iff_forall_not_mem.mpr ?_)
    intro place member
    have zero := low place member
    rcases mem_placesOf.mp member with ⟨placed, isDone, rfl⟩ | reasoning | message | call
    · rcases now.kinds placed isDone with reasoning | message
      · rw [now.no_reasoning notDone isDone] at reasoning
        cases reasoning
      · unfold isMessage at message
        unfold placeOf at zero
        rw [eq_of_beq message] at zero
        exact absurd zero Nat.one_ne_zero.bot_lt.not_ge
    · unfold reasoningPlace at reasoning
      rw [if_neg (by simp [shut])] at reasoning
      cases reasoning
    · rw [rank_messagePlace message] at zero
      omega
    · rw [rank_callPlaces call] at zero
      omega
  · intro first place member
    have bounds := now.bounds place member
    omega

/-- A new item's place under the next index. -/
theorem Recorded.inOrder_new (now : Recorded s added done) {r : ℕ} {places : List Place}
    (same : ∀ p, p ∈ places ↔ p ∈ (s.nextOutputIndex, r) :: placesOf s done) :
    InOrder places ↔ InOrder (placesOf s done) ∧ ∀ q ∈ placesOf s done, q.2 ≤ r :=
  (InOrder.congr same).trans (inOrder_cons fun q member => (now.bounds q member).2)

/-- The bounds after a new item. -/
theorem Recorded.bounds_new (now : Recorded s added done) {r : ℕ} {places : List Place}
    (same : ∀ p, p ∈ places ↔ p ∈ (s.nextOutputIndex, r) :: placesOf s done)
    (started : 0 ≤ s.nextOutputIndex) :
    (∀ p ∈ places, 0 ≤ p.1 ∧ p.1 < s.nextOutputIndex + 1) ∧
      (places = [] → s.nextOutputIndex + 1 = 0) := by
  constructor
  · intro p member
    rcases List.mem_cons.mp ((same p).mp member) with rfl | old
    · exact ⟨started, Int.lt_succ _⟩
    · have := now.bounds p old
      omega
  · intro empty
    have new := (same (s.nextOutputIndex, r)).mpr List.mem_cons_self
    rw [empty] at new
    cases new

theorem Recorded.started (now : Recorded s added done) : 0 ≤ s.nextOutputIndex := by
  cases places : placesOf s done with
  | nil => rw [now.begun places]
  | cons place rest =>
    have := now.bounds place (by rw [places]; exact List.mem_cons_self)
    omega

theorem append_ne_empty {said text : String} (fresh : text ≠ "") : said ++ text ≠ "" := by
  intro empty
  exact fresh (String.append_eq_empty_iff.mp empty).2

variable {text : String}

/-- More of a reasoning item that is open or done. -/
theorem Recorded.moreReasoning (now : Recorded s added done) (fresh : text ≠ "")
    (going : s.reasoningOpen = true ∨ s.reasoningDone = true) :
    Recorded (handleReasoning setting text s).1 added done := by
  obtain ⟨n, state⟩ := @handleReasoning_state setting s text fresh
  rw [if_pos going] at state
  obtain ⟨kinds, messages, increasing, earlier, reasonings, bounds, begun, added', reasoned, once,
    itemIDs⟩ := now
  obtain ⟨before, more, split, listed⟩ := reasonings
  rw [state]
  refine ⟨kinds, messages, increasing, earlier, ⟨before, more ++ text, ?_, listed⟩, bounds, begun,
    added', ?_, once, itemIDs⟩
  · rw [← String.append_assoc, ← split]
  · intro _
    exact ⟨append_ne_empty fresh, (reasoned going).2⟩

/-- Reasoning after its item is done is no longer what the item has. -/
theorem Recorded.not_straight (now : Recorded s added done) (fresh : text ≠ "")
    (isDone : s.reasoningDone = true) {s' : ChatCompletionsToResponsesStreamState}
    (reasoning : s'.reasoning = s.reasoning ++ text) : ¬Straight s' done := by
  obtain ⟨before, more, split, listed⟩ := now.reasonings
  rw [if_pos isDone] at listed
  have member : (s.reasoningIndex, finishedReasoning s.reasoningItemID before) ∈ done :=
    List.mem_of_mem_filter (by rw [listed]; exact List.mem_singleton_self _)
  rintro ⟨_, summaries⟩
  have same := summaries _ member rfl
  rw [reasoning] at same
  have texts : before = s.reasoning ++ text := by simpa [finishedReasoning] using same
  have lengths := congrArg String.length texts
  rw [split, String.length_append, String.length_append] at lengths
  have short : text.length = 0 := by omega
  exact fresh (String.length_eq_zero_iff.mp short)

/-- The reasoning item begins. -/
theorem Recorded.firstReasoning {n : ℤ} (now : Recorded s added done) (tidy : Tidy s)
    (fresh : text ≠ "") (shut : s.reasoningOpen = false) (notDone : s.reasoningDone = false)
    {s' : ChatCompletionsToResponsesStreamState}
    (state : s' = { openReasoning setting s with
      reasoning := s.reasoning ++ text, sequenceNumber := n }) :
    Recorded s' (added ++ [(s.nextOutputIndex, generatedItemID setting s.generated, .reasoning)])
        done ∧
      (Straight s' done ↔ Straight s done ∧ s.nextOutputIndex = 0) := by
  have unsaid := tidy.unreasoned shut notDone
  have none' : ∀ placed ∈ done, isReasoning placed = false :=
    fun placed member => now.no_reasoning notDone member
  have places (p : Place) :
      p ∈ placesOf s' done ↔ p ∈ (s.nextOutputIndex, 0) :: placesOf s done := by
    have opened : reasoningPlace s = [] := by simp [reasoningPlace, shut]
    have opened' : reasoningPlace s' = [(s.nextOutputIndex, 0)] := by
      rw [state]
      rfl
    have message : messagePlace s' = messagePlace s := by
      rw [state]
      rfl
    have calls : callPlaces s' = callPlaces s := by
      rw [state]
      rfl
    rw [List.mem_cons, mem_placesOf, mem_placesOf, opened, opened', message, calls,
      List.mem_singleton]
    simp only [List.not_mem_nil, false_or]
    exact or_left_comm
  obtain ⟨bounds', begun'⟩ := now.bounds_new places now.started
  constructor
  · obtain ⟨kinds, messages, increasing, earlier, ⟨before, more, split, listed⟩, bounds, begun,
      added', reasoned, once, itemIDs⟩ := now
    subst state
    refine ⟨kinds, messages, increasing, earlier, ⟨"", text, ?_, ?_⟩, bounds', begun', ?_, ?_, ?_,
      itemIDs⟩
    · show s.reasoning ++ text = "" ++ text
      rw [unsaid]
    · rw [listed, notDone]
      show [] = if s.reasoningDone then _ else _
      rw [notDone]
      rfl
    · have opened : reasoningKey s = [] := by simp [reasoningKey, shut]
      rw [opened, List.append_nil] at added'
      show (added ++ _).Perm (done.map keyOf ++ [_] ++ messageKey s ++ callKeys s)
      refine (added'.append_right _).trans ?_
      simp only [List.append_assoc]
      refine List.Perm.append_left _ ?_
      rw [← List.append_assoc]
      exact List.perm_append_comm
    · intro _
      exact ⟨append_ne_empty fresh, generatedItemID_ne⟩
    · intro _
      exact notDone
  · rw [straight_of_no_reasoning none', straight_of_no_reasoning none', now.inOrder_new places,
      now.rank_reasoning shut notDone]

theorem Recorded.handleReasoning (now : Recorded s added done) (tidy : Tidy s) :
    Records s added done (handleReasoning setting text s) (Keeping s (.reasoning text)) := by
  by_cases fresh : text = ""
  · have silent : ChatToResponses.handleReasoning setting text s = (s, []) := by
      unfold ChatToResponses.handleReasoning
      rw [if_pos fresh]
    rw [silent]
    exact (now.quiet .silent ⟨rfl, rfl, rfl, rfl, rfl, rfl, rfl, rfl, rfl, rfl⟩).congr
      (iff_of_true trivial (Or.inl fresh))
  obtain ⟨n, state⟩ := @handleReasoning_state setting s text fresh
  have announced := @handleReasoning_added setting s text fresh
  by_cases going : s.reasoningOpen = true ∨ s.reasoningDone = true
  · have after := @Recorded.moreReasoning setting s added done text now fresh going
    rw [if_pos going] at state announced
    have reasoning : (ChatToResponses.handleReasoning setting text s).1.reasoning =
        s.reasoning ++ text := by
      rw [state]
    constructor
    · rw [announced, handleReasoning_done, List.append_nil, List.append_nil]
      exact after
    · rw [handleReasoning_done, List.append_nil]
      rcases going with isOpen | isDone
      · have none' : ∀ placed ∈ done, isReasoning placed = false :=
          fun placed member => now.no_reasoning (now.once isOpen) member
        have places : placesOf (ChatToResponses.handleReasoning setting text s).1 done =
            placesOf s done := by
          rw [state]
          rfl
        rw [straight_of_no_reasoning none', straight_of_no_reasoning none', places]
        exact (and_iff_left (Or.inr (Or.inl isOpen))).symm
      · have wrong : ¬Keeping s (.reasoning text) := by
          rintro (nothing | isOpen | ⟨notDone, _⟩)
          · exact fresh nothing
          · rw [now.once isOpen] at isDone
            cases isDone
          · rw [isDone] at notDone
            cases notDone
        exact iff_of_false (now.not_straight fresh isDone reasoning) fun kept => wrong kept.2
  · have shut : s.reasoningOpen = false := Bool.eq_false_iff.mpr fun isOpen => going (Or.inl isOpen)
    have notDone : s.reasoningDone = false :=
      Bool.eq_false_iff.mpr fun isDone => going (Or.inr isDone)
    rw [if_neg going] at state announced
    obtain ⟨recorded, straight⟩ := now.firstReasoning tidy fresh shut notDone state
    constructor
    · rw [announced, handleReasoning_done, List.append_nil]
      exact recorded
    · rw [handleReasoning_done, List.append_nil, straight]
      refine and_congr_right fun _ => ?_
      constructor
      · intro first
        exact Or.inr (Or.inr ⟨notDone, first⟩)
      · rintro (nothing | isOpen | ⟨_, first⟩)
        · exact absurd nothing fresh
        · rw [shut] at isOpen
          cases isOpen
        · exact first

/-! ### Messages -/

/-- A message item begins. -/
theorem Recorded.firstText {n : ℤ} (now : Recorded s added done) (shut : s.messageItemID = "")
    {s' : ChatCompletionsToResponsesStreamState}
    (state : s' = { openMessage setting s with
      textPartOpen := true, text := s.text ++ text, sequenceNumber := n }) :
    Recorded s' (added ++ [(s.nextOutputIndex, generatedItemID setting s.generated, .message)])
        done ∧
      (Straight s' done ↔ Straight s done ∧ s.toolCalls = []) := by
  have places (p : Place) :
      p ∈ placesOf s' done ↔ p ∈ (s.nextOutputIndex, 1) :: placesOf s done := by
    have none' : messagePlace s = [] := by simp [messagePlace, shut]
    have new : messagePlace s' = [(s.nextOutputIndex, 1)] := by
      rw [state]
      exact if_pos generatedItemID_ne
    have reasoning : reasoningPlace s' = reasoningPlace s := by
      rw [state]
      rfl
    have calls : callPlaces s' = callPlaces s := by
      rw [state]
      rfl
    rw [List.mem_cons, mem_placesOf, mem_placesOf, none', new, reasoning, calls,
      List.mem_singleton]
    simp only [List.not_mem_nil, false_or]
    constructor
    · rintro (isDone | reasoned | message | call)
      · exact Or.inr (Or.inl isDone)
      · exact Or.inr (Or.inr (Or.inl reasoned))
      · exact Or.inl message
      · exact Or.inr (Or.inr (Or.inr call))
    · rintro (message | isDone | reasoned | call)
      · exact Or.inr (Or.inr (Or.inl message))
      · exact Or.inl isDone
      · exact Or.inr (Or.inl reasoned)
      · exact Or.inr (Or.inr (Or.inr call))
  obtain ⟨bounds', begun'⟩ := now.bounds_new places now.started
  have below : ∀ placed ∈ done, placed.1 < s.nextOutputIndex := by
    intro placed member
    exact (now.bounds (placeOf placed) (mem_placesOf.mpr (Or.inl ⟨placed, member, rfl⟩))).2
  have ordered := now.inOrder_new places
  have ranks := now.rank_message
  constructor
  · obtain ⟨kinds, messages, increasing, earlier, reasonings, bounds, begun, added', reasoned, once,
      itemIDs⟩ := now
    subst state
    refine ⟨kinds, messages, increasing, ?_, reasonings, bounds', begun', ?_, reasoned, once,
      itemIDs⟩
    · intro _ placed member _
      exact below placed member
    · have none' : messageKey s = [] := by simp [messageKey, shut]
      have new : messageKey { openMessage setting s with
          textPartOpen := true, text := s.text ++ text, sequenceNumber := n } =
          [(s.nextOutputIndex, generatedItemID setting s.generated, .message)] :=
        if_pos generatedItemID_ne
      rw [none', List.append_nil] at added'
      rw [new]
      show (added ++ _).Perm (done.map keyOf ++ reasoningKey s ++ [_] ++ callKeys s)
      refine (added'.append_right _).trans ?_
      simp only [List.append_assoc]
      exact List.Perm.append_left _ (List.Perm.append_left _ List.perm_append_comm)
  · have reasoning : s'.reasoning = s.reasoning := by
      rw [state]
      rfl
    unfold Straight
    rw [ordered, ranks, reasoning]
    tauto

/-- Text for a message item, which begins unless one is open. -/
theorem Recorded.writeText (now : Recorded s added done) :
    Records s added done (writeText setting s text) (s.messageItemID ≠ "" ∨ s.toolCalls = []) := by
  obtain ⟨n, state⟩ := writeText_state setting s text
  have announced := @writeText_added setting s text
  have finished := @writeText_done setting s text
  by_cases isOpen : s.messageItemID = ""
  · rw [if_neg (not_not.mpr isOpen)] at state announced
    obtain ⟨recorded, straight⟩ := now.firstText isOpen state
    constructor
    · rw [announced, finished, List.append_nil]
      exact recorded
    · rw [finished, List.append_nil, straight, or_iff_right (not_not.mpr isOpen)]
  · rw [if_pos isOpen] at state announced
    refine (now.quiet ⟨announced, finished⟩ ?_).congr (iff_of_true trivial (Or.inl isOpen))
    rw [state]
    exact ⟨rfl, rfl, rfl, rfl, rfl, rfl, rfl, rfl, rfl, rfl⟩

theorem Recorded.handleContent (now : Recorded s added done) :
    Records s added done (handleContent setting text s) (Keeping s (.content text)) := by
  unfold ChatToResponses.handleContent
  by_cases fresh : text = ""
  · rw [if_pos fresh]
    exact (now.quiet .silent ⟨rfl, rfl, rfl, rfl, rfl, rfl, rfl, rfl, rfl, rfl⟩).congr
      (iff_of_true trivial (Or.inl fresh))
  · rw [if_neg fresh]
    obtain ⟨n, state⟩ := closeReasoningItem_state s
    have written : Records s added done
        (andThen (ChatToResponses.closeReasoningItem s)
          fun s => ChatToResponses.writeText setting s text) _ :=
      now.closeReasoningItem.andThen fun closed => closed.writeText
    refine written.congr ?_
    rw [state]
    show True ∧ (s.messageItemID ≠ "" ∨ s.toolCalls = []) ↔
      text = "" ∨ s.messageItemID ≠ "" ∨ s.toolCalls = []
    rw [true_and, or_iff_right fresh]

/-- The open message is closed, and is no longer the open one. -/
theorem Recorded.closeMessage (now : Recorded s added done) :
    Records s added done (closeChatMessageItem s) True := by
  by_cases isOpen : s.messageItemID = ""
  · have silent : closeChatMessageItem s = (s, []) := by
      unfold closeChatMessageItem
      rw [if_pos isOpen]
    rw [silent]
    exact now.quiet .silent ⟨rfl, rfl, rfl, rfl, rfl, rfl, rfl, rfl, rfl, rfl⟩
  · obtain ⟨n, state⟩ := closeChatMessageItem_state isOpen
    have events : (closeChatMessageItem s).2 = (endMessage s).2 := by
      unfold closeChatMessageItem
      rw [if_neg isOpen]
      exact List.append_nil _
    have finished : doneItems (closeChatMessageItem s).2 = [(s.messageIndex, messageItem s)] := by
      rw [events, endMessage_done]
    have announced : addedItems (closeChatMessageItem s).2 = [] := by
      rw [events, endMessage_added]
    have open' : messagePlace s = [(s.messageIndex, 1)] := if_pos isOpen
    have places (p : Place) : p ∈ placesOf (closeChatMessageItem s).1
        (done ++ [(s.messageIndex, messageItem s)]) ↔ p ∈ placesOf s done := by
      have shut : messagePlace (closeChatMessageItem s).1 = [] := by
        rw [state]
        exact if_neg (not_not.mpr rfl)
      have reasoning : reasoningPlace (closeChatMessageItem s).1 = reasoningPlace s := by
        rw [state]
        rfl
      have calls : callPlaces (closeChatMessageItem s).1 = callPlaces s := by
        rw [state]
        rfl
      unfold placesOf
      rw [open', shut, reasoning, calls]
      simp only [List.map_append, List.map_singleton, List.mem_append, List.mem_singleton,
        List.not_mem_nil, or_false, or_assoc]
      refine or_congr_right ?_
      exact or_left_comm
    have bounds' : ∀ p ∈ placesOf (closeChatMessageItem s).1
        (done ++ [(s.messageIndex, messageItem s)]), 0 ≤ p.1 ∧ p.1 < s.nextOutputIndex :=
      fun p member => now.bounds p ((places p).mp member)
    have notReasoning : isReasoning (s.messageIndex, messageItem s) = false := rfl
    constructor
    · rw [announced, finished, List.append_nil]
      obtain ⟨kinds, messages, increasing, earlier, reasonings, bounds, begun, added', reasoned,
        once, itemIDs⟩ := now
      refine ⟨?_, ?_, ?_, ?_, ?_, ?_, ?_, ?_, ?_, ?_, ?_⟩
      · intro placed member
        rcases List.mem_append.mp member with old | new
        · exact kinds placed old
        · rw [List.mem_singleton.mp new]
          exact Or.inr rfl
      · rw [state, List.filter_append, List.map_append, messages]
        rfl
      · rw [List.filter_append]
        refine List.pairwise_append.mpr ⟨increasing, List.pairwise_singleton _ _, ?_⟩
        intro a old b new
        have latest : b = (s.messageIndex, messageItem s) :=
          List.mem_singleton.mp (List.mem_of_mem_filter new)
        rw [latest]
        exact earlier isOpen a (List.mem_of_mem_filter old) (List.of_mem_filter old)
      · rw [state]
        intro contra
        exact absurd rfl contra
      · have same : (done ++ [(s.messageIndex, messageItem s)]).filter isReasoning =
            done.filter isReasoning := by
          simp [notReasoning]
        rw [same, state]
        exact reasonings
      · rw [state] at bounds' ⊢
        exact bounds'
      · intro empty
        have place := (places (s.messageIndex, 1)).mpr
          (mem_placesOf.mpr (Or.inr (Or.inr (Or.inl (by rw [open']; exact List.mem_singleton_self _)))))
        rw [empty] at place
        cases place
      · rw [state]
        have open'' : messageKey s = [(s.messageIndex, s.messageItemID, .message)] := if_pos isOpen
        rw [open''] at added'
        show added.Perm ((done ++ [(s.messageIndex, messageItem s)]).map keyOf ++ reasoningKey s ++
          [] ++ callKeys s)
        refine added'.trans ?_
        rw [List.map_append, List.append_nil, List.append_assoc, List.append_assoc,
          List.append_assoc, List.append_assoc]
        refine List.Perm.append_left _ ?_
        rw [← List.append_assoc, ← List.append_assoc]
        exact List.Perm.append_right _ List.perm_append_comm
      · rw [state]
        exact reasoned
      · rw [state]
        exact once
      · rw [state]
        exact itemIDs
    · rw [finished, and_true]
      unfold Straight
      rw [InOrder.congr places, state]
      refine and_congr_right fun _ => ?_
      constructor
      · intro whole placed member
        exact whole placed (List.mem_append_left _ member)
      · intro whole placed member reasoning
        rcases List.mem_append.mp member with old | new
        · exact whole placed old reasoning
        · rw [List.mem_singleton.mp new, notReasoning] at reasoning
          cases reasoning

/-! ### Calls -/

/-- What a fragment makes of a known call: it stays at its place under its key, and it is announced
when its name has come. -/
theorem announcedKey_touch {call : ChatToolCall} {stored : StreamTool} :
    announcedKey (touch setting call stored) = announcedKey stored ++
      if announces setting false stored then [callKey (announcing setting false stored)]
      else [] := by
  by_cases announced : stored.announced = true
  · have silent : ¬announces setting false stored := fun speaks => speaks (Or.inl announced)
    have same : announcing setting false stored = stored := if_pos (Or.inl announced)
    rw [if_neg silent, List.append_nil]
    unfold touch
    rw [same]
    rfl
  · have silent : announcedKey stored = [] := if_neg announced
    rw [silent, List.nil_append]
    by_cases speaks : announces setting false stored
    · have becomes : announcing setting false stored = decided setting stored := if_neg speaks
      rw [if_pos speaks]
      unfold touch
      rw [becomes]
      rfl
    · have same : announcing setting false stored = stored := if_pos (not_not.mp speaks)
      rw [if_neg speaks]
      unfold touch
      rw [same]
      exact if_neg announced

theorem flatMap_change {before after : List StreamTool} {stored stored' : StreamTool}
    {more : List ItemKey} (key : announcedKey stored' = announcedKey stored ++ more) :
    ((before ++ stored' :: after).flatMap announcedKey).Perm
      ((before ++ stored :: after).flatMap announcedKey ++ more) := by
  rw [List.flatMap_append, List.flatMap_cons, List.flatMap_append, List.flatMap_cons, key]
  simp only [List.append_assoc]
  refine List.Perm.append_left _ (List.Perm.append_left _ ?_)
  exact List.perm_append_comm

/-- The calls change where they stand, and more of them are announced. -/
theorem Recorded.callsChange (now : Recorded s added done)
    {s' : ChatCompletionsToResponsesStreamState} {calls : List StreamTool} {n : ℤ}
    (state : s' = { s with toolCalls := calls, sequenceNumber := n })
    (indices : calls.map (·.outputIndex) = s.toolCalls.map (·.outputIndex))
    (itemIDs : ∀ stored ∈ calls, stored.itemID ≠ "") {more : List ItemKey}
    (keys : (calls.flatMap announcedKey).Perm (callKeys s ++ more)) :
    Recorded s' (added ++ more) done ∧ (Straight s' done ↔ Straight s done) := by
  have places : placesOf s' done = placesOf s done := by
    have calls' : callPlaces s' = callPlaces s := by
      rw [state]
      have paired := congrArg (List.map fun i : ℤ => ((i, 2) : Place)) indices
      simpa [callPlaces, List.map_map, Function.comp_def] using paired
    unfold placesOf
    rw [calls', state]
    rfl
  constructor
  · obtain ⟨kinds, messages, increasing, earlier, reasonings, bounds, begun, added', reasoned, once,
      _⟩ := now
    refine ⟨kinds, ?_, increasing, ?_, ?_, ?_, ?_, ?_, ?_, ?_, ?_⟩
    · rw [messages, state]
    · rw [state]
      exact earlier
    · rw [state]
      exact reasonings
    · rw [places, state]
      exact bounds
    · rw [places, state]
      exact begun
    · rw [state]
      show (added ++ more).Perm (done.map keyOf ++ reasoningKey s ++ messageKey s ++
        calls.flatMap announcedKey)
      refine (added'.append_right _).trans ?_
      rw [List.append_assoc]
      exact List.Perm.append_left _ keys.symm
    · rw [state]
      exact reasoned
    · rw [state]
      exact once
    · rw [state]
      exact itemIDs
  · unfold Straight
    rw [places, state]

/-- The events of a fragment whose call is stored. -/
theorem touch_events {index : ℤ} {stored : StreamTool} {arguments : String}
    (found : tool s index = some stored) :
    addedItems (andThen (announceChatToolItem setting false s index) fun s =>
        addArguments s index arguments).2 =
      (if announces setting false stored then [callKey (announcing setting false stored)]
        else []) ∧
    doneItems (andThen (announceChatToolItem setting false s index) fun s =>
        addArguments s index arguments).2 = [] := by
  dsimp only [andThen]
  rw [addedItems_append, doneItems_append, addArguments_quiet.added, addArguments_quiet.done,
    announceChatToolItem_added found, announceChatToolItem_done]
  exact ⟨List.append_nil _, rfl⟩

theorem announcing_itemID {force : Bool} {stored : StreamTool} :
    (announcing setting force stored).itemID = stored.itemID := by
  unfold announcing
  split <;> rfl

/-- A fragment of a call that is stored. -/
theorem Recorded.knownCall {call : ChatToolCall} {stored : StreamTool}
    (now : Recorded s added done) (tidy : Tidy s)
    (found : tool s (call.index.getD 0) = some stored) :
    Records s added done (handleToolCall setting s call) True := by
  obtain ⟨n, state⟩ := @handleToolCall_known setting s call stored tidy.keys found
  have found' : tool (setTool s (call.index.getD 0) (mergeCall call)) (call.index.getD 0) =
      some (mergeCall call stored) := by
    rw [tool_setTool mergeCall_index, found]
    rfl
  obtain ⟨announced, finished⟩ := @touch_events setting _ (call.index.getD 0) _
    call.function.arguments found'
  have events : (handleToolCall setting s call).2 =
      (andThen (announceChatToolItem setting false
          (setTool s (call.index.getD 0) (mergeCall call)) (call.index.getD 0)) fun s =>
        addArguments s (call.index.getD 0) call.function.arguments).2 := by
    unfold handleToolCall storeCall
    dsimp only
    rw [found]
    rfl
  rw [← events] at announced finished
  obtain ⟨same, before, after, split⟩ := tool_split found
  have calls := setTool_toolCalls tidy.keys split (touch setting call ∘ mergeCall call)
  rw [same] at calls
  have changed := @Recorded.callsChange s added done now (handleToolCall setting s call).1
    (before ++ (touch setting call ∘ mergeCall call) stored :: after) n
    (by rw [state, ← calls]; rfl)
    (by
      rw [split]
      simp only [List.map_append, List.map_cons, Function.comp_apply, touch_outputIndex]
      rfl)
    (by
      intro other member
      have known : ∀ old ∈ s.toolCalls, old.itemID ≠ "" := now.itemIDs
      rw [split] at known
      rcases List.mem_append.mp member with old | new
      · exact known other (List.mem_append_left _ old)
      · rcases List.mem_cons.mp new with rfl | old
        · show (announcing setting false (mergeCall call stored)).itemID ≠ ""
          rw [announcing_itemID]
          exact known stored (List.mem_append_right _ List.mem_cons_self)
        · exact known other (List.mem_append_right _ (List.mem_cons_of_mem _ old)))
    _ (by
      unfold callKeys
      rw [split]
      exact flatMap_change announcedKey_touch)
  constructor
  · rw [announced, finished, List.append_nil]
    exact changed.1
  · rw [finished, List.append_nil, changed.2, and_true]

/-- The first fragment of a call, once reasoning is closed. -/
theorem Recorded.newCall {n : ℤ} {call : ChatToolCall} {stored : StreamTool}
    (now : Recorded s added done) {s' : ChatCompletionsToResponsesStreamState}
    (state : s' = { takeCall setting s (call.index.getD 0) call with
      toolCalls := s.toolCalls ++ [stored], sequenceNumber := n })
    (index : stored.outputIndex = s.nextOutputIndex) (itemID : stored.itemID ≠ "") :
    Recorded s' (added ++ announcedKey stored) done ∧ (Straight s' done ↔ Straight s done) := by
  have places (p : Place) :
      p ∈ placesOf s' done ↔ p ∈ (s.nextOutputIndex, 2) :: placesOf s done := by
    have calls : callPlaces s' = callPlaces s ++ [(s.nextOutputIndex, 2)] := by
      rw [state]
      unfold callPlaces
      dsimp only
      rw [List.map_append, List.map_singleton, index]
    have reasoning : reasoningPlace s' = reasoningPlace s := by
      rw [state]
      rfl
    have message : messagePlace s' = messagePlace s := by
      rw [state]
      rfl
    unfold placesOf
    rw [calls, reasoning, message, ← List.append_assoc, List.mem_append, List.mem_singleton,
      List.mem_cons]
    exact or_comm
  obtain ⟨bounds', begun'⟩ := now.bounds_new places now.started
  have ordered := now.inOrder_new places
  have ranks : ∀ place ∈ placesOf s done, place.2 ≤ 2 := fun place member => now.rank_le member
  constructor
  · obtain ⟨kinds, messages, increasing, earlier, reasonings, bounds, begun, added', reasoned, once,
      itemIDs⟩ := now
    subst state
    refine ⟨kinds, messages, increasing, earlier, reasonings, bounds', begun', ?_, reasoned, once,
      ?_⟩
    · show (added ++ announcedKey stored).Perm (done.map keyOf ++ reasoningKey s ++ messageKey s ++
        (s.toolCalls ++ [stored]).flatMap announcedKey)
      rw [List.flatMap_append, List.flatMap_singleton, ← List.append_assoc]
      exact added'.append_right _
    · intro other member
      rcases List.mem_append.mp member with old | new
      · exact itemIDs other old
      · rw [List.mem_singleton.mp new]
        exact itemID
  · have reasoning : s'.reasoning = s.reasoning := by
      rw [state]
      rfl
    unfold Straight
    rw [ordered, reasoning, and_iff_left ranks]

theorem Recorded.handleToolCall {call : ChatToolCall} (now : Recorded s added done)
    (tidy : Tidy s) : Records s added done (handleToolCall setting s call) True := by
  cases found : tool s (call.index.getD 0) with
  | some stored => exact now.knownCall tidy found
  | none =>
    obtain ⟨m, closed⟩ := closeReasoningItem_state s
    have found₁ : tool (ChatToResponses.closeReasoningItem s).1 (call.index.getD 0) = none := by
      rw [closed]
      exact found
    have keys₁ := tidy.closeReasoningItem.keys
    have taken := @tool_takeCall setting _ call (call.index.getD 0) found₁
    have whole : ChatToResponses.handleToolCall setting s call =
        andThen (ChatToResponses.closeReasoningItem s) fun s =>
          andThen (announceChatToolItem setting false
              (takeCall setting s (call.index.getD 0) call) (call.index.getD 0))
            fun s => addArguments s (call.index.getD 0) call.function.arguments := by
      unfold ChatToResponses.handleToolCall storeCall
      dsimp only
      rw [found]
      simp [andThen]
    rw [whole]
    refine (now.closeReasoningItem.andThen fun recorded => (?_ : Records _ _ _ _ True)).congr
      (and_self_iff)
    obtain ⟨announced, finished⟩ := @touch_events setting _ (call.index.getD 0) _
      call.function.arguments taken
    obtain ⟨n, touched⟩ := @touch_state setting
      (takeCall setting (ChatToResponses.closeReasoningItem s).1 (call.index.getD 0) call)
      (call.index.getD 0) call (newCall_keys keys₁ found₁)
    have key := @announcedKey_touch setting call
      (ChatToResponses.newCall setting (ChatToResponses.closeReasoningItem s).1
        (call.index.getD 0) call)
    have calls := @setTool_toolCalls
      (takeCall setting (ChatToResponses.closeReasoningItem s).1 (call.index.getD 0) call) _ []
      (ChatToResponses.newCall setting (ChatToResponses.closeReasoningItem s).1
        (call.index.getD 0) call) (newCall_keys keys₁ found₁) rfl (touch setting call)
    have after := @Recorded.newCall setting _ _ _ n call _ recorded _
      (touched.trans (congrArg (fun calls => { takeCall setting
        (ChatToResponses.closeReasoningItem s).1 (call.index.getD 0) call with
          toolCalls := calls, sequenceNumber := n }) calls))
      touch_outputIndex (by
        show (announcing setting false _).itemID ≠ ""
        rw [announcing_itemID]
        exact generatedItemID_ne)
    constructor
    · rw [announced, finished, List.append_nil]
      have recorded' := after.1
      rw [key] at recorded'
      exact recorded'
    · rw [finished, List.append_nil, after.2, and_true]

/-! ### Inputs -/

theorem Recorded.handleInput {input : ChatInput} (now : Recorded s added done) (tidy : Tidy s) :
    Records s added done (handleInput setting s input) (Keeping s input) := by
  cases input with
  | head chunk =>
    refine now.quiet ensureCreated_quiet ?_
    obtain ⟨n, state⟩ := ensureCreated_state { s with
      responseID := if chunk.id ≠ "" ∧ s.createdSent = false then chunk.id else s.responseID
      model := if s.model = "" ∧ chunk.model ≠ "" then chunk.model else s.model
      serviceTier := if chunk.serviceTier ≠ "" then chunk.serviceTier else s.serviceTier
      usage :=
        if chunk.usage.isSome then chunk.usage.map chatUsageToResponsesUsage else s.usage }
    show SameRecord s (ensureCreated _).1
    rw [state]
    exact ⟨rfl, rfl, rfl, rfl, rfl, rfl, rfl, rfl, rfl, rfl⟩
  | reasoning text => exact now.handleReasoning tidy
  | content text => exact now.handleContent
  | toolCall call => exact now.handleToolCall tidy
  | finishReason reason =>
    refine now.quiet .silent ?_
    show SameRecord s (if reason ≠ "" then { s with finishReason := reason } else s)
    split <;> exact ⟨rfl, rfl, rfl, rfl, rfl, rfl, rfl, rfl, rfl, rfl⟩
  | closeMessage => exact now.closeMessage
  | degenerated =>
    exact now.quiet .silent ⟨rfl, rfl, rfl, rfl, rfl, rfl, rfl, rfl, rfl, rfl⟩

/-- Over a run, an input for each `keeps`. -/
theorem Records.run {ε : Type} {handle : ChatCompletionsToResponsesStreamState → ε → ChatToResponses}
    {keeps : ChatCompletionsToResponsesStreamState → ε → Prop} {inputs : List ε}
    (tidies : ∀ s e, Tidy s → Tidy (handle s e).1)
    (records : ∀ s e added done, Recorded s added done → Tidy s →
      Records s added done (handle s e) (keeps s e))
    (now : Recorded s added done) (tidy : Tidy s) :
    Records s added done (Transducer.run handle s inputs) (Throughout handle keeps s inputs) := by
  induction inputs generalizing s added done with
  | nil =>
    exact now.quiet .silent ⟨rfl, rfl, rfl, rfl, rfl, rfl, rfl, rfl, rfl, rfl⟩
  | cons e rest ih =>
    have first := records s e added done now tidy
    exact @Records.andThen s added done (handle s e) (fun s => Transducer.run handle s rest) _ _
      first fun later => ih later (tidies s e tidy)

/-- Each fragment of a chunk keeps the items in order. -/
def ActsKeeping (setting : ChatSetting) (s : ChatCompletionsToResponsesStreamState) :
    ChatAction → Prop
  | .chunk chunk => Throughout (handleInput setting) Keeping s (fragments chunk)
  | _ => True

theorem Tidy.act (tidy : Tidy s) (action : ChatAction) : Tidy (act setting s action).1 := by
  cases action with
  | chunk chunk => exact run_preserves (fun _ input tidy => tidy.handleInput input) tidy _
  | closeMessage => exact @Tidy.handleInput setting s tidy .closeMessage
  | degenerated => exact @Tidy.handleInput setting s tidy .degenerated

theorem Recorded.act {action : ChatAction} (now : Recorded s added done) (tidy : Tidy s) :
    Records s added done (act setting s action) (ActsKeeping setting s action) := by
  cases action with
  | chunk chunk =>
    exact Records.run (fun _ input tidy => tidy.handleInput input)
      (fun _ _ _ _ now tidy => now.handleInput tidy) now tidy
  | closeMessage => exact now.closeMessage
  | degenerated =>
    exact now.quiet .silent ⟨rfl, rfl, rfl, rfl, rfl, rfl, rfl, rfl, rfl, rfl⟩

end Sub2api.ApiCompat
