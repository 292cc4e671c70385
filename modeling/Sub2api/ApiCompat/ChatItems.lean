import Sub2api.ApiCompat.ChatState
import Sub2api.ApiCompat.ItemLifecycle

/-!
# The items of a converted chat stream

Reasoning, a message and any number of calls may be open at once. The slots of a state are the
indices of its items, those of calls that wait for their names included; a handler changes a slot
and `Upon` carries that to the ledger.

* `handleInput_keeps` — what a fragment of a chunk does to the ledger of the items;
* `chat_items_live` — over every stream.
-/

namespace Sub2api.ApiCompat

open Go Transducer ChatToResponses

/-! ### What is asked of the items -/

/-- Every done event repeats the deltas. -/
def Policy.repeating : Policy where
  index _ _ := true
  reasoningDone streamed text := text == streamed
  argumentsDone streamed arguments := arguments == streamed
  itemArguments streamed arguments := arguments == streamed
  searchArguments streamed arguments := arguments == streamed
  output _ _ := true

/-- As `repeating`, but blank arguments are finished as the empty object, and a tool search brings
its arguments with its done item and has no deltas. -/
def Policy.bridged : Policy :=
  { Policy.repeating with
    argumentsDone := fun streamed arguments => arguments == finishedArguments streamed
    itemArguments := fun streamed arguments => arguments == finishedArguments streamed
    searchArguments := fun streamed _ => streamed == "" }

/-! ### The slots of a state -/

variable {setting : ChatSetting} {s : ChatCompletionsToResponsesStreamState} {k : Ledger}
  {slots after : List Slot}

def liveReasoning (s : ChatCompletionsToResponsesStreamState) : OpenItem :=
  { id := s.reasoningItemID, type := .reasoning, streamed := s.reasoning }

def liveMessage (s : ChatCompletionsToResponsesStreamState) : OpenItem :=
  { id := s.messageItemID, type := .message, part := if s.textPartOpen then some s.text else none }

def liveCall (stored : StreamTool) : OpenItem :=
  { id := stored.itemID, type := itemType stored
    streamed := if stored.isCustom || stored.isToolSearch then "" else stored.arguments }

def reasoningSlot (s : ChatCompletionsToResponsesStreamState) : List Slot :=
  if s.reasoningOpen then [(s.reasoningIndex, some (liveReasoning s))] else []

def messageSlot (s : ChatCompletionsToResponsesStreamState) : List Slot :=
  if s.messageItemID ≠ "" then [(s.messageIndex, some (liveMessage s))] else []

def toolSlot (stored : StreamTool) : Slot :=
  (stored.outputIndex, if stored.announced then some (liveCall stored) else none)

def toolSlots (s : ChatCompletionsToResponsesStreamState) : List Slot := s.toolCalls.map toolSlot

def slotsOf (s : ChatCompletionsToResponsesStreamState) : List Slot :=
  reasoningSlot s ++ messageSlot s ++ toolSlots s

/-- The ledger of a running stream agrees with the state and has these slots. -/
structure Upon (slots : List Slot) (s : ChatCompletionsToResponsesStreamState) (k : Ledger) :
    Prop where
  next : k.next = s.sequenceNumber
  created : k.created = true
  running : k.ended = false
  sent : s.createdSent = true
  unfinished : s.completedSent = false
  live : Live slots s.nextOutputIndex k

/-- The fields of the state that the ledger agrees with are the same. -/
structure SamePage (s s' : ChatCompletionsToResponsesStreamState) : Prop where
  sequence : s'.sequenceNumber = s.sequenceNumber
  sent : s'.createdSent = s.createdSent
  completed : s'.completedSent = s.completedSent
  index : s'.nextOutputIndex = s.nextOutputIndex

theorem SamePage.refl : SamePage s s := ⟨rfl, rfl, rfl, rfl⟩

theorem Upon.transfer (now : Upon slots s k) {s' : ChatCompletionsToResponsesStreamState}
    (same : SamePage s s') : Upon slots s' k where
  next := now.next.trans same.sequence.symm
  created := now.created
  running := now.running
  sent := same.sent.trans now.sent
  unfinished := same.completed.trans now.unfinished
  live := by
    rw [same.index]
    exact now.live

abbrev followsChat := Ledger.follow Policy.bridged

/-! ### One event -/

variable {s' : ChatCompletionsToResponsesStreamState} {eventType : ResponsesEventType}
  {template : ResponsesStreamEvent}

/-- The event that the converter makes of a template. -/
def stamped (s : ChatCompletionsToResponsesStreamState) (eventType : ResponsesEventType)
    (template : ResponsesStreamEvent) : ResponsesStreamEvent :=
  { template with type := eventType, sequenceNumber := s.sequenceNumber }

/-- An emitted event changes the slots as the ledger's reaction does. -/
theorem event_keeps (now : Upon slots s k) (same : SamePage s s') {slots' : List Slot}
    (k' : Ledger) (reacts : k.react .bridged (stamped s' eventType template) = some k')
    (created : k'.created = k.created) (running : k'.ended = k.ended)
    (live : Live slots' s.nextOutputIndex k') :
    Keeps followsChat (Upon slots') (chatToResponsesEvent s' eventType template) k := by
  refine .one (follow_react k' (same.sequence.trans now.next.symm) now.created now.running reacts)
    ?_
  constructor
  · exact congrArg (· + 1) (now.next.trans same.sequence.symm)
  · exact created.trans now.created
  · exact running.trans now.running
  · exact same.sent.trans now.sent
  · exact same.completed.trans now.unfinished
  · show Live slots' s'.nextOutputIndex { k' with next := k.next + 1 }
    rw [same.index]
    exact live.congr rfl rfl

/-- An event about the item of a slot, which goes on as `change` says. -/
theorem write_slot (before : List Slot) {i : ℤ} {was now' : OpenItem}
    {change : OpenItem → Option OpenItem}
    (now : Upon (before ++ (i, some was) :: after) s k) (same : SamePage s s')
    (reads : ∀ k : Ledger, k.react .bridged (stamped s' eventType template) =
      k.within (stamped s' eventType template) was.type change)
    (index : template.outputIndex = i) (id : template.itemID = was.id)
    (changes : change was = some now') :
    Keeps followsChat (Upon (before ++ (i, some now') :: after))
      (chatToResponsesEvent s' eventType template) k := by
  refine event_keeps now same { k with items := Function.update k.items i (some now') } ?_ rfl rfl
    (now.live.change rfl (Or.inl rfl) (by simp))
  rw [reads]
  simp [Ledger.within, stamped, index, now.live.found, id, changes]

/-- An event that leaves the item of a slot as it is. -/
theorem keep_slot (before : List Slot) {i : ℤ} {was : OpenItem}
    {change : OpenItem → Option OpenItem} (now : Upon (before ++ (i, some was) :: after) s k)
    (same : SamePage s s')
    (reads : ∀ k : Ledger, k.react .bridged (stamped s' eventType template) =
      k.within (stamped s' eventType template) was.type change)
    (index : template.outputIndex = i) (id : template.itemID = was.id)
    (keeps : change was = some was) :
    Keeps followsChat (Upon (before ++ (i, some was) :: after))
      (chatToResponsesEvent s' eventType template) k :=
  write_slot before now same reads index id keeps

/-- The item of a slot is announced. -/
theorem announce_slot (before : List Slot) {i : ℤ} {item : ResponsesOutput}
    (now : Upon (before ++ (i, none) :: after) s k) (same : SamePage s s')
    (index : template.outputIndex = i) (carries : template.item = some item) :
    Keeps followsChat (Upon (before ++ (i, some { id := item.id, type := item.type }) :: after))
      (chatToResponsesEvent s' .outputItemAdded template) k := by
  have fresh := now.live.unannounced (i, none) (by simp) rfl
  refine event_keeps now same { k with
    items := Function.update k.items i (some { id := item.id, type := item.type })
    used := k.used ++ [i] } ?_ rfl rfl
    (now.live.change rfl (Or.inr ⟨by simp, rfl⟩) (by simp))
  simp [Ledger.react, Ledger.add, stamped, index, carries, fresh, Policy.bridged,
    Policy.repeating]

/-- The item of a slot is done. -/
theorem finish_slot (before : List Slot) {i : ℤ} {was : OpenItem} {item : ResponsesOutput}
    (now : Upon (before ++ (i, some was) :: after) s k) (same : SamePage s s')
    (index : template.outputIndex = i) (carries : template.item = some item)
    (id : item.id = was.id) (type : item.type = was.type) (part : was.part = none)
    (repeats : Policy.bridged.repeats was item = true) :
    Keeps followsChat (Upon (before ++ after)) (chatToResponsesEvent s' .outputItemDone template)
      k := by
  refine event_keeps now same { k with
    items := Function.update k.items i none
    finished := k.finished ++ [item] } ?_ rfl rfl (now.live.finish rfl rfl)
  simp [Ledger.react, Ledger.finish, stamped, index, carries, now.live.found, id, type, part,
    repeats]

/-- The next index is taken. -/
theorem Upon.reserve (before : List Slot) (now : Upon (before ++ after) s k)
    (sequence : s'.sequenceNumber = s.sequenceNumber) (sent : s'.createdSent = s.createdSent)
    (completed : s'.completedSent = s.completedSent)
    (index : s'.nextOutputIndex = s.nextOutputIndex + 1) :
    Upon (before ++ (s.nextOutputIndex, none) :: after) s' k where
  next := now.next.trans sequence.symm
  created := now.created
  running := now.running
  sent := sent.trans now.sent
  unfinished := completed.trans now.unfinished
  live := by
    rw [index]
    exact now.live.reserve

/-! ### Reasoning -/

theorem slotsOf_reasoning (isOpen : s.reasoningOpen = true) :
    slotsOf s =
      (s.reasoningIndex, some (liveReasoning s)) :: (messageSlot s ++ toolSlots s) := by
  simp [slotsOf, reasoningSlot, isOpen]

theorem slotsOf_silent (shut : s.reasoningOpen = false) :
    slotsOf s = messageSlot s ++ toolSlots s := by
  simp [slotsOf, reasoningSlot, shut]

theorem keeps_slots {out : ChatToResponses} (keeps : Keeps followsChat (Upon slots) out k)
    (same : slotsOf out.1 = slots) : Keeps followsChat (Upon (slotsOf out.1)) out k := by
  rw [same]
  exact keeps

variable {text : String}

/-- A delta of the open reasoning item. -/
theorem reasoningDelta_keeps
    (now : Upon ((s.reasoningIndex, some (liveReasoning s)) :: after) s k) :
    Keeps followsChat
      (Upon ((s.reasoningIndex,
        some { liveReasoning s with streamed := s.reasoning ++ text }) :: after))
      (chatToResponsesEvent { s with reasoning := s.reasoning ++ text } .reasoningSummaryTextDelta
        { type := .reasoningSummaryTextDelta, outputIndex := s.reasoningIndex, summaryIndex := 0
          delta := text, itemID := s.reasoningItemID }) k :=
  write_slot [] now ⟨rfl, rfl, rfl, rfl⟩ (fun _ => by rfl) (by rfl) (by rfl) (by rfl)

/-- The reasoning item is announced under the index that was taken for it. -/
theorem beginReasoning_keeps (now : Upon ((s.reasoningIndex, none) :: after) s k)
    (unsaid : s.reasoning = "") :
    Keeps followsChat (Upon ((s.reasoningIndex, some (liveReasoning s)) :: after))
      (beginReasoning s) k := by
  have item : liveReasoning s = { id := s.reasoningItemID, type := .reasoning } := by
    unfold liveReasoning
    rw [unsaid]
  rw [item]
  exact (announce_slot [] now .refl rfl rfl).andThen fun k' added =>
    write_slot [] added .refl (fun _ => by rfl) (by rfl) (by rfl) (by rfl)

theorem endReasoning_keeps
    (now : Upon ((s.reasoningIndex, some (liveReasoning s)) :: after) s k) :
    Keeps followsChat (Upon after) (endReasoning s) k := by
  have said : Keeps followsChat (Upon ((s.reasoningIndex, some (liveReasoning s)) :: after))
      (chatToResponsesEvent s .reasoningSummaryTextDone
        { type := .reasoningSummaryTextDone, outputIndex := s.reasoningIndex, summaryIndex := 0
          text := s.reasoning, itemID := s.reasoningItemID }) k := by
    refine write_slot [] now .refl (fun _ => by rfl) (by rfl) (by rfl) ?_
    simp [keepIf, Policy.bridged, Policy.repeating, stamped, liveReasoning]
  refine said.andThen fun k' now => ?_
  have partDone : Keeps followsChat (Upon ((s.reasoningIndex, some (liveReasoning s)) :: after))
      (chatToResponsesEvent { s with sequenceNumber := s.sequenceNumber + 1 }
        .reasoningSummaryPartDone
        { type := .reasoningSummaryPartDone, outputIndex := s.reasoningIndex, summaryIndex := 0
          itemID := s.reasoningItemID
          part := some { type := .summaryText, text := s.reasoning } }) k' := by
    refine write_slot [] now .refl (fun _ => by rfl) (by rfl) (by rfl) ?_
    simp [keepIf, stamped, liveReasoning]
  refine partDone.andThen fun k'' now => ?_
  refine finish_slot [] now .refl rfl rfl rfl rfl rfl ?_
  simp [Policy.repeats, liveReasoning, chatToResponsesEvent]

/-- Reasoning that comes while its item is not done. -/
theorem handleReasoning_keeps (now : Upon (slotsOf s) s k)
    (fine : text = "" ∨ s.reasoningDone = false)
    (unsaid : s.reasoningOpen = false → s.reasoningDone = false → s.reasoning = "") :
    Keeps followsChat (Upon (slotsOf (handleReasoning setting text s).1))
      (handleReasoning setting text s) k := by
  unfold handleReasoning
  split
  · exact .silent now
  · rename_i fresh
    have notDone := fine.resolve_left fresh
    unfold ensureReasoningItem
    by_cases isOpen : s.reasoningOpen = true
    · rw [if_pos (Or.inl isOpen)]
      rw [slotsOf_reasoning isOpen] at now
      exact keeps_slots ((Keeps.silent now).andThen fun k' now => reasoningDelta_keeps now)
        (slotsOf_reasoning isOpen)
    · rw [if_neg (by simp [isOpen, notDone])]
      have shut := Bool.eq_false_iff.mpr isOpen
      rw [slotsOf_silent shut] at now
      have taken : Upon
          (((openReasoning setting s).reasoningIndex, none) :: (messageSlot s ++ toolSlots s))
          (openReasoning setting s) k := now.reserve [] rfl rfl rfl rfl
      have began := beginReasoning_keeps taken (unsaid shut notDone)
      exact keeps_slots (began.andThen fun k' opened => reasoningDelta_keeps opened)
        (slotsOf_reasoning rfl)

theorem closeReasoningItem_keeps (now : Upon (slotsOf s) s k) :
    Keeps followsChat (Upon (messageSlot s ++ toolSlots s)) (closeReasoningItem s) k := by
  unfold closeReasoningItem
  split
  · rename_i shut
    rw [slotsOf_silent shut] at now
    exact .silent now
  · rename_i isOpen
    rw [slotsOf_reasoning (by simpa using isOpen)] at now
    exact endReasoning_keeps (now.transfer ⟨rfl, rfl, rfl, rfl⟩)

/-! ### Text -/

theorem messageSlot_open (isOpen : s.messageItemID ≠ "") :
    messageSlot s = [(s.messageIndex, some (liveMessage s))] := if_pos isOpen

theorem messageSlot_none (shut : s.messageItemID = "") : messageSlot s = [] := by
  simp [messageSlot, shut]

/-- A message item is open between other slots. -/
structure WithMessage (before after : List Slot) (s : ChatCompletionsToResponsesStreamState)
    (k : Ledger) : Prop where
  opened : s.messageItemID ≠ ""
  unsaid : s.textPartOpen = false → s.text = ""
  upon : Upon (before ++ (s.messageIndex, some (liveMessage s)) :: after) s k

/-- Its part is open too. -/
structure Writing (before after : List Slot) (s : ChatCompletionsToResponsesStreamState)
    (k : Ledger) : Prop where
  opened : s.messageItemID ≠ ""
  part : s.textPartOpen = true
  upon : Upon (before ++ (s.messageIndex, some (liveMessage s)) :: after) s k

variable {before : List Slot}

theorem ensureMessageItem_keeps (now : Upon (before ++ messageSlot s ++ after) s k)
    (noPart : s.messageItemID = "" → s.textPartOpen = false)
    (unsaid : s.textPartOpen = false → s.text = "") :
    Keeps followsChat (WithMessage before after) (ensureMessageItem setting s) k := by
  unfold ensureMessageItem
  split
  · rename_i isOpen
    rw [messageSlot_open isOpen, List.append_assoc] at now
    exact .silent ⟨isOpen, unsaid, now⟩
  · rename_i shut
    have absent := not_not.mp shut
    rw [messageSlot_none absent, List.append_nil] at now
    have taken : Upon (before ++ ((openMessage setting s).messageIndex, none) :: after)
        (openMessage setting s) k := now.reserve before rfl rfl rfl rfl
    have item : liveMessage (openMessage setting s) =
        { id := generatedItemID setting s.generated, type := .message } := by
      simp [liveMessage, openMessage, noPart absent]
    have began : Keeps followsChat _ (beginMessage (openMessage setting s)) k :=
      announce_slot before taken .refl rfl rfl
    refine began.mono fun k' opened => ⟨generatedItemID_ne, unsaid, ?_⟩
    show Upon (before ++ ((openMessage setting s).messageIndex,
      some (liveMessage (openMessage setting s))) :: after) _ _
    rw [item]
    exact opened

theorem ensureTextPart_keeps (now : WithMessage before after s k) :
    Keeps followsChat (Writing before after) (ensureTextPart s) k := by
  unfold ensureTextPart
  split
  · rename_i isOpen
    exact .silent ⟨now.opened, isOpen, now.upon⟩
  · rename_i shut
    have noPart := Bool.eq_false_iff.mpr shut
    have added : Keeps followsChat
        (Upon (before ++ (s.messageIndex, some { liveMessage s with part := some "" }) :: after))
        (chatToResponsesEvent { s with textPartOpen := true } .contentPartAdded
          { type := .contentPartAdded, outputIndex := s.messageIndex, contentIndex := 0
            itemID := s.messageItemID, part := some { type := .outputText, text := "" } }) k := by
      refine write_slot before now.upon ⟨rfl, rfl, rfl, rfl⟩ (fun _ => by rfl) (by rfl) (by rfl) ?_
      simp [liveMessage, noPart, stamped]
    refine added.mono fun k' upon => ⟨now.opened, rfl, ?_⟩
    have item : liveMessage { s with textPartOpen := true, sequenceNumber := s.sequenceNumber + 1 } =
        { liveMessage s with part := some "" } := by
      simp [liveMessage, now.unsaid noPart]
    show Upon (before ++ (s.messageIndex, some (liveMessage
      { s with textPartOpen := true, sequenceNumber := s.sequenceNumber + 1 })) :: after) _ _
    rw [item]
    exact upon

theorem messageDelta_keeps (now : Writing before after s k) :
    Keeps followsChat (Writing before after) (textDelta s text) k := by
  have written : Keeps followsChat
      (Upon (before ++ (s.messageIndex,
        some { liveMessage s with part := some (s.text ++ text) }) :: after))
      (textDelta s text) k := by
    refine write_slot before now.upon ⟨rfl, rfl, rfl, rfl⟩ (fun _ => by rfl) (by rfl) (by rfl) ?_
    simp [liveMessage, now.part, stamped, OpenItem.inPart]
  refine written.mono fun k' upon => ⟨now.opened, now.part, ?_⟩
  have item : liveMessage (textDelta s text).1 =
      { liveMessage s with part := some (s.text ++ text) } := by
    simp [liveMessage, textDelta, chatToResponsesEvent, now.part]
  rw [item]
  exact upon

/-- Text goes into the open message, or into a new one. -/
theorem writeText_keeps (now : Upon (before ++ messageSlot s ++ after) s k)
    (noPart : s.messageItemID = "" → s.textPartOpen = false)
    (unsaid : s.textPartOpen = false → s.text = "") :
    Keeps followsChat (Writing before after) (writeText setting s text) k :=
  (ensureMessageItem_keeps now noPart unsaid).andThen fun _ opened =>
    (ensureTextPart_keeps opened).andThen fun _ writing => messageDelta_keeps writing

theorem endPart_keeps (now : Writing before after s k) :
    Keeps followsChat
      (Upon (before ++ (s.messageIndex,
        some { id := s.messageItemID, type := .message, parts := [s.text] }) :: after))
      (endPart s) k := by
  have said : Keeps followsChat
      (Upon (before ++ (s.messageIndex, some (liveMessage s)) :: after))
      (chatToResponsesEvent s .outputTextDone
        { type := .outputTextDone, outputIndex := s.messageIndex, contentIndex := 0
          text := s.text, itemID := s.messageItemID }) k := by
    refine write_slot before now.upon .refl (fun _ => by rfl) (by rfl) (by rfl) ?_
    simp [liveMessage, now.part, stamped, OpenItem.inPart, keepIf]
  refine said.andThen fun k' upon => ?_
  refine write_slot before upon .refl (fun _ => by rfl) (by rfl) (by rfl) ?_
  simp [liveMessage, now.part, stamped, OpenItem.inPart, chatToResponsesEvent]

theorem endMessage_keeps (now : Writing before after s k) :
    Keeps followsChat (Upon (before ++ after)) (endMessage s) k := by
  unfold endMessage
  rw [if_pos now.part]
  refine (endPart_keeps now).andThen fun k' ended => ?_
  refine finish_slot before ended .refl rfl rfl rfl rfl rfl ?_
  simp [Policy.repeats, messageItem, endPart, andThen, chatToResponsesEvent]

/-! ### Between handlers -/

/-- Between handlers the ledger agrees with the state. -/
structure UpToDate (s : ChatCompletionsToResponsesStreamState) (k : Ledger) : Prop where
  tidy : Tidy s
  upon : Upon (slotsOf s) s k

theorem UpToDate.transfer (now : UpToDate s k) (tidy : Tidy s') (same : SamePage s s')
    (slots : slotsOf s' = slotsOf s) : UpToDate s' k where
  tidy := tidy
  upon := by
    rw [slots]
    exact now.upon.transfer same

/-- The open message of a tidy state is being written. -/
theorem Writing.of_tidy (tidy : Tidy s) (isOpen : s.messageItemID ≠ "")
    (upon : Upon (before ++ messageSlot s ++ after) s k) : Writing before after s k := by
  rw [messageSlot_open isOpen, List.append_assoc] at upon
  exact ⟨isOpen, tidy.part.mp isOpen, upon⟩

theorem Writing.upon' (now : Writing before after s k) :
    Upon (before ++ messageSlot s ++ after) s k := by
  rw [messageSlot_open now.opened, List.append_assoc]
  exact now.upon

theorem writeText_tidy_keeps (tidy : Tidy s) (now : Upon (before ++ messageSlot s ++ after) s k) :
    Keeps followsChat (Writing before after) (writeText setting s text) k := by
  refine writeText_keeps now ?_ ?_
  · intro absent
    by_contra isOpen
    exact tidy.part.mpr (Bool.of_not_eq_false isOpen) absent
  · intro noPart
    refine tidy.unsaid ?_
    by_contra isOpen
    have := tidy.part.mp isOpen
    rw [noPart] at this
    cases this

theorem handleContent_keeps (now : UpToDate s k) :
    Keeps followsChat UpToDate (handleContent setting text s) k := by
  unfold handleContent
  split
  · exact .silent now
  · have tidy := now.tidy.closeReasoningItem
    obtain ⟨n, closed⟩ := closeReasoningItem_state s
    refine (closeReasoningItem_keeps now.upon).andThen fun k' upon => ?_
    have upon' : Upon ([] ++ messageSlot (closeReasoningItem s).1 ++ toolSlots s)
        (closeReasoningItem s).1 k' := by
      rw [closed] at upon ⊢
      exact upon
    refine (writeText_tidy_keeps tidy upon').mono fun k'' writing => ⟨tidy.writeText, ?_⟩
    have silent : (writeText setting (closeReasoningItem s).1 text).1.reasoningOpen = false := by
      obtain ⟨m, written⟩ := writeText_state setting (closeReasoningItem s).1 text
      rw [written, closed]
      dsimp only
      split <;> rfl
    have calls : toolSlots (writeText setting (closeReasoningItem s).1 text).1 = toolSlots s := by
      obtain ⟨m, written⟩ := writeText_state setting (closeReasoningItem s).1 text
      rw [written, closed]
      unfold toolSlots
      dsimp only
      split <;> rfl
    rw [slotsOf_silent silent, calls]
    exact writing.upon'

theorem closeChatMessageItem_keeps (now : UpToDate s k) :
    Keeps followsChat UpToDate (closeChatMessageItem s) k := by
  by_cases absent : s.messageItemID = ""
  · unfold closeChatMessageItem
    rw [if_pos absent]
    exact .silent now
  · have tidy := now.tidy.closeMessage
    obtain ⟨n, closed⟩ := closeChatMessageItem_state absent
    have writing : Writing (reasoningSlot s) (toolSlots s) s k := .of_tidy now.tidy absent now.upon
    have ended : Keeps followsChat (Upon (reasoningSlot s ++ toolSlots s)) (closeChatMessageItem s)
        k := by
      unfold closeChatMessageItem
      rw [if_neg absent]
      exact (endMessage_keeps writing).andThen fun k' upon =>
        .silent (upon.transfer ⟨rfl, rfl, rfl, rfl⟩)
    refine ended.mono fun k' upon => ⟨tidy, ?_⟩
    have slots : slotsOf (closeChatMessageItem s).1 = reasoningSlot s ++ toolSlots s := by
      rw [closed]
      unfold slotsOf
      rw [messageSlot_none rfl, List.append_nil]
      rfl
    rw [slots]
    exact upon

/-! ### Calls -/

/-- An announcement gives the slot of a call its item, with the arguments so far. -/
theorem announceChatToolItem_keeps {force : Bool} {index : ℤ} {stored : StreamTool}
    (found : tool s index = some stored)
    (now : Upon (before ++ toolSlot stored :: after) s k) :
    Keeps followsChat (Upon (before ++ toolSlot (announcing setting force stored) :: after))
      (announceChatToolItem setting force s index) k := by
  unfold announceChatToolItem announcing
  rw [found]
  dsimp only
  by_cases announced : stored.announced = true
  · rw [if_pos announced, if_pos (Or.inl announced)]
    exact .silent now
  · rw [if_neg announced]
    by_cases waits : force = false ∧ stored.name = "" ∧ telling setting.tools = true
    · rw [if_pos waits, if_pos (Or.inr waits)]
      exact .silent now
    · rw [if_neg waits, if_neg (not_or.mpr ⟨announced, waits⟩)]
      have unannounced : toolSlot stored = (stored.outputIndex, none) := by
        simp [toolSlot, announced]
      rw [unannounced] at now
      have added : Keeps followsChat _ (chatToResponsesEvent
          (setTool s stored.index (decided setting)) .outputItemAdded
          { type := .outputItemAdded, outputIndex := stored.outputIndex
            item := some (announcedItem setting stored) }) k :=
        announce_slot before now ⟨rfl, rfl, rfl, rfl⟩ rfl rfl
      refine added.andThen fun k' began => ?_
      split
      · rename_i plain
        have type : itemType (decided setting stored) = .functionCall := by
          simp [itemType, plain.1, plain.2.1]
        have slot : toolSlot (decided setting stored) = (stored.outputIndex, some
            { id := stored.itemID, type := .functionCall
              streamed := "" ++ stored.arguments }) := by
          simp [toolSlot, liveCall, plain.1, plain.2.1, type]
          simp [decided]
        rw [show (announcedItem setting stored).type = .functionCall from type] at began
        rw [slot]
        exact write_slot before began .refl (fun _ => by rfl) (by rfl) (by rfl) (by rfl)
      · rename_i kept
        have slot : toolSlot (decided setting stored) = (stored.outputIndex, some
            { id := (announcedItem setting stored).id
              type := (announcedItem setting stored).type }) := by
          simp only [not_and, ne_eq, not_not] at kept
          have streamed : (if (decided setting stored).isCustom || (decided setting stored).isToolSearch
              then "" else stored.arguments) = "" := by
            by_cases custom : (decided setting stored).isCustom = true
            · simp [custom]
            · by_cases search : (decided setting stored).isToolSearch = true
              · simp [search]
              · simp [custom, search,
                  kept (Bool.eq_false_iff.mpr custom) (Bool.eq_false_iff.mpr search)]
          unfold toolSlot liveCall
          rw [if_pos (show (decided setting stored).announced = true from rfl)]
          rw [show (decided setting stored).arguments = stored.arguments from rfl, streamed]
          rfl
        rw [slot]
        exact .silent began

/-- More arguments go out at once, unless their item takes them later. -/
theorem addArguments_keeps {index : ℤ} {arguments : String} {stored : StreamTool}
    (found : tool s index = some stored) (now : Upon (before ++ toolSlot stored :: after) s k) :
    Keeps followsChat (Upon (before ++ toolSlot (appendArguments arguments stored) :: after))
      (addArguments s index arguments) k := by
  unfold addArguments
  rw [found]
  dsimp only
  split
  · rename_i nothing
    rw [nothing, appendArguments_nil]
    exact .silent now
  · split
    · rename_i plain
      have item : liveCall stored =
          { id := stored.itemID, type := .functionCall, streamed := stored.arguments } := by
        simp [liveCall, itemType, plain.2.1, plain.2.2]
      have item' : liveCall (appendArguments arguments stored) =
          { id := stored.itemID, type := .functionCall
            streamed := stored.arguments ++ arguments } := by
        simp [liveCall, itemType, appendArguments, plain.2.1, plain.2.2]
      have announced : (appendArguments arguments stored).announced = true := plain.1
      unfold toolSlot at now ⊢
      rw [if_pos plain.1, item] at now
      rw [if_pos announced, item']
      exact write_slot before now ⟨rfl, rfl, rfl, rfl⟩ (fun _ => by rfl) (by rfl) (by rfl) (by rfl)
    · rename_i kept
      have slot : toolSlot (appendArguments arguments stored) = toolSlot stored := by
        simp only [not_and, Bool.not_eq_false] at kept
        by_cases announced : stored.announced = true
        · by_cases custom : stored.isCustom = true
          · simp [toolSlot, liveCall, itemType, appendArguments, custom]
          · have search := kept announced (Bool.eq_false_iff.mpr custom)
            simp [toolSlot, liveCall, itemType, appendArguments, search]
        · simp [toolSlot, appendArguments, announced]
      rw [slot]
      exact .silent (now.transfer ⟨rfl, rfl, rfl, rfl⟩)

theorem toolSlot_mergeCall {call : ChatToolCall} {stored : StreamTool} :
    toolSlot (mergeCall call stored) = toolSlot stored := rfl

/-- What follows the storing of a fragment's call happens in that call's slot. -/
theorem touch_keeps {index : ℤ} {call : ChatToolCall} {stored : StreamTool}
    (keys : (s.toolCalls.map (·.index)).Nodup) (found : tool s index = some stored)
    (now : Upon (before ++ toolSlot stored :: after) s k) :
    Keeps followsChat (Upon (before ++ toolSlot (touch setting call stored) :: after))
      (andThen (announceChatToolItem setting false s index) fun s =>
        addArguments s index call.function.arguments) k := by
  refine (announceChatToolItem_keeps found now).andThen fun k' announced => ?_
  refine addArguments_keeps ?_ announced
  obtain ⟨n, state⟩ := @announceChatToolItem_state setting s false index keys
  rw [state]
  have changed := @tool_setTool s index (announcing setting false) announcing_index
  rw [found] at changed
  exact changed

/-- The slots around that of a stored call. -/
theorem slotsOf_split {calls later : List StreamTool} {stored : StreamTool}
    (split : s.toolCalls = calls ++ stored :: later) :
    slotsOf s = (reasoningSlot s ++ messageSlot s ++ calls.map toolSlot) ++
      toolSlot stored :: later.map toolSlot := by
  unfold slotsOf toolSlots
  rw [split, List.map_append, List.map_cons, List.append_assoc _ (calls.map toolSlot)]

theorem handleToolCall_keeps {call : ChatToolCall} (now : UpToDate s k) :
    Keeps followsChat UpToDate (handleToolCall setting s call) k := by
  have tidy := @Tidy.handleToolCall setting s call now.tidy
  cases found : tool s (call.index.getD 0) with
  | some stored =>
    obtain ⟨n, state⟩ := @handleToolCall_known setting s call stored now.tidy.keys found
    obtain ⟨index, calls, later, split⟩ := tool_split found
    have merged : Tidy (setTool s (call.index.getD 0) (mergeCall call)) :=
      now.tidy.setTool mergeCall_index (fun _ => rfl) fun _ one => one
    have found' := @tool_setTool s (call.index.getD 0) (mergeCall call) mergeCall_index
    rw [found, Option.map_some] at found'
    have upon := now.upon
    rw [slotsOf_split split, ← @toolSlot_mergeCall call stored] at upon
    have upon' : Upon _ (setTool s (call.index.getD 0) (mergeCall call)) k :=
      upon.transfer ⟨rfl, rfl, rfl, rfl⟩
    have touched : Keeps followsChat (Upon
        (reasoningSlot s ++ messageSlot s ++ calls.map toolSlot ++
          toolSlot (touch setting call (mergeCall call stored)) :: later.map toolSlot))
        (handleToolCall setting s call) k := by
      unfold handleToolCall storeCall
      dsimp only
      rw [found]
      exact (Keeps.silent upon').andThen fun k' now => touch_keeps merged.keys found' now
    refine touched.mono fun k' upon => ⟨tidy, ?_⟩
    have calls' : (handleToolCall setting s call).1.toolCalls =
        calls ++ touch setting call (mergeCall call stored) :: later := by
      rw [state, ← index]
      exact setTool_toolCalls now.tidy.keys split (touch setting call ∘ mergeCall call)
    rw [slotsOf_split calls']
    rw [state] at upon ⊢
    exact upon
  | none =>
    obtain ⟨n, state⟩ := @handleToolCall_new setting s call now.tidy.keys found
    have closing := closeReasoningItem_keeps now.upon
    obtain ⟨m, closed⟩ := closeReasoningItem_state s
    have stored : (storeCall setting s (call.index.getD 0) call).1 =
        takeCall setting (closeReasoningItem s).1 (call.index.getD 0) call := by
      unfold storeCall
      rw [found]
      rfl
    have taken : Keeps followsChat
        (Upon ((messageSlot s ++ toolSlots s) ++
          toolSlot (newCall setting s (call.index.getD 0) call) :: []))
        (storeCall setting s (call.index.getD 0) call) k := by
      unfold storeCall
      rw [found]
      refine closing.andThen fun k' upon => .silent ?_
      rw [← List.append_nil (messageSlot s ++ toolSlots s)] at upon
      rw [closed] at upon ⊢
      exact upon.reserve (messageSlot s ++ toolSlots s) rfl rfl rfl rfl
    have keys : ((storeCall setting s (call.index.getD 0) call).1.toolCalls.map
        (·.index)).Nodup := by
      rw [stored, closed]
      exact newCall_keys now.tidy.keys found
    have found' : tool (storeCall setting s (call.index.getD 0) call).1 (call.index.getD 0) =
        some (newCall setting s (call.index.getD 0) call) := by
      rw [stored, closed]
      exact tool_takeCall found
    have touched : Keeps followsChat (Upon ((messageSlot s ++ toolSlots s) ++
        toolSlot (touch setting call (newCall setting s (call.index.getD 0) call)) :: []))
        (handleToolCall setting s call) k :=
      taken.andThen fun k' now => touch_keeps keys found' now
    refine touched.mono fun k' upon => ⟨tidy, ?_⟩
    have slots : slotsOf (handleToolCall setting s call).1 = (messageSlot s ++ toolSlots s) ++
        toolSlot (touch setting call (newCall setting s (call.index.getD 0) call)) :: [] := by
      rw [state]
      rw [slotsOf_silent rfl]
      unfold toolSlots
      dsimp only
      rw [List.map_append, ← List.append_assoc]
      rfl
    rw [slots]
    exact upon

/-! ### The end -/

/-- The events that end a call leave its slot empty. -/
theorem endTool_keeps {stored : StreamTool} (one : OneType stored)
    (announced : stored.announced = true)
    (now : Upon (before ++ toolSlot stored :: after) s k) :
    Keeps followsChat (Upon (before ++ after)) (endTool setting s stored) k := by
  unfold toolSlot at now
  rw [if_pos announced] at now
  unfold endTool
  by_cases custom : stored.isCustom = true
  · have item : liveCall stored = { id := stored.itemID, type := .customToolCall } := by
      simp [liveCall, itemType, custom, one custom]
    rw [item] at now
    dsimp only
    rw [if_pos custom]
    have input : Keeps followsChat (Upon (before ++ (stored.outputIndex, some
        { id := stored.itemID, type := .customToolCall
          streamed := (toolItem setting stored stored.itemID).input }) :: after))
        (if (toolItem setting stored stored.itemID).input ≠ "" then
          chatToResponsesEvent s .customToolCallInputDelta
            { type := .customToolCallInputDelta, outputIndex := stored.outputIndex
              itemID := stored.itemID
              delta := (toolItem setting stored stored.itemID).input }
        else (s, [])) k := by
      split
      · refine write_slot before now .refl (fun _ => by rfl) (by rfl) (by rfl) ?_
        simp [stamped]
      · rename_i empty
        rw [not_not.mp empty]
        exact .silent now
    refine input.andThen fun k' sent => ?_
    refine Keeps.andThen (keep_slot before sent .refl (fun _ => by rfl) (by rfl) (by rfl) ?_)
      fun k'' said => finish_slot before said .refl rfl rfl ?_ ?_ rfl ?_
    · simp [keepIf, stamped]
    · simp [toolItem, custom]
    · simp [toolItem, custom]
    · simp [Policy.repeats]
  · dsimp only
    rw [if_neg custom]
    by_cases search : stored.isToolSearch = true
    · have item : liveCall stored = { id := stored.itemID, type := .toolSearchCall } := by
        simp [liveCall, itemType, search]
      rw [item] at now
      rw [if_pos search]
      refine finish_slot before now .refl rfl rfl ?_ ?_ rfl ?_
      · simp [toolItem, custom, search]
      · simp [toolItem, custom, search]
      · simp [Policy.repeats, Policy.bridged]
    · have item : liveCall stored =
          { id := stored.itemID, type := .functionCall, streamed := stored.arguments } := by
        simp [liveCall, itemType, custom, search]
      have arguments : (toolItem setting stored stored.itemID).arguments =
          finishedArguments stored.arguments := by
        simp [toolItem, custom, search]
      rw [item] at now
      rw [if_neg search]
      refine Keeps.andThen (keep_slot before now .refl (fun _ => by rfl) (by rfl) (by rfl) ?_)
        fun k' said => finish_slot before said .refl rfl rfl ?_ ?_ rfl ?_
      · simp [keepIf, stamped, Policy.bridged, arguments]
      · simp [toolItem, custom, search]
      · simp [toolItem, custom, search]
      · simp [Policy.repeats, Policy.bridged, arguments]

theorem announcing_announced {stored : StreamTool} :
    (announcing setting true stored).announced = true := by
  unfold announcing
  split
  · rename_i already
    rcases already with announced | ⟨contra, _⟩
    · exact announced
    · cases contra
  · rfl

theorem closeTool_keeps {stored : StreamTool} (tidy : Tidy s)
    (found : tool s stored.index = some stored)
    (now : Upon (before ++ toolSlot stored :: after) s k) :
    Keeps followsChat (Upon (before ++ after)) (closeTool setting s stored.index) k := by
  refine (announceChatToolItem_keeps found now).andThen fun k' announced => ?_
  obtain ⟨n, state⟩ := @announceChatToolItem_state setting s true stored.index tidy.keys
  have found' : tool (announceChatToolItem setting true s stored.index).1 stored.index =
      some (announcing setting true stored) := by
    rw [state]
    have changed := @tool_setTool s stored.index (announcing setting true) announcing_index
    rw [found] at changed
    exact changed
  rw [found']
  have one := tidy.types stored (List.mem_of_find?_eq_some found)
  exact endTool_keeps (oneType_announcing one) announcing_announced announced

/-- Every call is closed, one after the other. -/
theorem closeTools_keeps {calls : List StreamTool} (tidy : Tidy s)
    (found : ∀ stored ∈ calls, tool s stored.index = some stored)
    (keys : (calls.map (·.index)).Nodup) (now : Upon (calls.map toolSlot) s k) :
    Keeps followsChat (Upon []) (run (closeTool setting) s (calls.map (·.index))) k := by
  induction calls generalizing s k with
  | nil => exact .silent now
  | cons stored rest ih =>
    obtain ⟨n, state⟩ := @closeTool_state setting s stored.index tidy.keys
    have changed : Tidy (setTool s stored.index (announcing setting true)) :=
      tidy.setTool announcing_index (fun _ => announcing_outputIndex)
        fun _ one => oneType_announcing one
    refine Keeps.run (@closeTool_keeps setting s k _ [] stored tidy (found stored (by simp)) now)
      fun k' closed => ih ?_ ?_ (List.nodup_cons.mp keys).2 closed
    · rw [state]
      obtain ⟨part, unsaid, unreasoned, keys, below, ordered, types⟩ := changed
      exact ⟨part, unsaid, unreasoned, keys, below, ordered, types⟩
    · intro other member
      have apart : other.index ≠ stored.index := by
        intro same
        exact (List.nodup_cons.mp keys).1 (List.mem_map.mpr ⟨other, member, same⟩)
      rw [state]
      exact (tool_setTool_ne announcing_index apart).trans (found other (by simp [member]))

theorem tool_of_mem {stored : StreamTool} (keys : (s.toolCalls.map (·.index)).Nodup)
    (member : stored ∈ s.toolCalls) : tool s stored.index = some stored := by
  cases found : tool s stored.index with
  | none => exact absurd (List.mem_map.mpr ⟨stored, member, rfl⟩) (absent_index found)
  | some other =>
    have index := (tool_split found).1
    exact congrArg some (List.inj_on_of_nodup_map keys (List.mem_of_find?_eq_some found) member
      index)

theorem ordered_indices (tidy : Tidy s) :
    orderedToolCallIndices s = s.toolCalls.map (·.index) := by
  unfold orderedToolCallIndices
  rw [(tidy.ordered.imp fun before => le_of_lt before).insertionSort_eq]

theorem closeChatToolItems_keeps (tidy : Tidy s) (now : Upon (toolSlots s) s k) :
    Keeps followsChat (Upon []) (closeChatToolItems setting s) k := by
  unfold closeChatToolItems
  rw [ordered_indices tidy]
  exact closeTools_keeps tidy (fun stored member => tool_of_mem tidy.keys member) tidy.keys now

theorem completeResponse_keeps (now : Upon [] s k) :
    Keeps followsChat (fun _ k' => k'.ended = true) (completeResponse setting s) k := by
  unfold completeResponse
  dsimp only
  refine .one (follow_react { k with ended := true } now.next.symm now.created now.running ?_) rfl
  rw [react_terminal]
  · simp [Ledger.endResponse, now.live.none_open, Policy.bridged, Policy.repeating]
  · show (if s.finishReason = "length" then ResponsesEventType.incomplete
      else .completed).terminal = true
    split <;> rfl

/-- Nothing was emitted yet. -/
structure Beginning (s : ChatCompletionsToResponsesStreamState) (k : Ledger) : Prop where
  ledger : k = {}
  tidy : Tidy s
  sent : s.createdSent = false
  unfinished : s.completedSent = false
  sequence : s.sequenceNumber = 0
  index : s.nextOutputIndex = 0
  silent : s.reasoningOpen = false
  message : s.messageItemID = ""
  calls : s.toolCalls = []

/-- What holds between the actions of the caller. -/
def Afoot (s : ChatCompletionsToResponsesStreamState) (k : Ledger) : Prop :=
  Beginning s k ∨ UpToDate s k

theorem ensureCreated_keeps (now : Afoot s k) : Keeps followsChat UpToDate (ensureCreated s) k := by
  unfold ensureCreated
  rcases now with start | now
  · rw [if_neg (by simp [start.sent])]
    obtain ⟨rfl, tidy, sent, unfinished, sequence, index, silent, message, calls⟩ := start
    have slots : slotsOf s = [] := by
      rw [slotsOf_silent silent, messageSlot_none message]
      unfold toolSlots
      rw [calls]
      rfl
    obtain ⟨part, unsaid, unreasoned, keys, below, ordered, types⟩ := tidy
    refine ⟨{ next := 1, created := true }, ?_,
      ⟨part, unsaid, unreasoned, keys, below, ordered, types⟩, ?_⟩
    · simp [chatToResponsesEvent, Ledger.follow, sequence]
    · show Upon (slotsOf s) _ _
      rw [slots]
      refine ⟨?_, rfl, rfl, rfl, unfinished, ?_⟩
      · show 1 = s.sequenceNumber + 1
        rw [sequence]
        rfl
      · show Live [] s.nextOutputIndex _
        rw [index]
        exact Live.start.congr rfl rfl
  · rw [if_pos now.upon.sent]
    exact .silent now

theorem handleHead_keeps {chunk : ChatCompletionsChunk} (now : Afoot s k) :
    Keeps followsChat UpToDate (handleHead chunk s) k := by
  refine ensureCreated_keeps ?_
  rcases now with start | now
  · obtain ⟨ledger, tidy, sent, unfinished, sequence, index, silent, message, calls⟩ := start
    obtain ⟨part, unsaid, unreasoned, keys, below, ordered, types⟩ := tidy
    exact Or.inl ⟨ledger, ⟨part, unsaid, unreasoned, keys, below, ordered, types⟩, sent,
      unfinished, sequence, index, silent, message, calls⟩
  · obtain ⟨part, unsaid, unreasoned, keys, below, ordered, types⟩ := now.tidy
    exact Or.inr (now.transfer ⟨part, unsaid, unreasoned, keys, below, ordered, types⟩
      ⟨rfl, rfl, rfl, rfl⟩ rfl)

/-! ### Runs -/

/-- Reasoning does not come after its item is done. -/
def InTime (s : ChatCompletionsToResponsesStreamState) : ChatInput → Prop
  | .reasoning text => text = "" ∨ s.reasoningDone = false
  | _ => True

instance (s : ChatCompletionsToResponsesStreamState) (input : ChatInput) :
    Decidable (InTime s input) :=
  match input with
  | .reasoning text => inferInstanceAs (Decidable (text = "" ∨ s.reasoningDone = false))
  | .head _ | .content _ | .toolCall _ | .finishReason _ | .closeMessage | .degenerated =>
    isTrue trivial

/-- Each fragment of a chunk comes in time. -/
def ActsInTime (setting : ChatSetting) (s : ChatCompletionsToResponsesStreamState) :
    ChatAction → Prop
  | .chunk chunk => Throughout (handleInput setting) InTime s (fragments chunk)
  | _ => True

instance (setting : ChatSetting) (s : ChatCompletionsToResponsesStreamState)
    (action : ChatAction) : Decidable (ActsInTime setting s action) :=
  match action with
  | .chunk chunk =>
    inferInstanceAs (Decidable (Throughout (handleInput setting) InTime s (fragments chunk)))
  | .closeMessage | .degenerated => isTrue trivial

theorem handleInput_keeps {input : ChatInput} (inTime : InTime s input) (now : UpToDate s k) :
    Keeps followsChat UpToDate (handleInput setting s input) k := by
  have tidy := @Tidy.handleInput setting s now.tidy input
  cases input with
  | head chunk => exact handleHead_keeps (Or.inr now)
  | reasoning text =>
    exact (handleReasoning_keeps now.upon inTime now.tidy.unreasoned).mono fun k' upon =>
      ⟨tidy, upon⟩
  | content text => exact handleContent_keeps now
  | toolCall call => exact handleToolCall_keeps now
  | finishReason reason =>
    refine .silent (now.transfer tidy ?_ ?_)
    · split <;> exact ⟨rfl, rfl, rfl, rfl⟩
    · split <;> rfl
  | closeMessage => exact closeChatMessageItem_keeps now
  | degenerated => exact .silent (now.transfer tidy ⟨rfl, rfl, rfl, rfl⟩ rfl)

theorem inputs_keep {inputs : List ChatInput}
    (inTime : Throughout (handleInput setting) InTime s inputs) (now : UpToDate s k) :
    Keeps followsChat UpToDate (run (handleInput setting) s inputs) k := by
  induction inputs generalizing s k with
  | nil => exact .silent now
  | cons input rest ih =>
    exact (handleInput_keeps inTime.1 now).run fun k' later => ih inTime.2 later

theorem act_keeps {action : ChatAction} (inTime : ActsInTime setting s action) (now : Afoot s k) :
    Keeps followsChat Afoot (act setting s action) k := by
  cases action with
  | chunk chunk =>
    have begun : Keeps followsChat UpToDate (act setting s (.chunk chunk)) k :=
      (handleHead_keeps now).run fun k' later => inputs_keep inTime.2 later
    exact begun.mono fun k' upToDate => Or.inr upToDate
  | closeMessage =>
    rcases now with start | now
    · show Keeps followsChat Afoot (closeChatMessageItem s) k
      unfold closeChatMessageItem
      rw [if_pos start.message]
      exact .silent (Or.inl start)
    · exact (closeChatMessageItem_keeps now).mono fun k' upToDate => Or.inr upToDate
  | degenerated =>
    refine .silent ?_
    rcases now with start | now
    · obtain ⟨ledger, tidy, sent, unfinished, sequence, index, silent, message, calls⟩ := start
      exact Or.inl ⟨ledger, @Tidy.handleInput setting s tidy .degenerated, sent, unfinished,
        sequence, index, silent, message, calls⟩
    · exact Or.inr (now.transfer (@Tidy.handleInput setting s now.tidy .degenerated)
        ⟨rfl, rfl, rfl, rfl⟩ rfl)

theorem actions_keep {actions : List ChatAction}
    (inTime : Throughout (act setting) (ActsInTime setting) s actions) (now : Afoot s k) :
    Keeps followsChat Afoot (run (act setting) s actions) k := by
  induction actions generalizing s k with
  | nil => exact .silent now
  | cons action rest ih =>
    exact (act_keeps inTime.1 now).run fun k' later => ih inTime.2 later

/-- The fallback is a message like any other. -/
theorem fallback_keeps (tidy : Tidy s) (now : Upon (messageSlot s ++ toolSlots s) s k) :
    Keeps followsChat (fun s' k' => Tidy s' ∧ Upon (messageSlot s' ++ toolSlots s') s' k')
      (if s.degeneration then (s, []) else synthesizeReasoningFallback setting s) k := by
  split
  · exact .silent ⟨tidy, now⟩
  · unfold synthesizeReasoningFallback
    split
    · exact .silent ⟨tidy, now⟩
    · split
      · exact .silent ⟨tidy, now⟩
      · refine (writeText_tidy_keeps tidy ((List.nil_append (messageSlot s)).symm ▸ now)).mono fun k' writing =>
          ⟨tidy.writeText, ?_⟩
        have calls : toolSlots (writeText setting s s.reasoning).1 = toolSlots s := by
          obtain ⟨m, written⟩ := writeText_state setting s s.reasoning
          rw [written]
          unfold toolSlots
          dsimp only
          split <;> rfl
        rw [calls]
        exact writing.upon'

theorem endOpenMessage_keeps (tidy : Tidy s) (now : Upon (messageSlot s ++ toolSlots s) s k) :
    Keeps followsChat (fun s' k' => Tidy s' ∧ Upon (toolSlots s') s' k')
      (if s.messageItemID ≠ "" then endMessage s else (s, [])) k := by
  split
  · rename_i isOpen
    have writing : Writing [] (toolSlots s) s k := .of_tidy tidy isOpen now
    obtain ⟨n, ended⟩ := endMessage_state s
    refine (endMessage_keeps writing).mono fun k' upon => ?_
    rw [ended] at upon ⊢
    obtain ⟨part, unsaid, unreasoned, keys, below, ordered, types⟩ := tidy
    exact ⟨⟨part, unsaid, unreasoned, keys, below, ordered, types⟩, upon⟩
  · rename_i absent
    rw [messageSlot_none (not_not.mp absent)] at now
    exact .silent ⟨tidy, now⟩

/-- Everything open is finished before the terminal event. -/
theorem finalize_chat_keeps (now : Afoot s k) :
    Keeps followsChat (fun _ k' => k'.ended = true)
      (finalizeChatCompletionsResponsesStream setting s) k := by
  have unfinished : s.completedSent = false := by
    rcases now with start | now
    · exact start.unfinished
    · exact now.upon.unfinished
  unfold finalizeChatCompletionsResponsesStream
  rw [if_neg (by simp [unfinished])]
  refine (ensureCreated_keeps now).andThen fun k₁ created => ?_
  have tidy := created.tidy.closeReasoningItem
  refine (closeReasoningItem_keeps created.upon).andThen fun k₂ closed => ?_
  obtain ⟨n, state⟩ := closeReasoningItem_state (ensureCreated s).1
  have closed' : Upon (messageSlot (closeReasoningItem (ensureCreated s).1).1 ++
      toolSlots (closeReasoningItem (ensureCreated s).1).1)
      (closeReasoningItem (ensureCreated s).1).1 k₂ := by
    rw [state] at closed ⊢
    exact closed
  refine (fallback_keeps tidy closed').andThen fun k₃ answered => ?_
  refine (endOpenMessage_keeps answered.1 answered.2).andThen fun k₄ ended => ?_
  exact (closeChatToolItems_keeps ended.1 ended.2).andThen fun k₅ closed =>
    completeResponse_keeps closed

/-- For every sequence of chunks, with the message closed and the guard tripped at any points, the
finalized stream is followed to its end, if no reasoning comes after the reasoning item is done. -/
theorem chat_items_live (setting : ChatSetting) (model : String) (created : ℤ)
    (actions : List ChatAction)
    (inTime : Throughout (act setting) (ActsInTime setting) (newState setting model created)
      actions) :
    ValidLifecycle .bridged (chatStream setting model created actions) := by
  have start : Afoot (newState setting model created) {} :=
    Or.inl ⟨rfl, Tidy.start setting model created, rfl, rfl, rfl, rfl, rfl, rfl, rfl⟩
  exact (actions_keep inTime start).andThen fun k afoot => finalize_chat_keeps afoot

namespace ChatSample

def patching : ChatSetting :=
  { randomBytes := fun n => [(UInt8.ofNat n).toFin]
    sha256 := fun _ => []
    tools := { customTools := ["patch"], toolSearchDeclared := true } }

/-- A chunk of one choice. -/
def chunk (delta : ChatDelta) : ChatAction := .chunk { id := "c", choices := [{ delta := delta }] }

def callDelta (index : ℤ) (name arguments : String) : ChatAction :=
  chunk { toolCalls := [{ index := some index, id := "call_" ++ name
                          function := { name := name, arguments := arguments } }] }

/-- Reasoning, two messages, and two calls whose fragments alternate. -/
def alternating : List ChatAction :=
  [chunk { reasoningContent := some "hm" }, chunk { content := some "a" }, .closeMessage,
   chunk { content := some "b" }, callDelta 1 "patch" "\x7b", callDelta 3 "ls" "[",
   callDelta 1 "" "\x7d", callDelta 3 "" "]"]

/-- A call without arguments. -/
def noArguments : List ChatAction := [callDelta 0 "ls" ""]

end ChatSample

theorem chat_items_live_sample :
    ValidLifecycle .bridged (chatStream ChatSample.patching "m" 0 ChatSample.alternating) := by
  refine chat_items_live ChatSample.patching "m" 0 ChatSample.alternating ?_
  decide +kernel

/-- The deltas of a call without arguments are empty, but its done events have the empty object. -/
theorem chat_call_without_arguments_not_repeating :
    ¬ValidLifecycle .repeating (chatStream ChatSample.patching "m" 0 ChatSample.noArguments) := by
  decide +kernel

end Sub2api.ApiCompat
