import Sub2api.ApiCompat.ChatState

/-!
# The items that a chat stream announces and finishes

Of all events only two kinds matter for what a stream lists at its end: an item is added, and an
item is done. Each handler's events are described by these two lists.
-/

namespace Sub2api.ApiCompat

open Go Transducer ChatToResponses

/-- An item with its output index. -/
abbrev Placed := ℤ × ResponsesOutput

/-- Index, id and type. -/
abbrev ItemKey := ℤ × String × ItemType

def keyOf (placed : Placed) : ItemKey := (placed.1, placed.2.id, placed.2.type)

/-- The items that are added, in order. -/
def addedItems (events : List ResponsesStreamEvent) : List ItemKey :=
  events.filterMap fun e =>
    if e.type = .outputItemAdded then e.item.map fun item => keyOf (e.outputIndex, item) else none

/-- The items that are done, in order. -/
def doneItems (events : List ResponsesStreamEvent) : List Placed :=
  events.filterMap fun e =>
    if e.type = .outputItemDone then e.item.map fun item => (e.outputIndex, item) else none

variable {setting : ChatSetting} {s : ChatCompletionsToResponsesStreamState}

@[simp] theorem addedItems_nil : addedItems [] = [] := rfl

@[simp] theorem doneItems_nil : doneItems [] = [] := rfl

@[simp] theorem addedItems_append (first later : List ResponsesStreamEvent) :
    addedItems (first ++ later) = addedItems first ++ addedItems later :=
  List.filterMap_append

@[simp] theorem doneItems_append (first later : List ResponsesStreamEvent) :
    doneItems (first ++ later) = doneItems first ++ doneItems later :=
  List.filterMap_append

/-- Events that neither add nor finish an item. -/
structure Quiet (out : ChatToResponses) : Prop where
  added : addedItems out.2 = []
  done : doneItems out.2 = []

theorem Quiet.silent : Quiet (s, []) := ⟨rfl, rfl⟩

theorem Quiet.event {type : ResponsesEventType} {template : ResponsesStreamEvent}
    (notAdded : type ≠ .outputItemAdded) (notDone : type ≠ .outputItemDone) :
    Quiet (chatToResponsesEvent s type template) := by
  constructor
  · simp [addedItems, chatToResponsesEvent, notAdded]
  · simp [doneItems, chatToResponsesEvent, notDone]

/-! ### Reasoning and text -/

theorem ensureCreated_quiet : Quiet (ensureCreated s) := by
  unfold ensureCreated
  split
  · exact .silent
  · exact .event (by decide) (by decide)

theorem handleReasoning_added {text : String} (fresh : text ≠ "") :
    addedItems (handleReasoning setting text s).2 =
      if s.reasoningOpen ∨ s.reasoningDone then []
      else [(s.nextOutputIndex, generatedItemID setting s.generated, .reasoning)] := by
  unfold handleReasoning ensureReasoningItem
  rw [if_neg fresh]
  split
  · simp [andThen, addedItems, chatToResponsesEvent]
  · simp [andThen, addedItems, chatToResponsesEvent, beginReasoning, openReasoning, keyOf]

theorem handleReasoning_done {text : String} :
    doneItems (handleReasoning setting text s).2 = [] := by
  unfold handleReasoning ensureReasoningItem
  split
  · rfl
  · split
    · simp [andThen, doneItems, chatToResponsesEvent]
    · simp [andThen, doneItems, chatToResponsesEvent, beginReasoning]

/-- The reasoning item when it is done. -/
def finishedReasoning (id text : String) : ResponsesOutput :=
  { type := .reasoning, id := id, status := .completed
    summary := [{ type := .summaryText, text := text }] }

theorem closeReasoningItem_added : addedItems (closeReasoningItem s).2 = [] := by
  unfold closeReasoningItem
  split
  · rfl
  · simp [andThen, addedItems, chatToResponsesEvent, endReasoning]

theorem closeReasoningItem_done :
    doneItems (closeReasoningItem s).2 =
      if s.reasoningOpen then
        [(s.reasoningIndex, finishedReasoning s.reasoningItemID s.reasoning)]
      else [] := by
  unfold closeReasoningItem
  by_cases isOpen : s.reasoningOpen = true
  · simp [isOpen, andThen, doneItems, chatToResponsesEvent, endReasoning, finishedReasoning]
  · simp [isOpen]

theorem writeText_added {text : String} :
    addedItems (writeText setting s text).2 =
      if s.messageItemID ≠ "" then []
      else [(s.nextOutputIndex, generatedItemID setting s.generated, .message)] := by
  unfold writeText ensureMessageItem
  split
  · unfold ensureTextPart
    dsimp only [andThen]
    split <;> simp [addedItems, chatToResponsesEvent, textDelta]
  · unfold ensureTextPart
    dsimp only [andThen]
    split <;> simp [addedItems, chatToResponsesEvent, textDelta, beginMessage, openMessage, keyOf]

theorem writeText_done {text : String} : doneItems (writeText setting s text).2 = [] := by
  unfold writeText ensureMessageItem
  split
  · unfold ensureTextPart
    dsimp only [andThen]
    split <;> simp [doneItems, chatToResponsesEvent, textDelta]
  · unfold ensureTextPart
    dsimp only [andThen]
    split <;> simp [doneItems, chatToResponsesEvent, textDelta, beginMessage]

theorem endMessage_added : addedItems (endMessage s).2 = [] := by
  unfold endMessage
  dsimp only [andThen]
  split <;> simp [addedItems, chatToResponsesEvent, endPart, andThen]

theorem endMessage_done :
    doneItems (endMessage s).2 = [(s.messageIndex, messageItem s)] := by
  unfold endMessage
  dsimp only [andThen]
  split <;> simp [doneItems, chatToResponsesEvent, endPart, andThen, messageItem]

/-! ### Calls -/

/-- `announceChatToolItem` adds the item of this call. -/
def announces (setting : ChatSetting) (force : Bool) (stored : StreamTool) : Prop :=
  ¬(stored.announced ∨ (force = false ∧ stored.name = "" ∧ telling setting.tools))

instance (force : Bool) (stored : StreamTool) : Decidable (announces setting force stored) :=
  inferInstanceAs (Decidable (¬_))

/-- The key of a call's item. -/
def callKey (stored : StreamTool) : ItemKey :=
  (stored.outputIndex, stored.itemID, itemType stored)

variable {stored : StreamTool}

theorem announce_added :
    addedItems (announce setting s stored).2 = [callKey (decided setting stored)] := by
  unfold announce
  dsimp only [andThen]
  split <;>
    simp [addedItems, chatToResponsesEvent, argumentsDelta, announcedItem, keyOf, callKey, decided]

theorem announce_done : doneItems (announce setting s stored).2 = [] := by
  unfold announce
  dsimp only [andThen]
  split <;> simp [doneItems, chatToResponsesEvent, argumentsDelta]

theorem announceChatToolItem_added {force : Bool} {index : ℤ} (found : tool s index = some stored) :
    addedItems (announceChatToolItem setting force s index).2 =
      if announces setting force stored then [callKey (announcing setting force stored)]
      else [] := by
  unfold announceChatToolItem
  rw [found]
  dsimp only
  by_cases announced : stored.announced = true
  · have silent : ¬announces setting force stored := fun speaks => speaks (Or.inl announced)
    rw [if_pos announced, if_neg silent]
    rfl
  · rw [if_neg announced]
    by_cases waits : force = false ∧ stored.name = "" ∧ telling setting.tools = true
    · have silent : ¬announces setting force stored := fun speaks => speaks (Or.inr waits)
      rw [if_pos waits, if_neg silent]
      rfl
    · have speaks : announces setting force stored := not_or.mpr ⟨announced, waits⟩
      have becomes : announcing setting force stored = decided setting stored := if_neg speaks
      rw [if_neg waits, if_pos speaks, becomes]
      exact announce_added

theorem announceChatToolItem_done {force : Bool} {index : ℤ} :
    doneItems (announceChatToolItem setting force s index).2 = [] := by
  unfold announceChatToolItem
  split
  · rfl
  · split
    · rfl
    · split
      · rfl
      · exact announce_done

theorem addArguments_quiet {index : ℤ} {arguments : String} :
    Quiet (addArguments s index arguments) := by
  unfold addArguments
  split
  · exact .silent
  · split
    · exact .silent
    · dsimp only
      split
      · exact .event (by decide) (by decide)
      · exact .silent

theorem endTool_added : addedItems (endTool setting s stored).2 = [] := by
  unfold endTool
  dsimp only [andThen]
  split
  · split <;> simp [addedItems, chatToResponsesEvent]
  · split <;> simp [addedItems, chatToResponsesEvent]

theorem endTool_done :
    doneItems (endTool setting s stored).2 =
      [(stored.outputIndex, toolItem setting stored stored.itemID)] := by
  unfold endTool
  dsimp only [andThen]
  split
  · split <;> simp [doneItems, chatToResponsesEvent]
  · split <;> simp [doneItems, chatToResponsesEvent]

end Sub2api.ApiCompat
