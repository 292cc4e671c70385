import Mathlib.Logic.Function.Basic
import Sub2api.ApiCompat.Types
import Sub2api.Transducer.Observed

/-!
# The life of the items of a Responses stream

A reader of the stream keeps a ledger of the items that were added and are not done, with the
deltas each has had. The next event has the next sequence number, `response.created` is first, a
delta goes to an open item of its kind, a done event repeats what was streamed, and nothing is
open at the terminal event, after which nothing comes. A `Policy` says where one converter's
streams are allowed to differ.
-/

namespace Sub2api.ApiCompat

open Transducer

/-- An item that was added and is not done: the texts of its finished content parts, the text so
far of the part that is open, and its deltas of reasoning, of arguments or of input. -/
structure OpenItem where
  id : String
  type : ItemType
  parts : List String := []
  part : Option String := none
  streamed : String := ""

structure Ledger where
  next : ℤ := 0
  created : Bool := false
  ended : Bool := false
  items : ℤ → Option OpenItem := fun _ => none
  used : List ℤ := []
  finished : List ResponsesOutput := []

/-- What is asked of an output index after those in use, of a done event after the deltas of its
item, and of the terminal event after the finished items. -/
structure Policy where
  index : List ℤ → ℤ → Bool
  reasoningDone : String → String → Bool
  argumentsDone : String → String → Bool
  itemArguments : String → String → Bool
  searchArguments : String → String → Bool
  output : List ResponsesOutput → List ResponsesOutput → Bool

/-- The finished item repeats what was streamed of it. -/
def Policy.repeats (policy : Policy) (was : OpenItem) (item : ResponsesOutput) : Bool :=
  match was.type with
  | .message => item.content == was.parts.map fun text => { type := .outputText, text := text }
  | .reasoning => String.join (item.summary.map (·.text)) == was.streamed
  | .functionCall => policy.itemArguments was.streamed item.arguments
  | .toolSearchCall => policy.searchArguments was.streamed item.arguments
  | .customToolCall => item.input == was.streamed
  | _ => false

/-- The open item that an event is about, when it is of this type, goes on as `change` says. -/
def Ledger.within (k : Ledger) (e : ResponsesStreamEvent) (type : ItemType)
    (change : OpenItem → Option OpenItem) : Option Ledger :=
  match k.items e.outputIndex with
  | none => none
  | some item =>
    if item.id = e.itemID ∧ item.type = type then
      (change item).map fun item' =>
        { k with items := Function.update k.items e.outputIndex (some item') }
    else none

/-- The item may stay as it is. -/
def keepIf (agrees : Bool) (item : OpenItem) : Option OpenItem :=
  if agrees then some item else none

/-- The part that is open, at the event's content index, goes on as `change` says. -/
def OpenItem.inPart (item : OpenItem) (e : ResponsesStreamEvent)
    (change : String → Option OpenItem) : Option OpenItem :=
  match item.part with
  | none => none
  | some text => if e.contentIndex = item.parts.length then change text else none

def Ledger.add (policy : Policy) (k : Ledger) (e : ResponsesStreamEvent) : Option Ledger :=
  match e.item with
  | none => none
  | some item =>
    if e.outputIndex ∉ k.used ∧ policy.index k.used e.outputIndex = true then
      some { k with
        items := Function.update k.items e.outputIndex (some { id := item.id, type := item.type })
        used := k.used ++ [e.outputIndex] }
    else none

def Ledger.finish (policy : Policy) (k : Ledger) (e : ResponsesStreamEvent) : Option Ledger :=
  match e.item, k.items e.outputIndex with
  | some item, some was =>
    if item.id = was.id ∧ item.type = was.type ∧ was.part = none ∧
        policy.repeats was item = true then
      some { k with
        items := Function.update k.items e.outputIndex none
        finished := k.finished ++ [item] }
    else none
  | _, _ => none

def Ledger.endResponse (policy : Policy) (k : Ledger) (e : ResponsesStreamEvent) :
    Option Ledger :=
  match e.response with
  | none => none
  | some response =>
    if (∀ index ∈ k.used, k.items index = none) ∧
        policy.output k.finished response.output = true then
      some { k with ended := true }
    else none

/-- What an event after the first does to the ledger. -/
def Ledger.react (policy : Policy) (k : Ledger) (e : ResponsesStreamEvent) : Option Ledger :=
  match e.type with
  | .outputItemAdded => k.add policy e
  | .outputItemDone => k.finish policy e
  | .contentPartAdded =>
    k.within e .message fun item =>
      if item.part = none ∧ e.contentIndex = item.parts.length then
        some { item with part := some "" }
      else none
  | .outputTextDelta =>
    k.within e .message fun item =>
      item.inPart e fun text => some { item with part := some (text ++ e.delta) }
  | .outputTextDone =>
    k.within e .message fun item => item.inPart e fun text => keepIf (e.text == text) item
  | .contentPartDone =>
    k.within e .message fun item => item.inPart e fun text =>
      if e.part = some { type := .outputText, text := text } then
        some { item with parts := item.parts ++ [text], part := none }
      else none
  | .reasoningSummaryPartAdded => k.within e .reasoning some
  | .reasoningSummaryTextDelta =>
    k.within e .reasoning fun item => some { item with streamed := item.streamed ++ e.delta }
  | .reasoningSummaryTextDone =>
    k.within e .reasoning fun item => keepIf (policy.reasoningDone item.streamed e.text) item
  | .reasoningSummaryPartDone =>
    k.within e .reasoning fun item =>
      keepIf (e.part == some { type := .summaryText, text := item.streamed }) item
  | .functionCallArgumentsDelta =>
    k.within e .functionCall fun item => some { item with streamed := item.streamed ++ e.delta }
  | .functionCallArgumentsDone =>
    k.within e .functionCall fun item => keepIf (policy.argumentsDone item.streamed e.arguments) item
  | .customToolCallInputDelta =>
    k.within e .customToolCall fun item => some { item with streamed := item.streamed ++ e.delta }
  | .customToolCallInputDone =>
    k.within e .customToolCall fun item => keepIf (e.input == item.streamed) item
  | .completed | .done | .incomplete | .failed => k.endResponse policy e
  | _ => none

/-- The next event of a stream whose items live as they should. -/
def Ledger.follow (policy : Policy) (k : Ledger) (e : ResponsesStreamEvent) : Option Ledger :=
  if e.sequenceNumber ≠ k.next ∨ k.ended = true then none
  else if k.created = false then
    if e.type = .created then some { k with created := true, next := k.next + 1 } else none
  else (k.react policy e).map fun k' => { k' with next := k.next + 1 }

variable {k : Ledger}

/-- An emitted event is followed when the ledger reacts to it. -/
theorem follow_react {policy : Policy} {e : ResponsesStreamEvent} (k' : Ledger)
    (next : e.sequenceNumber = k.next) (created : k.created = true) (running : k.ended = false)
    (reacts : k.react policy e = some k') :
    k.follow policy e = some { k' with next := k.next + 1 } := by
  simp [Ledger.follow, next, created, running, reacts]

theorem react_terminal {policy : Policy} {e : ResponsesStreamEvent}
    (terminal : e.type.terminal = true) : k.react policy e = k.endResponse policy e := by
  unfold Ledger.react
  cases type : e.type <;> first | rfl | (rw [type] at terminal; cases terminal)

/-- The stream is followed to its terminal event, which is the last. -/
def ValidLifecycle (policy : Policy) (events : List ResponsesStreamEvent) : Prop :=
  Follows (Ledger.follow policy) (fun k => k.ended = true) events {}

instance (policy : Policy) (events : List ResponsesStreamEvent) :
    Decidable (ValidLifecycle policy events) :=
  match seen : observe (Ledger.follow policy) {} events with
  | none => isFalse fun ⟨_, followed, _⟩ => by
    rw [seen] at followed
    cases followed
  | some k =>
    if ended : k.ended = true then isTrue ⟨k, seen, ended⟩
    else isFalse fun ⟨k', followed, ended'⟩ => by
      rw [seen] at followed
      cases followed
      exact ended ended'

end Sub2api.ApiCompat

/-!
### Several items at once

When a converter keeps several items open, their indices are its slots: an index is taken when the
item begins, and the item may be announced later. `Live` relates the slots to a reader's ledger,
with one lemma for each thing that can happen to a slot.
-/

namespace Sub2api.ApiCompat

open Transducer

/-- An output index that is taken, with its item once that is announced. -/
abbrev Slot := ℤ × Option OpenItem

/-- The ledger has the items of these slots open and no others, and no index from `bound` on was
used. -/
structure Live (slots : List Slot) (bound : ℤ) (k : Ledger) : Prop where
  distinct : (slots.map Prod.fst).Nodup
  below : ∀ slot ∈ slots, slot.1 < bound
  items : ∀ slot ∈ slots, k.items slot.1 = slot.2
  unannounced : ∀ slot ∈ slots, slot.2 = none → slot.1 ∉ k.used
  rest : ∀ i, i ∉ slots.map Prod.fst → k.items i = none
  used : ∀ i ∈ k.used, i < bound

variable {k k' : Ledger} {bound i : ℤ} {before after : List Slot} {was now : Option OpenItem}

theorem Live.start : Live [] 0 {} := by
  constructor <;> simp

theorem Live.congr {slots : List Slot} (live : Live slots bound k) (items : k'.items = k.items)
    (used : k'.used = k.used) : Live slots bound k' := by
  obtain ⟨distinct, below, items', unannounced, rest, used'⟩ := live
  refine ⟨distinct, below, ?_, ?_, ?_, ?_⟩
  · rw [items]
    exact items'
  · rw [used]
    exact unannounced
  · rw [items]
    exact rest
  · rw [used]
    exact used'

theorem Live.found (live : Live (before ++ (i, was) :: after) bound k) : k.items i = was :=
  live.items (i, was) (by simp)

/-- A slot's index is no other slot's. -/
theorem Live.apart (live : Live (before ++ (i, was) :: after) bound k) {slot : Slot}
    (member : slot ∈ before ++ after) : slot.1 ≠ i := by
  have distinct := live.distinct
  rw [List.map_append, List.map_cons] at distinct
  have fresh := (List.nodup_middle.mp distinct).notMem
  intro same
  refine fresh ?_
  rw [← List.map_append]
  exact List.mem_map.mpr ⟨slot, member, same⟩

/-- One slot's item changes, and the index of a new item is marked as used. -/
theorem Live.change (live : Live (before ++ (i, was) :: after) bound k)
    (items : k'.items = Function.update k.items i now)
    (used : k'.used = k.used ∨ now ≠ none ∧ k'.used = k.used ++ [i])
    (stays : was ≠ none → now ≠ none) :
    Live (before ++ (i, now) :: after) bound k' := by
  have other {slot : Slot} (member : slot ∈ before ++ (i, now) :: after) :
      slot = (i, now) ∨ slot ∈ before ++ after := by
    simp only [List.mem_append, List.mem_cons] at member ⊢
    tauto
  have old {slot : Slot} (member : slot ∈ before ++ after) :
      slot ∈ before ++ (i, was) :: after := by
    simp only [List.mem_append, List.mem_cons] at member ⊢
    tauto
  refine ⟨?_, ?_, ?_, ?_, ?_, ?_⟩
  · simpa using live.distinct
  · intro slot member
    rcases other member with rfl | unchanged
    · exact live.below (i, was) (by simp)
    · exact live.below slot (old unchanged)
  · intro slot member
    rcases other member with rfl | unchanged
    · rw [items, Function.update_self]
    · rw [items, Function.update_of_ne (live.apart unchanged)]
      exact live.items slot (old unchanged)
  · intro slot member silent
    rcases other member with rfl | unchanged
    · have silent' : was = none := by
        by_contra announced
        exact stays announced silent
      rcases used with same | ⟨announced, _⟩
      · rw [same]
        exact live.unannounced (i, was) (by simp) silent'
      · exact absurd silent announced
    · have fresh := live.unannounced slot (old unchanged) silent
      rcases used with same | ⟨_, marked⟩
      · rw [same]
        exact fresh
      · rw [marked, List.mem_append, List.mem_singleton]
        rintro (member' | same)
        · exact fresh member'
        · exact live.apart unchanged same
  · intro j outside
    rw [items, Function.update_of_ne]
    · exact live.rest j (by simpa using outside)
    · rintro rfl
      exact outside (by simp)
  · intro j member
    rcases used with same | ⟨_, marked⟩
    · exact live.used j (same ▸ member)
    · rw [marked, List.mem_append, List.mem_singleton] at member
      rcases member with member | rfl
      · exact live.used j member
      · exact live.below (j, was) (by simp)

/-- A finished item leaves its slot. -/
theorem Live.finish (live : Live (before ++ (i, was) :: after) bound k)
    (items : k'.items = Function.update k.items i none) (used : k'.used = k.used) :
    Live (before ++ after) bound k' := by
  have old {slot : Slot} (member : slot ∈ before ++ after) :
      slot ∈ before ++ (i, was) :: after := by
    simp only [List.mem_append, List.mem_cons] at member ⊢
    tauto
  refine ⟨?_, fun slot member => live.below slot (old member), ?_, ?_, ?_, ?_⟩
  · have distinct := live.distinct
    rw [List.map_append, List.map_cons] at distinct
    rw [List.map_append]
    exact (List.nodup_middle.mp distinct).of_cons
  · intro slot member
    rw [items, Function.update_of_ne (live.apart member)]
    exact live.items slot (old member)
  · intro slot member silent
    rw [used]
    exact live.unannounced slot (old member) silent
  · intro j outside
    rw [items]
    by_cases same : j = i
    · rw [same, Function.update_self]
    · rw [Function.update_of_ne same]
      refine live.rest j ?_
      simp only [List.map_append, List.map_cons, List.mem_append, List.mem_cons] at outside ⊢
      tauto
  · rw [used]
    exact live.used

/-- The next index is taken. -/
theorem Live.reserve (live : Live (before ++ after) bound k) :
    Live (before ++ (bound, none) :: after) (bound + 1) k := by
  have fresh : bound ∉ (before ++ after).map Prod.fst := by
    intro member
    obtain ⟨slot, inSlots, same⟩ := List.mem_map.mp member
    have := live.below slot inSlots
    omega
  have other {slot : Slot} (member : slot ∈ before ++ (bound, none) :: after) :
      slot = (bound, none) ∨ slot ∈ before ++ after := by
    simp only [List.mem_append, List.mem_cons] at member ⊢
    tauto
  refine ⟨?_, ?_, ?_, ?_, ?_, ?_⟩
  · rw [List.map_append, List.map_cons, List.nodup_middle, ← List.map_append]
    exact List.nodup_cons.mpr ⟨fresh, live.distinct⟩
  · intro slot member
    rcases other member with rfl | old
    · exact Int.lt_succ bound
    · have := live.below slot old
      omega
  · intro slot member
    rcases other member with rfl | old
    · exact live.rest bound fresh
    · exact live.items slot old
  · intro slot member silent
    rcases other member with rfl | old
    · intro used
      have := live.used bound used
      omega
    · exact live.unannounced slot old silent
  · intro j outside
    refine live.rest j ?_
    simp only [List.map_append, List.map_cons, List.mem_append, List.mem_cons] at outside ⊢
    tauto
  · intro j member
    have := live.used j member
    omega

/-- Without slots nothing is open. -/
theorem Live.none_open (live : Live [] bound k) (i : ℤ) : k.items i = none :=
  live.rest i (by simp)

end Sub2api.ApiCompat
