import Sub2api.Antigravity.Agreement
import Mathlib.Data.List.TakeWhile

/-!
# Back to Gemini

`buildParts` turns the content of a message into parts again. `Turn` is what matters of either side:
the calls with their signatures, what is said, what is thought, and the signatures in order.

* `fold_turn` — the stream's blocks hold the turn of the parts, as long as no two thoughts of one
  run are signed;
* `buildParts_turn` — the parts built of blocks hold the turn of the blocks, as long as their texts
  are visible, and a signature where there was none;
* `survives` — the round trip of a turn, streamed or whole.
-/

namespace Sub2api.Antigravity

open Go

/-! ### Building parts -/

/-- What stands for a missing signature. -/
def dummyThoughtSignature : String := "skip_thought_signature_validator"

/-- The content of a message: a string, or blocks. -/
inductive MessageContent where
  | string (text : String)
  | blocks (blocks : List ClaudeContentItem)

/-- A text that is sent on: neither blank nor the mark for no content. -/
def Visible (text : String) : Prop := text ≠ "(no content)" ∧ trimSpace text ≠ ""

instance (text : String) : Decidable (Visible text) := inferInstanceAs (Decidable (_ ∧ _))

/-- The signature that goes on with a thought or a call. -/
def passedSignature (allowDummyThought : Bool) (signature : String) : Option String :=
  if signature ≠ "" ∧ (allowDummyThought ∨ signature ≠ dummyThoughtSignature) then some signature
  else if allowDummyThought then some dummyThoughtSignature
  else none

/-- The loop body of `buildParts`: the parts of a block, and whether a thought lost its place. -/
def buildBlock (allowDummyThought : Bool) (block : ClaudeContentItem) : List GeminiPart × Bool :=
  match block.type with
  | .text => (if Visible block.text then [{ text := block.text }] else [], false)
  | .thinking =>
    match passedSignature allowDummyThought block.signature with
    | some signature =>
      ([{ text := block.thinking, thought := true, thoughtSignature := signature }], false)
    -- a Claude model takes no thought without a real signature
    | none => (if trimSpace block.thinking ≠ "" then [{ text := block.thinking }] else [], true)
  | .toolUse =>
    ([{ functionCall := some { name := block.name, args := block.input, id := block.id }
        thoughtSignature := (passedSignature allowDummyThought block.signature).getD "" }], false)

/-- `buildParts`: the parts, and whether a thought lost its place. -/
def buildParts (content : MessageContent) (allowDummyThought : Bool) : List GeminiPart × Bool :=
  match content with
  | .string text => (if Visible text then [{ text := trimSpace text }] else [], false)
  | .blocks blocks =>
    (blocks.flatMap fun block => (buildBlock allowDummyThought block).1,
      blocks.any fun block => (buildBlock allowDummyThought block).2)

/-! ### Turns -/

/-- What a model's turn says, thinks and calls. -/
structure Turn where
  calls : List (GeminiFunctionCall × String) := []
  said : List Char := []
  thoughts : List Char := []
  signatures : List String := []

namespace Turn

instance : Append Turn where
  append t u :=
    { calls := t.calls ++ u.calls
      said := t.said ++ u.said
      thoughts := t.thoughts ++ u.thoughts
      signatures := t.signatures ++ u.signatures }

theorem append_def (t u : Turn) : t ++ u =
    { calls := t.calls ++ u.calls
      said := t.said ++ u.said
      thoughts := t.thoughts ++ u.thoughts
      signatures := t.signatures ++ u.signatures } := rfl

@[simp] theorem append_empty (t : Turn) : t ++ ({} : Turn) = t := by simp [append_def]

@[simp] theorem empty_append (t : Turn) : ({} : Turn) ++ t = t := by simp [append_def]

theorem append_assoc (t u w : Turn) : t ++ u ++ w = t ++ (u ++ w) := by simp [append_def]

end Turn

/-- A signature, where there is one. -/
def signed (signature : String) : List String := if signature = "" then [] else [signature]

def GeminiPart.turn (part : GeminiPart) : Turn :=
  match part.functionCall with
  | some fc => { calls := [(fc, part.thoughtSignature)], signatures := signed part.thoughtSignature }
  | none =>
    if part.thought then
      { thoughts := part.text.toList, signatures := signed part.thoughtSignature }
    else { said := part.text.toList, signatures := signed part.thoughtSignature }

/-- The turn of a list of parts. -/
def turnOf : List GeminiPart → Turn
  | [] => {}
  | part :: rest => part.turn ++ turnOf rest

def ClaudeContentItem.turn (item : ClaudeContentItem) : Turn :=
  match item.type with
  | .text => { said := item.text.toList }
  | .thinking => { thoughts := item.thinking.toList, signatures := signed item.signature }
  | .toolUse =>
    { calls := [({ name := item.name, args := item.input, id := item.id }, item.signature)]
      signatures := signed item.signature }

/-- The turn of a list of blocks. -/
def turnOfItems : List ClaudeContentItem → Turn
  | [] => {}
  | item :: rest => item.turn ++ turnOfItems rest

theorem turnOf_append (first later : List GeminiPart) :
    turnOf (first ++ later) = turnOf first ++ turnOf later := by
  induction first with
  | nil => exact (Turn.empty_append _).symm
  | cons part rest ih => rw [List.cons_append, turnOf, turnOf, ih, Turn.append_assoc]

theorem turnOfItems_append (first later : List ClaudeContentItem) :
    turnOfItems (first ++ later) = turnOfItems first ++ turnOfItems later := by
  induction first with
  | nil => exact (Turn.empty_append _).symm
  | cons item rest ih => rw [List.cons_append, turnOfItems, turnOfItems, ih, Turn.append_assoc]

/-- Blocks that are empty and unsigned are nothing of a turn. -/
theorem turnOfItems_comparable (items : List ClaudeContentItem) :
    turnOfItems (comparable items) = turnOfItems items := by
  induction items with
  | nil => rfl
  | cons item rest ih =>
    have split : comparable (item :: rest) = comparable [item] ++ comparable rest :=
      comparable_append [item] rest
    rw [split, turnOfItems_append, ih, turnOfItems]
    congr 1
    unfold comparable
    cases empty : item.empty with
    | false => simp [turnOfItems, empty]
    | true =>
      simp only [List.filter_cons, empty, List.filter_nil]
      unfold ClaudeContentItem.empty at empty
      unfold ClaudeContentItem.turn
      cases kind : item.type with
      | text => simp_all [turnOfItems]
      | thinking => simp_all [turnOfItems, signed]
      | toolUse => simp_all

/-! ### The blocks of a turn -/

/-- A part of a model's turn: a thought, a visible text, or a call with an id and arguments. -/
structure GeminiPart.OfTurn (part : GeminiPart) : Prop where
  plain : part.inlineData = none
  real : part.thoughtSignature ≠ dummyThoughtSignature
  kind : match part.functionCall with
    | some fc => fc.id ≠ "" ∧ fc.args ≠ none
    | none => part.thought = true ∨ Visible part.text

/-- No two thoughts of one run are signed; `done` is whether one of the run so far is. -/
def SignedOnce (done : Bool) : List GeminiPart → Prop
  | [] => True
  | part :: rest =>
    if part.functionCall = none ∧ part.thought = true then
      (done = true → part.thoughtSignature = "") ∧
        SignedOnce (done || part.thoughtSignature != "") rest
    else SignedOnce false rest

/-- No run of unsigned texts adds up to the mark for no content; `said` is the run so far. -/
def RunsVisible (said : String) : List GeminiPart → Prop
  | [] => said ≠ "(no content)"
  | part :: rest =>
    if part.functionCall = none ∧ part.thought = false ∧ part.thoughtSignature = "" then
      RunsVisible (said ++ part.text) rest
    else said ≠ "(no content)" ∧ RunsVisible "" rest

theorem trimSpace_eq_empty_iff (text : String) :
    trimSpace text = "" ↔ ∀ c ∈ text.toList, isSpace c = true := by
  unfold trimSpace
  rw [← String.toList_inj, String.toList_ofList]
  change _ = [] ↔ _
  rw [List.reverse_eq_nil_iff, List.dropWhile_eq_nil_iff]
  constructor
  · intro blank c mem
    rw [← List.takeWhile_append_dropWhile (p := isSpace) (l := text.toList)] at mem
    rcases List.mem_append.mp mem with ahead | behind
    · exact List.mem_takeWhile_imp ahead
    · exact blank c (List.mem_reverse.mpr behind)
  · intro blank c mem
    exact blank c ((List.dropWhile_suffix _).subset (List.mem_reverse.mp mem))

/-- A text stays visible, but for the mark, when another follows. -/
theorem trimSpace_append_ne (first : String) {later : String} (printed : trimSpace later ≠ "") :
    trimSpace (first ++ later) ≠ "" := by
  intro blank
  apply printed
  rw [trimSpace_eq_empty_iff] at blank ⊢
  intro c mem
  apply blank
  rw [String.toList_append]
  exact List.mem_append_right _ mem

section Views

variable {v : View} {part : GeminiPart} {ids : Ids}

namespace View

/-- The run of unsigned texts that is open. -/
def openSaid (v : View) : String :=
  match v.opened with
  | .text said => said
  | _ => ""

/-- The thought that is open is signed. -/
def openSigned (v : View) : Bool :=
  match v.opened with
  | .thinking _ signature => signature != ""
  | _ => false

theorem push_content (v : View) (items : List ClaudeContentItem) :
    (v.push items).content = v.content ++ items := by
  unfold push content
  exact List.append_nil _

theorem text_turn (v : View) (text : String) :
    turnOfItems (v.text text).content = turnOfItems v.content ++ { said := text.toList } := by
  unfold View.text
  split
  · rename_i before opened
    simp [content, opened, OpenBlock.items, turnOfItems_append, turnOfItems,
      ClaudeContentItem.turn, textItem, Turn.append_def]
  · simp [content, push, OpenBlock.items, turnOfItems_append, turnOfItems,
      ClaudeContentItem.turn, textItem, Turn.append_def]

theorem thought_turn (v : View) {text signature : String}
    (once : v.openSigned = true → signature = "") :
    turnOfItems (v.thought text signature).content =
      turnOfItems v.content ++ { thoughts := text.toList, signatures := signed signature } := by
  unfold openSigned at once
  unfold View.thought
  split
  · rename_i before earlier opened
    rw [opened] at once
    have signatures : signed (if signature ≠ "" then signature else earlier) =
        signed earlier ++ signed signature := by
      by_cases unsigned : signature = ""
      · simp [unsigned, signed]
      · have first : earlier = "" := by
          by_contra some_
          exact unsigned (once (by simpa using some_))
        simp [unsigned, first, signed]
    simp [content, opened, OpenBlock.items, turnOfItems_append, turnOfItems,
      ClaudeContentItem.turn, thinkingItem, Turn.append_def, ← signatures]
  · simp [content, push, OpenBlock.items, turnOfItems_append, turnOfItems,
      ClaudeContentItem.turn, thinkingItem, Turn.append_def]

theorem said_turn (v : View) (text signature : String) :
    turnOfItems (v.said text signature).content =
      turnOfItems v.content ++ { said := text.toList, signatures := signed signature } := by
  unfold View.said
  split
  · rw [push_content, turnOfItems_append]
    simp [turnOfItems, ClaudeContentItem.turn, textItem, thinkingItem, Turn.append_def]
  · rename_i unsigned
    rw [text_turn, not_not.mp unsigned]
    rfl

end View

/-- A call with an id and arguments is what its block says. -/
theorem toolItem_turn {fc : GeminiFunctionCall} (named : fc.id ≠ "") (given : fc.args ≠ none)
    (generated : ℕ) (signature : String) :
    (toolItem ids generated fc signature (some (fc.args.getD "{}"))).turn =
      { calls := [(fc, signature)], signatures := signed signature } := by
  obtain ⟨args, given⟩ := Option.ne_none_iff_exists'.mp given
  have same : ({ name := fc.name, args := some (fc.args.getD "{}")
                 id := fc.toolID ids.generateRandomID generated } : GeminiFunctionCall) = fc := by
    unfold GeminiFunctionCall.toolID
    rw [if_neg named, given]
    cases fc
    cases given
    rfl
  unfold ClaudeContentItem.turn toolItem
  dsimp only
  rw [same]

theorem part_call {fc : GeminiFunctionCall} (call : part.functionCall = some fc) :
    v.part ids part = v.call ids fc part.thoughtSignature := by
  unfold View.part
  rw [call]

theorem GeminiPart.OfTurn.unseen (turn : part.OfTurn) : part.image = none := by
  unfold GeminiPart.image
  rw [turn.plain]
  rfl

theorem part_thought (turn : part.OfTurn) (call : part.functionCall = none)
    (thought : part.thought = true) :
    v.part ids part = v.thought part.text part.thoughtSignature := by
  unfold View.part
  rw [call, turn.unseen]
  exact if_pos thought

theorem GeminiPart.OfTurn.visible (turn : part.OfTurn) (call : part.functionCall = none)
    (silent : part.thought = false) : Visible part.text := by
  have kind := turn.kind
  rw [call, silent] at kind
  exact kind.resolve_left (by decide)

theorem part_said (turn : part.OfTurn) (call : part.functionCall = none)
    (silent : part.thought = false) :
    v.part ids part = v.said part.text part.thoughtSignature := by
  have some_ : part.text ≠ "" := by
    intro empty
    have visible := turn.visible call silent
    rw [empty] at visible
    exact visible.2 rfl
  unfold View.part
  rw [call, turn.unseen, silent]
  exact if_pos some_

/-- A part adds its turn to the blocks. -/
theorem part_turn (turn : part.OfTurn)
    (once : part.functionCall = none → part.thought = true → v.openSigned = true →
      part.thoughtSignature = "") :
    turnOfItems (v.part ids part).content = turnOfItems v.content ++ part.turn := by
  unfold GeminiPart.turn
  cases call : part.functionCall with
  | some fc =>
    have kind := turn.kind
    rw [call] at kind
    obtain ⟨named, given⟩ := kind
    have pushed : (v.call ids fc part.thoughtSignature).content = v.content ++
        [toolItem ids v.generated fc part.thoughtSignature (some (fc.args.getD "{}"))] :=
      v.push_content _
    rw [part_call call, pushed, turnOfItems_append, turnOfItems, toolItem_turn named given]
    exact congrArg (_ ++ ·) (Turn.append_empty _)
  | none =>
    cases thought : part.thought with
    | true =>
      rw [part_thought turn call thought]
      exact v.thought_turn (once call thought)
    | false =>
      rw [part_said turn call thought]
      exact v.said_turn _ _

/-- The open run after a part. -/
theorem part_openSaid (turn : part.OfTurn) : (v.part ids part).openSaid =
    if part.functionCall = none ∧ part.thought = false ∧ part.thoughtSignature = "" then
      v.openSaid ++ part.text
    else "" := by
  cases call : part.functionCall with
  | some fc =>
    rw [part_call call]
    simp [View.openSaid, View.call, View.push]
  | none =>
    cases thought : part.thought with
    | true =>
      rw [part_thought turn call thought]
      unfold View.thought View.openSaid
      cases v.opened <;> simp
    | false =>
      rw [part_said turn call thought]
      unfold View.said
      by_cases unsigned : part.thoughtSignature = ""
      · rw [if_neg (not_not.mpr unsigned), if_pos ⟨rfl, rfl, unsigned⟩]
        unfold View.text View.openSaid
        cases v.opened <;> simp
      · rw [if_pos unsigned, if_neg fun ⟨_, _, nothing⟩ => unsigned nothing]
        rfl

/-- Whether the open thought is signed after a part. -/
theorem part_openSigned (turn : part.OfTurn) : (v.part ids part).openSigned =
    if part.functionCall = none ∧ part.thought = true then
      v.openSigned || part.thoughtSignature != ""
    else false := by
  cases call : part.functionCall with
  | some fc =>
    rw [part_call call]
    simp [View.openSigned, View.call, View.push]
  | none =>
    cases thought : part.thought with
    | true =>
      rw [part_thought turn call thought]
      unfold View.thought View.openSigned
      cases v.opened with
      | thinking before earlier =>
        by_cases unsigned : part.thoughtSignature = "" <;> simp [unsigned]
      | none => simp
      | text said => simp
    | false =>
      rw [part_said turn call thought]
      unfold View.said
      by_cases unsigned : part.thoughtSignature = ""
      · rw [if_neg (not_not.mpr unsigned)]
        unfold View.text View.openSigned
        cases v.opened <;> simp
      · rw [if_pos unsigned]
        rfl

variable (ids) in
/-- The blocks of a turn's parts hold the turn. -/
theorem fold_turn {parts : List GeminiPart} (turn : ∀ part ∈ parts, part.OfTurn)
    (once : SignedOnce v.openSigned parts) :
    turnOfItems (parts.foldl (fun v part => v.part ids part) v).content =
      turnOfItems v.content ++ turnOf parts := by
  induction parts generalizing v with
  | nil => exact (Turn.append_empty _).symm
  | cons part rest ih =>
    have here := turn part List.mem_cons_self
    unfold SignedOnce at once
    rw [List.foldl_cons, turnOf, ← Turn.append_assoc]
    split at once
    · rename_i thought
      rw [ih (fun other mem => turn other (List.mem_cons_of_mem _ mem)) ?_,
        part_turn here fun _ _ => once.1]
      rw [part_openSigned here, if_pos thought]
      exact once.2
    · rename_i other
      rw [ih (fun other mem => turn other (List.mem_cons_of_mem _ mem)) ?_,
        part_turn here fun call thought => absurd ⟨call, thought⟩ other]
      rw [part_openSigned here, if_neg other]
      exact once

/-- Every text among the blocks is visible. -/
def TextsVisible (items : List ClaudeContentItem) : Prop :=
  ∀ item ∈ items, item.type = .text → Visible item.text

/-- The finished texts are visible, and the open one is not blank. -/
structure View.Printed (v : View) : Prop where
  closed : TextsVisible v.closed
  opened : ∀ said, v.opened = .text said → trimSpace said ≠ ""

theorem View.Printed.content (printed : v.Printed) (whole : v.openSaid ≠ "(no content)") :
    TextsVisible v.content := by
  intro item mem kind
  rcases List.mem_append.mp mem with closed | opened
  · exact printed.closed item closed kind
  · unfold View.openSaid at whole
    cases open_ : v.opened with
    | none =>
      rw [open_] at opened
      cases opened
    | text said =>
      rw [open_] at opened whole
      rw [List.mem_singleton.mp opened]
      exact ⟨whole, printed.opened said open_⟩
    | thinking thought signature =>
      rw [open_] at opened
      rw [List.mem_singleton.mp opened] at kind
      cases kind

/-- What follows the open block, which is closed, begins with visible texts only. -/
theorem View.Printed.push (printed : v.Printed) (whole : v.openSaid ≠ "(no content)")
    {items : List ClaudeContentItem} (visible : TextsVisible items) : (v.push items).Printed := by
  constructor
  · intro item mem
    rcases List.mem_append.mp mem with before | new
    · exact printed.content whole item before
    · exact visible item new
  · intro said open_
    cases open_

theorem View.Printed.reopen (printed : v.Printed) {opened : OpenBlock}
    (here : ∀ said, opened = .text said → trimSpace said ≠ "") :
    ({ v with opened } : View).Printed :=
  ⟨printed.closed, here⟩

theorem textsVisible_nil : TextsVisible [] := fun _ mem => by cases mem

theorem View.Printed.text (printed : v.Printed) {text : String} (some_ : trimSpace text ≠ "") :
    (v.text text).Printed := by
  unfold View.text
  split
  · exact printed.reopen fun said open_ => by
      cases open_
      exact trimSpace_append_ne _ some_
  · rename_i other
    have whole : v.openSaid ≠ "(no content)" := by
      unfold View.openSaid
      split
      · rename_i said open_
        exact absurd open_ (other said)
      · decide
    exact (printed.push whole textsVisible_nil).reopen fun said open_ => by
      cases open_
      exact some_

theorem View.Printed.next (printed : v.Printed) (turn : part.OfTurn)
    (whole : ¬ (part.functionCall = none ∧ part.thought = false ∧ part.thoughtSignature = "") →
      v.openSaid ≠ "(no content)") : (v.part ids part).Printed := by
  cases call : part.functionCall with
  | some fc =>
    rw [part_call call]
    have silent : TextsVisible
        [toolItem ids v.generated fc part.thoughtSignature (some (fc.args.getD "{}"))] := by
      intro item mem kind
      rw [List.mem_singleton.mp mem] at kind
      cases kind
    have pushed := printed.push (whole fun plain => by simp [call] at plain) silent
    exact ⟨pushed.closed, pushed.opened⟩
  | none =>
    cases thought : part.thought with
    | true =>
      rw [part_thought turn call thought]
      unfold View.thought
      split
      · exact printed.reopen fun said open_ => by cases open_
      · exact (printed.push (whole fun plain => by simp [thought] at plain)
          textsVisible_nil).reopen fun said open_ => by cases open_
    | false =>
      rw [part_said turn call thought]
      have visible := turn.visible call thought
      unfold View.said
      split
      · rename_i some_
        apply printed.push (whole fun plain => some_ plain.2.2)
        intro item mem kind
        rcases List.mem_cons.mp mem with rfl | mem
        · exact visible
        · rw [List.mem_singleton.mp mem] at kind
          cases kind
      · exact printed.text visible.2

variable (ids) in
theorem fold_visible {parts : List GeminiPart} (turn : ∀ part ∈ parts, part.OfTurn)
    (printed : v.Printed) (runs : RunsVisible v.openSaid parts) :
    TextsVisible (parts.foldl (fun v part => v.part ids part) v).content := by
  induction parts generalizing v with
  | nil => exact printed.content runs
  | cons part rest ih =>
    have here := turn part List.mem_cons_self
    unfold RunsVisible at runs
    rw [List.foldl_cons]
    apply ih fun other mem => turn other (List.mem_cons_of_mem _ mem)
    · apply printed.next here
      intro ends
      rw [if_neg ends] at runs
      exact runs.1
    · rw [part_openSaid here]
      split
      · rename_i plain
        rw [if_pos plain] at runs
        exact runs
      · rename_i ends
        rw [if_neg ends] at runs
        exact runs.2

end Views

/-! ### The parts of blocks -/

/-- The same turn, with a signature for the calls that have none, and maybe for more. -/
structure Completes (t u : Turn) : Prop where
  calls : u.calls = t.calls.map fun call =>
    (call.1, if call.2 = "" then dummyThoughtSignature else call.2)
  said : u.said = t.said
  thoughts : u.thoughts = t.thoughts
  signatures : t.signatures.Sublist u.signatures

theorem Completes.append {t u t' u' : Turn} (first : Completes t u) (later : Completes t' u') :
    Completes (t ++ t') (u ++ u') := by
  constructor
  · rw [Turn.append_def, Turn.append_def, first.calls, later.calls, List.map_append]
  · rw [Turn.append_def, Turn.append_def, first.said, later.said]
  · rw [Turn.append_def, Turn.append_def, first.thoughts, later.thoughts]
  · exact first.signatures.append later.signatures

/-- For a Gemini model a signature that is missing is replaced. -/
theorem passedSignature_gemini (signature : String) : passedSignature true signature =
    some (if signature = "" then dummyThoughtSignature else signature) := by
  unfold passedSignature
  by_cases missing : signature = ""
  · simp [missing]
  · simp [missing]

theorem signed_sublist (signature : String) :
    (signed signature).Sublist
      (signed (if signature = "" then dummyThoughtSignature else signature)) := by
  by_cases missing : signature = ""
  · simp [signed, missing]
  · rw [if_neg missing]

theorem turnOf_singleton (part : GeminiPart) : turnOf [part] = part.turn := Turn.append_empty _

theorem buildBlock_turn {item : ClaudeContentItem} (visible : item.type = .text →
    item.text = "" ∨ Visible item.text) :
    Completes item.turn (turnOf (buildBlock true item).1) := by
  unfold buildBlock ClaudeContentItem.turn
  cases kind : item.type with
  | text =>
    rcases visible kind with empty | visible
    · rw [empty]
      exact ⟨rfl, rfl, rfl, List.Sublist.refl _⟩
    · dsimp only
      rw [if_pos visible, turnOf_singleton]
      exact ⟨rfl, rfl, rfl, List.Sublist.refl _⟩
  | thinking =>
    dsimp only
    rw [passedSignature_gemini, turnOf_singleton]
    exact ⟨rfl, rfl, rfl, signed_sublist _⟩
  | toolUse =>
    dsimp only
    rw [passedSignature_gemini, turnOf_singleton]
    exact ⟨rfl, rfl, rfl, signed_sublist _⟩

theorem buildParts_turn {items : List ClaudeContentItem}
    (visible : ∀ item ∈ items, item.type = .text → item.text = "" ∨ Visible item.text) :
    Completes (turnOfItems items) (turnOf (buildParts (.blocks items) true).1) := by
  induction items with
  | nil => exact ⟨rfl, rfl, rfl, List.Sublist.refl _⟩
  | cons item rest ih =>
    have split : (buildParts (.blocks (item :: rest)) true).1 =
        (buildBlock true item).1 ++ (buildParts (.blocks rest) true).1 := by
      change (item :: rest).flatMap (fun block => (buildBlock true block).1) = _
      rw [List.flatMap_cons]
      rfl
    rw [split, turnOf_append, turnOfItems]
    exact (buildBlock_turn (visible item List.mem_cons_self)).append
      (ih fun other mem => visible other (List.mem_cons_of_mem _ mem))

/-! ### The round trip -/

section RoundTrip

variable {ids : Ids} {parts : List GeminiPart}

variable (ids) in
/-- The blocks a stream of such a turn amounts to. -/
theorem view_completes (turn : ∀ part ∈ parts, part.OfTurn) (once : SignedOnce false parts)
    (runs : RunsVisible "" parts) {items : List ClaudeContentItem}
    (same : comparable items =
      comparable (parts.foldl (fun v part => v.part ids part) ({} : View)).content) :
    Completes (turnOf parts) (turnOf (buildParts (.blocks items) true).1) := by
  have printed : ({} : View).Printed := ⟨textsVisible_nil, fun said open_ => by cases open_⟩
  have visible := fold_visible ids turn printed runs
  have whole := fold_turn ids (v := {}) turn once
  have held : turnOfItems items = turnOf parts := by
    rw [← turnOfItems_comparable, same, turnOfItems_comparable, whole]
    exact Turn.empty_append _
  rw [← held]
  apply buildParts_turn
  intro item mem kind
  by_cases empty : item.text = ""
  · exact Or.inl empty
  · have kept : item ∈ comparable items := by
      apply List.mem_filter.mpr
      refine ⟨mem, ?_⟩
      unfold ClaudeContentItem.empty
      simp [kind, empty]
    rw [same] at kept
    exact Or.inr (visible item (List.mem_filter.mp kept).1 kind)

/-- The parts built of the blocks of a response. -/
def roundTrip (ids : Ids) (resp : GeminiResponse) (responseID model : String) : List GeminiPart :=
  (buildParts (.blocks (NonStreamingProcessor.process {} ids resp responseID model).content)
    true).1

/-- The parts built of the blocks that a stream assembles to. -/
def streamRoundTrip (ids : Ids) (unmarshal : Unmarshal) (lines : List String) (model : String) :
    List GeminiPart :=
  (buildParts (.blocks (assemble (StreamingProcessor.convert ids unmarshal lines model).2).content)
    true).1

/-- **The round trip of a turn.** Where no two thoughts of one run are signed and no run of unsigned
texts adds up to the mark for no content, the stream of a turn comes back with its calls, texts,
thoughts and signatures, the calls without a signature with the one that stands for it; and so does
the whole response, where no signed text follows an unsigned one. -/
theorem survives (ids : Ids) (resp : GeminiResponse) (turn : ∀ part ∈ resp.parts, part.OfTurn)
    (ungrounded : resp.groundingMetadata = none) (once : SignedOnce false resp.parts)
    (runs : RunsVisible "" resp.parts) :
    (∀ unmarshal lines before last model,
      lines.filterMap (StreamingProcessor.parseLine unmarshal) = before ++ [last] →
      Distributes resp before last →
      Completes (turnOf resp.parts) (turnOf (streamRoundTrip ids unmarshal lines model))) ∧
    (Separate .other resp.parts → ∀ responseID model,
      Completes (turnOf resp.parts) (turnOf (roundTrip ids resp responseID model))) := by
  constructor
  · intro unmarshal lines before last model parsed distributes
    apply view_completes ids turn once runs
    obtain ⟨content, _⟩ := @StreamingProcessor.convert_reads ids unmarshal lines resp before last
      parsed distributes model
    rw [content, ungrounded]
    exact congrArg comparable (List.append_nil _)
  · intro separate responseID model
    apply view_completes ids turn once runs
    have began : Sim .other {} {} := ⟨⟨rfl, rfl, rfl, rfl⟩, rfl, rfl, rfl⟩
    obtain ⟨last, sim⟩ := @parts_sim _ _ _ ids resp.parts began separate
    obtain ⟨blocks, _⟩ := sim.process resp.groundingMetadata
    refine blocks.trans ?_
    rw [ungrounded]
    exact congrArg comparable (List.append_nil _)

/-- The turn in order, with a thought that is signed, comes back. -/
theorem survives_inOrder :
    Completes (turnOf Sample.inOrder) (turnOf (streamRoundTrip Sample.ids
        (Sample.unmarshalParts Sample.inOrder) ["data:" ++ Sample.inOrderData] "m")) ∧
      Completes (turnOf Sample.inOrder)
        (turnOf (roundTrip Sample.ids (Sample.response Sample.inOrder) "" "m")) := by
  have turn : ∀ part ∈ (Sample.response Sample.inOrder).parts, part.OfTurn := by
    intro part mem
    change part ∈ Sample.inOrder at mem
    unfold Sample.inOrder at mem
    rcases List.mem_cons.mp mem with rfl | mem
    · exact ⟨rfl, by decide, Or.inl rfl⟩
    · rw [List.mem_singleton.mp mem]
      exact ⟨rfl, by decide, Or.inr (by decide)⟩
  obtain ⟨streamed, whole⟩ := survives Sample.ids (Sample.response Sample.inOrder) turn rfl
    ⟨fun never => absurd never (by decide), trivial⟩
    ⟨by decide, show "" ++ "a" ≠ "(no content)" by decide⟩
  constructor
  · apply streamed (Sample.unmarshalParts Sample.inOrder) ["data:" ++ Sample.inOrderData] []
      { response := Sample.response Sample.inOrder } "m"
      (List.filterMap_cons_some Sample.parsed_inOrder)
    refine ⟨rfl, ?_, rfl, rfl, rfl⟩
    intro chunk impossible
    cases impossible
  · apply whole
    refine ⟨⟨?_, fun impossible => absurd rfl impossible⟩,
      ⟨?_, fun impossible => absurd rfl impossible⟩, trivial⟩
    · intro impossible
      cases impossible
    · intro _ _ impossible
      cases impossible

/-- The same turn. -/
structure Preserves (t u : Turn) : Prop where
  calls : u.calls = t.calls
  said : u.said = t.said
  thoughts : u.thoughts = t.thoughts
  signatures : t.signatures.Sublist u.signatures

/-- A call without a signature comes back with the one that stands for it. -/
theorem unsigned_call_signed :
    let parts : List GeminiPart :=
      [{ functionCall := some { name := "f", args := some "\x7b\x7d", id := "1" } }]
    (∀ part ∈ parts, part.OfTurn) ∧
      ¬ Preserves (turnOf parts) (turnOf (roundTrip Sample.ids (Sample.response parts) "" "m")) := by
  intro parts
  constructor
  · intro part mem
    rw [List.mem_singleton.mp mem]
    exact ⟨rfl, by decide, by decide, by decide⟩
  · intro same
    exact absurd same.calls (by decide +kernel)

end RoundTrip

end Sub2api.Antigravity
