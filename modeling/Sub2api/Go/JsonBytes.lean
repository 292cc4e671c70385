import Sub2api.Go.Json

/-!
# JSON bytes

The scanner of `encoding/json` reads bytes, so its characters here are bytes. Beside the grammar of
JSON two more lenient ones are read: in the first a raw control byte within a string stands for
itself, in the second it may also follow a backslash there, and the two stand for a backslash and
the byte's escape without its own backslash.

A value keeps the units of its strings: code units, and the bytes of other characters, which
`unquote` decodes afterwards.
-/

namespace Sub2api.Go.JsonBytes

open Json

/-- A byte as a character of the scanner. -/
def char (b : UInt8) : Char := Char.ofNat b.toNat

theorem toNat_char (b : UInt8) : (char b).toNat = b.toNat := by
  have valid : b.toNat.isValidChar := Or.inl (by have := b.toNat_lt; omega)
  rw [char, Char.ofNat, dif_pos valid]
  rfl

def isControl (b : UInt8) : Bool := b < 0x20 || b == 0x7f

inductive Grammar where
  | strict
  | lenient
  | lax
  deriving DecidableEq

/-- A step of the scanner. -/
def scan (g : Grammar) (s : Scanner) (b : UInt8) : Scanned :=
  match s.state with
  | .inString => if g ≠ .strict ∧ isControl b then some (.continue, s) else s.step (char b)
  | .inStringEsc =>
    if g = .lax ∧ isControl b then s.goto .inString .continue else s.step (char b)
  | _ => s.step (char b)

/-! ### Values -/

/-- A code unit of a string, or a byte of a character outside ASCII. -/
inductive Piece where
  | code (unit : ℕ)
  | byte (b : UInt8)

def piece (b : UInt8) : Piece := if b < 0x80 then .code b.toNat else .byte b

inductive Value where
  /-- A number or a word. -/
  | plain (literal : List UInt8)
  | string (pieces : List Piece)
  | array (items : List Value)
  /-- The members in their order; a map keeps the last of each key. -/
  | object (members : List (List Piece × Value))

inductive Frame where
  | array (items : List Value)
  | object (members : List (List Piece × Value)) (key : List Piece)

def Frame.add : Frame → Value → Frame
  | .array items, v => .array (items ++ [v])
  | .object members key, v => .object (members ++ [(key, v)]) key

def Frame.rekey : Frame → Value → Frame
  | .object members _, .string key => .object members key
  | frame, _ => frame

def Frame.close : Frame → Value
  | .array items => .array items
  | .object members _ => .object members

/-- The literal that is being read, the pieces of it when it is a string and the digits of an
escape so far; or the value that was read last; in the frames around it. -/
structure Reader where
  literal : List UInt8 := []
  pieces : List Piece := []
  unit : ℕ := 0
  value : Option Value := none
  frames : List Frame := []

/-- What a character after a backslash stands for. -/
def escapeUnit (c : Char) : ℕ :=
  if c = 'b' then 8 else if c = 'f' then 12 else if c = 'n' then 10 else if c = 'r' then 13
  else if c = 't' then 9 else c.toNat

/-- The digits of an escape. -/
def hexByte (n : ℕ) : UInt8 := "0123456789abcdef".toUTF8.toList.getD n 0

/-- The escape of a byte, as `appendJSONUnicodeEscape` appends it. -/
def unicodeEscape (b : UInt8) : List UInt8 :=
  [0x5c, 0x75, 0x30, 0x30, hexByte (b >>> 4).toNat, hexByte (b &&& 0x0f).toNat]

namespace Reader

def current (r : Reader) : Option Value :=
  match r.literal with
  | [] => r.value
  | first :: rest => some (if first = 0x22 then .string r.pieces else .plain (first :: rest))

/-- The frames with the value that is complete now. -/
def taken (r : Reader) : List Frame := intoInnermost .add r.current r.frames

/-- The value that is complete now becomes the key of the next one. -/
def keyed (r : Reader) : List Frame := intoInnermost .rekey r.current r.frames

def emit (r : Reader) (pieces : List Piece) : Reader :=
  { r with pieces := r.pieces ++ pieces, unit := 0 }

/-- A byte within a literal, in the state before it. -/
def put (r : Reader) (state : ScanState) (b : UInt8) : Reader :=
  match state with
  | .inString => if b = 0x22 ∨ b = 0x5c then r else r.emit [piece b]
  | .inStringEsc =>
    if isControl b then r.emit (piece 0x5c :: (unicodeEscape b).tail.map piece)
    else if b = 0x75 then { r with unit := 0 }
    else r.emit [.code (escapeUnit (char b))]
  | .inStringEscU left =>
    let unit := 16 * r.unit + hexValue (char b)
    if left = 0 then r.emit [.code unit] else { r with unit := unit }
  | _ => { r with literal := r.literal ++ [b] }

def next (r : Reader) (state : ScanState) (b : UInt8) : Opcode → Reader
  | .beginLiteral => { literal := [b], frames := r.frames }
  | .continue => r.put state b
  | .beginObject => { frames := .object [] [] :: r.frames }
  | .beginArray => { frames := .array [] :: r.frames }
  | .objectKey => { frames := r.keyed }
  | .objectValue | .arrayValue => { frames := r.taken }
  | .endObject | .endArray =>
    match r.taken with
    | frame :: outer => { value := some frame.close, frames := outer }
    | [] => r
  | .skipSpace | .end => r

end Reader

/-- The scanner and its reader. -/
abbrev Machine := Scanner × Reader

def step (g : Grammar) (m : Machine) (b : UInt8) : Option Machine :=
  (scan g m.1 b).map fun (op, s) => (s, m.2.next m.1.state b op)

def run (g : Grammar) (m : Machine) (text : List UInt8) : Option Machine := text.foldlM (step g) m

/-- The value of a text in a grammar. -/
def decode (g : Grammar) (text : List UInt8) : Option Value :=
  (run g ({}, {}) text).bind fun (s, r) =>
    if s.eof then some (r.current.getD (.plain [])) else none

@[simp] theorem run_nil (g : Grammar) (m : Machine) : run g m [] = some m := rfl

@[simp] theorem run_cons (g : Grammar) (m : Machine) (b : UInt8) (rest : List UInt8) :
    run g m (b :: rest) = (step g m b).bind fun m => run g m rest := List.foldlM_cons

theorem run_append (g : Grammar) (m : Machine) (first later : List UInt8) :
    run g m (first ++ later) = (run g m first).bind fun m => run g m later := List.foldlM_append

/-! ### Where strings begin -/

section Opens

variable {s s' : Scanner} {c : Char} {op op' : Opcode}

/-- No string is being read, and no word with a quote in it. -/
def Outside : ScanState → Prop
  | .inString | .inStringEsc | .inStringEscU _ => False
  | .word rest => '"' ∉ rest
  | _ => True

/-- Outside strings a quote opens one, and nothing else does. -/
def Opens (c : Char) (state : ScanState) : Prop :=
  (c = '"' ∧ state = .inString) ∨ (c ≠ '"' ∧ Outside state)

theorem opens_goto {state : ScanState} (other : c ≠ '"')
    (stepped : s.goto state op = some (op', s')) (outside : Outside state) : Opens c s'.state := by
  cases stepped
  exact Or.inr ⟨other, outside⟩

theorem opens_pop (other : c ≠ '"') (stepped : s.pop op = some (op', s')) : Opens c s'.state := by
  unfold Scanner.pop at stepped
  split at stepped
  all_goals
    cases stepped
    exact Or.inr ⟨other, trivial⟩

theorem opens_push {parse : ParseState} {state : ScanState} (other : c ≠ '"')
    (stepped : s.push parse state op = some (op', s')) (outside : Outside state) :
    Opens c s'.state := by
  unfold Scanner.push at stepped
  split at stepped
  · cases stepped
    exact Or.inr ⟨other, outside⟩
  · cases stepped

theorem ne_quote_of_isSpace (space : Json.isSpace c = true) : c ≠ '"' := by
  rintro rfl
  exact absurd space (by decide)

theorem ne_quote_of_isDigit (digit : isDigit c = true) : c ≠ '"' := by
  rintro rfl
  exact absurd digit (by decide)

theorem opens_endTop (stepped : s.stateEndTop c = some (op, s')) : Opens c s'.state := by
  unfold Scanner.stateEndTop at stepped
  split at stepped
  · rename_i space
    exact opens_goto (ne_quote_of_isSpace space) stepped trivial
  · cases stepped

theorem opens_endValue (stepped : s.stateEndValue c = some (op, s')) : Opens c s'.state := by
  unfold Scanner.stateEndValue at stepped
  split at stepped
  · exact opens_endTop stepped
  · split at stepped
    · rename_i space
      exact opens_goto (ne_quote_of_isSpace space) stepped trivial
    · split at stepped
      · split at stepped
        · rename_i colon
          cases stepped
          exact Or.inr ⟨by rw [colon]; decide, trivial⟩
        · cases stepped
      · split at stepped
        · rename_i comma
          cases stepped
          exact Or.inr ⟨by rw [comma]; decide, trivial⟩
        · split at stepped
          · rename_i brace
            exact opens_pop (by rw [brace]; decide) stepped
          · cases stepped
      · split at stepped
        · rename_i comma
          exact opens_goto (by rw [comma]; decide) stepped trivial
        · split at stepped
          · rename_i bracket
            exact opens_pop (by rw [bracket]; decide) stepped
          · cases stepped

theorem opens_beginString (outside : Outside s.state)
    (stepped : s.stateBeginString c = some (op, s')) : Opens c s'.state := by
  unfold Scanner.stateBeginString at stepped
  split at stepped
  · rename_i space
    cases stepped
    exact Or.inr ⟨ne_quote_of_isSpace space, outside⟩
  · split at stepped
    · rename_i quote
      cases stepped
      exact Or.inl ⟨quote, rfl⟩
    · cases stepped

theorem opens_beginValue (outside : Outside s.state)
    (stepped : s.stateBeginValue c = some (op, s')) : Opens c s'.state := by
  unfold Scanner.stateBeginValue at stepped
  by_cases space : Json.isSpace c = true
  · rw [if_pos space] at stepped
    cases stepped
    exact Or.inr ⟨ne_quote_of_isSpace space, outside⟩
  by_cases quote : c = '"'
  · subst quote
    cases stepped
    exact Or.inl ⟨rfl, rfl⟩
  rw [if_neg space] at stepped
  rcases ite_eq_iff.mp stepped with ⟨_, stepped⟩ | ⟨_, stepped⟩
  · exact opens_push quote stepped trivial
  rcases ite_eq_iff.mp stepped with ⟨_, stepped⟩ | ⟨_, stepped⟩
  · exact opens_push quote stepped trivial
  rw [if_neg quote] at stepped
  rcases ite_eq_iff.mp stepped with ⟨_, stepped⟩ | ⟨_, stepped⟩
  · exact opens_goto quote stepped trivial
  rcases ite_eq_iff.mp stepped with ⟨_, stepped⟩ | ⟨_, stepped⟩
  · exact opens_goto quote stepped trivial
  rcases ite_eq_iff.mp stepped with ⟨_, stepped⟩ | ⟨_, stepped⟩
  · exact opens_goto quote stepped (by decide : '"' ∉ ['r', 'u', 'e'])
  rcases ite_eq_iff.mp stepped with ⟨_, stepped⟩ | ⟨_, stepped⟩
  · exact opens_goto quote stepped (by decide : '"' ∉ ['a', 'l', 's', 'e'])
  rcases ite_eq_iff.mp stepped with ⟨_, stepped⟩ | ⟨_, stepped⟩
  · exact opens_goto quote stepped (by decide : '"' ∉ ['u', 'l', 'l'])
  rcases ite_eq_iff.mp stepped with ⟨_, stepped⟩ | ⟨_, stepped⟩
  · exact opens_goto quote stepped trivial
  · cases stepped

theorem opens_state0 (stepped : s.state0 c = some (op, s')) : Opens c s'.state := by
  unfold Scanner.state0 at stepped
  split at stepped
  · rename_i dot
    exact opens_goto (by rw [dot]; decide) stepped trivial
  · split at stepped
    · rename_i exponent
      refine opens_goto ?_ stepped trivial
      rintro rfl
      exact absurd exponent (by decide)
    · exact opens_endValue stepped

/-- A step within a number: a digit, or what follows. -/
theorem opens_digit {found : Scanned} {later : Scanned}
    (stepped : (if isDigit c then found else later) = some (op, s'))
    (digits : found = some (op, s') → Outside s'.state)
    (rest : later = some (op, s') → Opens c s'.state) : Opens c s'.state := by
  split at stepped
  · rename_i digit
    exact Or.inr ⟨ne_quote_of_isDigit digit, digits stepped⟩
  · exact rest stepped

theorem step_opens (outside : Outside s.state) (stepped : s.step c = some (op, s')) :
    Opens c s'.state := by
  obtain ⟨state, parse⟩ := s
  cases state with
  | beginValue => exact opens_beginValue outside stepped
  | beginValueOrEmpty =>
    simp only [Scanner.step] at stepped
    split at stepped
    · rename_i space
      cases stepped
      exact Or.inr ⟨ne_quote_of_isSpace space, trivial⟩
    split at stepped
    · exact opens_endValue stepped
    · exact opens_beginValue outside stepped
  | beginString => exact opens_beginString outside stepped
  | beginStringOrEmpty =>
    simp only [Scanner.step] at stepped
    split at stepped
    · rename_i space
      cases stepped
      exact Or.inr ⟨ne_quote_of_isSpace space, trivial⟩
    split at stepped
    · exact opens_endValue stepped
    · exact opens_beginString outside stepped
  | endValue => exact opens_endValue stepped
  | endTop => exact opens_endTop stepped
  | inString => exact outside.elim
  | inStringEsc => exact outside.elim
  | inStringEscU _ => exact outside.elim
  | neg =>
    simp only [Scanner.step] at stepped
    split at stepped
    · rename_i zero
      exact opens_goto (by rw [zero]; decide) stepped trivial
    · exact opens_digit stepped (by rintro ⟨⟩; trivial) nofun
  | int => exact opens_digit stepped (by rintro ⟨⟩; trivial) opens_state0
  | zero => exact opens_state0 stepped
  | dot => exact opens_digit stepped (by rintro ⟨⟩; trivial) nofun
  | fraction =>
    refine opens_digit stepped (by rintro ⟨⟩; trivial) fun stepped => ?_
    split at stepped
    · rename_i exponent
      refine opens_goto ?_ stepped trivial
      rintro rfl
      exact absurd exponent (by decide)
    · exact opens_endValue stepped
  | exponent =>
    simp only [Scanner.step] at stepped
    split at stepped
    · rename_i sign
      refine opens_goto ?_ stepped trivial
      rintro rfl
      exact absurd sign (by decide)
    · exact opens_digit stepped (by rintro ⟨⟩; trivial) nofun
  | exponentSign => exact opens_digit stepped (by rintro ⟨⟩; trivial) nofun
  | exponentDigits => exact opens_digit stepped (by rintro ⟨⟩; trivial) opens_endValue
  | word rest =>
    have spelled : '"' ∉ rest := outside
    match rest with
    | [] => exact opens_endValue stepped
    | [last] =>
      simp only [Scanner.step] at stepped
      split at stepped
      · rename_i here
        refine opens_goto ?_ stepped trivial
        rintro rfl
        exact spelled (here ▸ List.mem_cons_self)
      · cases stepped
    | next :: more :: rest =>
      simp only [Scanner.step] at stepped
      split at stepped
      · rename_i here
        refine opens_goto ?_ stepped (fun mem => spelled (List.mem_cons_of_mem _ mem))
        rintro rfl
        exact spelled (here ▸ List.mem_cons_self)
      · cases stepped

end Opens

end Sub2api.Go.JsonBytes
