import Sub2api.Go.JsonBytes

/-!
# Control bytes in JSON strings

A scanner with two flags, within a string and after a backslash, stays in step with the scanner of
`encoding/json` on every text (`Agree.step`). So a text whose control bytes are escaped by these flags
is read as JSON exactly as the lax grammar reads the text (`run_escapeControls`), which differs from
the lenient grammar where a control byte follows a backslash (`run_lenient`).
-/

namespace Sub2api.Go.JsonBytes

open Json

/-! ### Flags beside the scanner -/

/-- Within a string, and after a backslash there. -/
structure Flags where
  inString : Bool := false
  escaped : Bool := false

def Flags.next (f : Flags) (b : UInt8) : Flags :=
  if f.escaped then { f with escaped := false }
  else if f.inString ∧ b = 0x5c then { f with escaped := true }
  else if b = 0x22 then { f with inString := !f.inString }
  else f

/-- The flags tell where the scanner is. -/
inductive Agree : Flags → ScanState → Prop
  | outside {state : ScanState} (outside : Outside state) : Agree ⟨false, false⟩ state
  | string : Agree ⟨true, false⟩ .inString
  | escape : Agree ⟨true, true⟩ .inStringEsc
  | digits (left : ℕ) : Agree ⟨true, false⟩ (.inStringEscU left)

theorem char_eq_iff {b b' : UInt8} : char b = char b' ↔ b = b' := by
  constructor
  · intro same
    have numbers := congrArg Char.toNat same
    rw [toNat_char, toNat_char] at numbers
    exact UInt8.toNat_inj.mp numbers
  · exact congrArg char

theorem char_eq_quote {b : UInt8} : char b = '"' ↔ b = 0x22 := @char_eq_iff b 0x22

theorem char_eq_backslash {b : UInt8} : char b = '\\' ↔ b = 0x5c := @char_eq_iff b 0x5c

variable {s s' : Scanner} {b : UInt8} {op : Opcode} {f : Flags}

theorem Agree.step (agree : Agree f s.state) (stepped : s.step (char b) = some (op, s')) :
    Agree (f.next b) s'.state := by
  obtain ⟨state, parse⟩ := s
  cases agree with
  | outside outside =>
    rcases step_opens outside stepped with ⟨quote, began⟩ | ⟨other, still⟩
    · rw [char_eq_quote] at quote
      rw [quote, began]
      exact .string
    · rw [Ne, char_eq_quote] at other
      have same : Flags.next ⟨false, false⟩ b = ⟨false, false⟩ := by simp [Flags.next, other]
      rw [same]
      exact .outside still
  | string =>
    simp only [Scanner.step, char_eq_quote, char_eq_backslash] at stepped
    split at stepped
    · rename_i quote
      cases stepped
      rw [quote]
      exact .outside trivial
    · split at stepped
      · rename_i backslash
        cases stepped
        rw [backslash]
        exact .escape
      · rename_i quote backslash
        have same : Flags.next ⟨true, false⟩ b = ⟨true, false⟩ := by
          simp [Flags.next, quote, backslash]
        rw [same]
        split at stepped
        · cases stepped
        · cases stepped
          exact .string
  | escape =>
    simp only [Scanner.step] at stepped
    split at stepped
    · cases stepped
      exact .string
    · split at stepped
      · cases stepped
        exact .digits 3
      · cases stepped
  | digits left =>
    simp only [Scanner.step] at stepped
    split at stepped
    · rename_i hex
      have quote : b ≠ 0x22 := by
        rintro rfl
        exact absurd hex (by decide)
      have backslash : b ≠ 0x5c := by
        rintro rfl
        exact absurd hex (by decide)
      have same : Flags.next ⟨true, false⟩ b = ⟨true, false⟩ := by
        simp [Flags.next, quote, backslash]
      rw [same]
      cases left with
      | zero =>
        cases stepped
        exact .string
      | succ more =>
        cases stepped
        exact .digits more
    · cases stepped

/-! ### Escaping control bytes -/

/-- A text with the control bytes of its strings escaped. -/
def escapeControls : Flags → List UInt8 → List UInt8
  | _, [] => []
  | f, b :: rest =>
    if f.inString ∧ isControl b then
      unicodeEscape b ++ escapeControls { f with escaped := false } rest
    else b :: escapeControls (f.next b) rest

/-- Whether a control byte follows a backslash within a string. -/
def escapedControl : Flags → List UInt8 → Bool
  | _, [] => false
  | f, b :: rest =>
    if f.inString ∧ isControl b then
      f.escaped || escapedControl { f with escaped := false } rest
    else escapedControl (f.next b) rest

/-- The control bytes of a text's strings. -/
def controls : Flags → List UInt8 → ℕ
  | _, [] => 0
  | f, b :: rest =>
    if f.inString ∧ isControl b then controls { f with escaped := false } rest + 1
    else controls (f.next b) rest

theorem length_escapeControls (f : Flags) (text : List UInt8) :
    (escapeControls f text).length = text.length + 5 * controls f text := by
  induction text generalizing f with
  | nil => rfl
  | cons b rest ih =>
    rw [escapeControls, controls]
    split
    · rw [List.length_append, ih, List.length_cons]
      simp only [unicodeEscape, List.length_cons, List.length_nil]
      omega
    · rw [List.length_cons, ih, List.length_cons]
      omega

/-! ### The escaped text is read as the lax one -/

theorem isControl_cases (control : isControl b = true) : b ≠ 0x22 ∧ b ≠ 0x5c ∧ b < 0x80 := by
  rw [isControl, Bool.or_eq_true, decide_eq_true_eq, beq_iff_eq] at control
  refine ⟨?_, ?_, ?_⟩
  · rintro rfl
    exact absurd control (by decide)
  · rintro rfl
    exact absurd control (by decide)
  · rcases control with low | rfl
    · rw [UInt8.lt_iff_toNat_lt] at low ⊢
      exact low.trans (by decide)
    · decide

theorem isHex_of_isControl (control : isControl b = true) : isHex (char b) = false := by
  have table : ∀ n < 256, n < 32 ∨ n = 127 → isHex (Char.ofNat n) = false := by decide +kernel
  rw [isControl, Bool.or_eq_true, decide_eq_true_eq, beq_iff_eq] at control
  refine table b.toNat b.toNat_lt (control.imp UInt8.lt_iff_toNat_lt.mp ?_)
  rintro rfl
  rfl

theorem hexByte_facts : ∀ n < 16, isHex (char (hexByte n)) = true ∧
    hexValue (char (hexByte n)) = n ∧ isControl (hexByte n) = false ∧ hexByte n ≠ 0x22 ∧
    hexByte n ≠ 0x5c := by
  decide +kernel

theorem unicodeEscape_eq (b : UInt8) : unicodeEscape b =
    [0x5c, 0x75, hexByte 0, hexByte 0, hexByte (b.toNat / 16), hexByte (b.toNat % 16)] := by
  have high : (b >>> 4).toNat = b.toNat / 16 := by
    rw [UInt8.toNat_shiftRight, Nat.shiftRight_eq_div_pow]
    rfl
  have low : (b &&& 0x0f).toNat = b.toNat % 16 := by
    rw [UInt8.toNat_and]
    exact Nat.and_two_pow_sub_one_eq_mod b.toNat 4
  rw [unicodeEscape, high, low, show (0x30 : UInt8) = hexByte 0 by decide +kernel]

variable {parse : List ParseState} {r : Reader} {g : Grammar}

theorem step_ordinary (quote : b ≠ 0x22) (backslash : b ≠ 0x5c) (visible : isControl b = false) :
    step g (⟨.inString, parse⟩, r) b = some (⟨.inString, parse⟩, r.emit [piece b]) := by
  have high : ¬(char b).toNat < 0x20 := by
    rw [toNat_char]
    rw [isControl, Bool.or_eq_false_iff, decide_eq_false_iff_not] at visible
    exact visible.1
  have scanned : scan g ⟨.inString, parse⟩ b = some (.continue, ⟨.inString, parse⟩) := by
    simp only [scan, visible, Bool.false_eq_true, and_false, if_false, Scanner.step, char_eq_quote,
      quote, char_eq_backslash, backslash, high]
  rw [step, scanned]
  simp only [Option.map_some, Reader.next, Reader.put, quote, backslash, or_self, if_false]

theorem step_hex {left : ℕ} (hex : isHex (char b) = true) :
    step g (⟨.inStringEscU (left + 1), parse⟩, r) b =
      some (⟨.inStringEscU left, parse⟩, { r with unit := 16 * r.unit + hexValue (char b) }) := by
  simp only [step, scan, Scanner.step, hex, if_true, Scanner.goto, Option.map_some, Reader.next,
    Reader.put, Nat.add_one_ne_zero, if_false]

theorem step_last_hex (hex : isHex (char b) = true) :
    step g (⟨.inStringEscU 0, parse⟩, r) b =
      some (⟨.inString, parse⟩, r.emit [.code (16 * r.unit + hexValue (char b))]) := by
  simp only [step, scan, Scanner.step, hex, if_true, Scanner.goto, Option.map_some, Reader.next,
    Reader.put]

theorem emit_emit (first later : List Piece) :
    (r.emit first).emit later = r.emit (first ++ later) := by
  simp [Reader.emit]

theorem piece_of_control (control : isControl b = true) : piece b = .code b.toNat := by
  rw [piece, if_pos (isControl_cases control).2.2]

theorem run_unicodeEscape_string :
    run .strict (⟨.inString, parse⟩, r) (unicodeEscape b) =
      some (⟨.inString, parse⟩, r.emit [.code b.toNat]) := by
  have zero := hexByte_facts 0 (by omega)
  have high := hexByte_facts (b.toNat / 16) (by have := b.toNat_lt; omega)
  have low := hexByte_facts (b.toNat % 16) (Nat.mod_lt _ (by omega))
  have opened : step .strict (⟨.inString, parse⟩, r) 0x5c = some (⟨.inStringEsc, parse⟩, r) := rfl
  have unit : ∀ r : Reader, step .strict (⟨.inStringEsc, parse⟩, r) 0x75 =
      some (⟨.inStringEscU 3, parse⟩, { r with unit := 0 }) := fun _ => rfl
  rw [unicodeEscape_eq, run_cons, opened, Option.bind_some, run_cons, unit, Option.bind_some,
    run_cons, step_hex zero.1, Option.bind_some, run_cons, step_hex zero.1, Option.bind_some,
    run_cons, step_hex high.1, Option.bind_some, run_cons, step_last_hex low.1, Option.bind_some,
    run_nil]
  simp only [zero.2.1, high.2.1, low.2.1, Reader.emit]
  rw [show 16 * (16 * (16 * (16 * 0 + 0) + 0) + b.toNat / 16) + b.toNat % 16 = b.toNat by omega]

theorem run_unicodeEscape_escape :
    run .strict (⟨.inStringEsc, parse⟩, r) (unicodeEscape b) =
      some (⟨.inString, parse⟩, r.emit (piece 0x5c :: (unicodeEscape b).tail.map piece)) := by
  obtain ⟨-, -, zero, zero', zero''⟩ := hexByte_facts 0 (by omega)
  obtain ⟨-, -, high, high', high''⟩ := hexByte_facts (b.toNat / 16)
    (by have := b.toNat_lt; omega)
  obtain ⟨-, -, low, low', low''⟩ := hexByte_facts (b.toNat % 16) (Nat.mod_lt _ (by omega))
  have closed : step .strict (⟨.inStringEsc, parse⟩, r) 0x5c =
      some (⟨.inString, parse⟩, r.emit [piece 0x5c]) := rfl
  rw [unicodeEscape_eq, run_cons, closed, Option.bind_some, run_cons,
    step_ordinary (by decide) (by decide) (by decide), Option.bind_some, run_cons,
    step_ordinary zero' zero'' zero, Option.bind_some, run_cons,
    step_ordinary zero' zero'' zero, Option.bind_some, run_cons,
    step_ordinary high' high'' high, Option.bind_some, run_cons,
    step_ordinary low' low'' low, Option.bind_some, run_nil]
  simp only [emit_emit, List.cons_append, List.nil_append, List.tail_cons, List.map_cons,
    List.map_nil]

/-- A control byte of a string and its escape. -/
theorem run_unicodeEscape (agree : Agree f s.state) (inString : f.inString = true)
    (control : isControl b = true) :
    run .strict (s, r) (unicodeEscape b) = step .lax (s, r) b := by
  obtain ⟨quote, backslash, low⟩ := isControl_cases control
  obtain ⟨state, parse⟩ := s
  cases agree with
  | outside _ => cases inString
  | string =>
    rw [run_unicodeEscape_string]
    simp only [step, scan, control, Reader.next, Reader.put, quote, backslash, or_self, if_false,
      piece_of_control control]
    rfl
  | escape =>
    rw [run_unicodeEscape_escape]
    simp only [step, scan, control, Option.map_some, Reader.next, Reader.put, and_self, if_true,
      Scanner.goto]
  | digits left =>
    have refused : step .strict (⟨.inStringEscU left, parse⟩, r) 0x5c = none := rfl
    rw [unicodeEscape_eq, run_cons, refused, Option.bind_none]
    simp only [step, scan, Scanner.step, isHex_of_isControl control, Bool.false_eq_true, if_false, Option.map_none]

/-- No control byte follows a backslash in JSON. -/
theorem escape_refuses (control : isControl b = true) :
    (⟨.inStringEsc, parse⟩ : Scanner).step (char b) = none := by
  have table : ∀ n < 256, n < 32 ∨ n = 127 →
      Char.ofNat n ∉ ['b', 'f', 'n', 'r', 't', '\\', '/', '"'] ∧ Char.ofNat n ≠ 'u' := by
    decide +kernel
  rw [isControl, Bool.or_eq_true, decide_eq_true_eq, beq_iff_eq] at control
  have facts := table b.toNat b.toNat_lt (control.imp UInt8.lt_iff_toNat_lt.mp (by rintro rfl; rfl))
  simp only [Scanner.step]
  rw [if_neg (show char b ∉ _ from facts.1), if_neg (show char b ≠ 'u' from facts.2)]

/-- Where a byte is no control byte of a string, the grammars agree. -/
theorem scan_of_visible (agree : Agree f s.state) (visible : ¬(f.inString = true ∧ isControl b = true)) :
    scan g s b = s.step (char b) := by
  unfold scan
  cases agreed : s.state with
  | inString =>
    rw [agreed] at agree
    cases agree with
    | outside outside => exact outside.elim
    | string => exact if_neg fun both => visible ⟨rfl, both.2⟩
  | inStringEsc =>
    rw [agreed] at agree
    cases agree with
    | outside outside => exact outside.elim
    | escape => exact if_neg fun both => visible ⟨rfl, both.2⟩
  | _ => rfl

/-- After a control byte of a string that is accepted the scanner is within the string. -/
theorem agree_of_control (agree : Agree f s.state) (inString : f.inString = true)
    (control : isControl b = true) (scanned : scan g s b = some (op, s')) :
    Agree { f with escaped := false } s'.state := by
  obtain ⟨quote, backslash, -⟩ := isControl_cases control
  obtain ⟨state, parse⟩ := s
  cases agree with
  | outside _ => cases inString
  | string =>
    simp only [scan, Scanner.step, char_eq_quote, quote, char_eq_backslash, backslash,
      if_false] at scanned
    split at scanned
    · cases scanned
      exact .string
    · split at scanned
      · cases scanned
      · cases scanned
        exact .string
  | escape =>
    simp only [scan] at scanned
    split at scanned
    · cases scanned
      exact .string
    · have stepped := Agree.step (b := b) Agree.escape scanned
      exact stepped
  | digits left =>
    simp only [scan, Scanner.step, isHex_of_isControl control, Bool.false_eq_true,
      if_false] at scanned
    cases scanned

/-- **The scanner stays in step with the flags**: the escaped text is read as the lax grammar reads
the text. -/
theorem run_escapeControls (agree : Agree f s.state) (text : List UInt8) :
    run .strict (s, r) (escapeControls f text) = run .lax (s, r) text := by
  induction text generalizing f s r with
  | nil => rfl
  | cons b rest ih =>
    rw [escapeControls, run_cons]
    split
    · rename_i both
      rw [run_append, run_unicodeEscape agree both.1 both.2, step]
      cases scanned : scan .lax s b with
      | none => rfl
      | some next => exact ih (agree_of_control agree both.1 both.2 scanned)
    · rename_i visible
      rw [run_cons, step, step, scan_of_visible agree visible, scan_of_visible agree visible]
      cases scanned : s.step (char b) with
      | none => rfl
      | some next => exact ih (agree.step scanned)

theorem decode_escapeControls (text : List UInt8) :
    decode .strict (escapeControls {} text) = decode .lax text := by
  have start : Agree {} ScanState.beginValue := .outside trivial
  rw [decode, decode, run_escapeControls (s := {}) start]

/-- The lenient grammar is the lax one without control bytes after backslashes. -/
theorem run_lenient (agree : Agree f s.state) (text : List UInt8) :
    run .lenient (s, r) text = if escapedControl f text then none else run .lax (s, r) text := by
  induction text generalizing f s r with
  | nil => rfl
  | cons b rest ih =>
    rw [escapedControl, run_cons, run_cons]
    split
    · rename_i both
      cases escaped : f.escaped with
      | true =>
        obtain ⟨state, parse⟩ := s
        cases agree with
        | escape =>
          have refused : scan .lenient ⟨.inStringEsc, parse⟩ b = none :=
            escape_refuses both.2
          rw [Bool.true_or, if_pos rfl, step, refused]
          rfl
        | _ => cases escaped
      | false =>
        have same : scan .lenient s b = scan .lax s b := by
          obtain ⟨state, parse⟩ := s
          cases agree with
          | escape => cases escaped
          | outside _ => cases both.1
          | string => simp [scan, both.2]
          | digits _ => rfl
        rw [Bool.false_or, step, same, step]
        cases scanned : scan .lax s b with
        | none => exact (ite_self _).symm
        | some next => exact ih (agree_of_control agree both.1 both.2 scanned)
    · rename_i visible
      rw [step, step, scan_of_visible agree visible, scan_of_visible agree visible]
      cases scanned : s.step (char b) with
      | none => exact (ite_self _).symm
      | some next => exact ih (agree.step scanned)

theorem decode_lenient (text : List UInt8) : decode .lenient text =
    if escapedControl {} text then none else decode .lax text := by
  have start : Agree {} ScanState.beginValue := .outside trivial
  rw [decode, decode, run_lenient (s := {}) start]
  split
  · rfl
  · rfl

theorem scan_lenient_of_strict (strict : scan .strict s b = some (op, s')) :
    scan .lenient s b = some (op, s') := by
  unfold scan at strict ⊢
  cases state : s.state with
  | inString =>
    rw [state] at strict
    dsimp only at strict ⊢
    rw [if_neg fun both => both.1 rfl] at strict
    split
    · rename_i both
      obtain ⟨quote, backslash, -⟩ := isControl_cases both.2
      simp only [Scanner.step, state, char_eq_quote, quote, char_eq_backslash, backslash,
        if_false] at strict
      split at strict
      · cases strict
      · exact strict
    · exact strict
  | inStringEsc =>
    rw [state] at strict
    exact strict
  | _ =>
    rw [state] at strict
    exact strict

/-- What is JSON is so in the lenient grammar, with the same value. -/
theorem run_lenient_of_strict {m m' : Machine} {text : List UInt8}
    (strict : run .strict m text = some m') : run .lenient m text = some m' := by
  induction text generalizing m with
  | nil => exact strict
  | cons b rest ih =>
    rw [run_cons, Option.bind_eq_some_iff] at strict
    obtain ⟨next, stepped, later⟩ := strict
    have same : step .lenient m b = some next := by
      obtain ⟨⟨op, s'⟩, scanned, rfl⟩ := Option.map_eq_some_iff.mp stepped
      rw [step, scan_lenient_of_strict scanned]
      rfl
    rw [run_cons, same]
    exact ih later

theorem decode_lenient_of_strict {text : List UInt8} {v : Value}
    (strict : decode .strict text = some v) : decode .lenient text = some v := by
  obtain ⟨m, ran, ended⟩ := Option.bind_eq_some_iff.mp strict
  rw [decode, run_lenient_of_strict ran]
  exact ended

theorem Flags.next_ordinary (quote : b ≠ 0x22) (backslash : b ≠ 0x5c) (past : f.escaped = false) :
    f.next b = f := by
  simp [Flags.next, quote, backslash, past]

theorem escapeControls_cons (visible : isControl b = false) (later : List UInt8) :
    escapeControls f (b :: later) = b :: escapeControls (f.next b) later := by
  rw [escapeControls, if_neg fun both => by rw [visible] at both; cases both.2]

/-- The flags within a string after an escape. -/
theorem escapeControls_unicodeEscape (inString : f.inString = true) (later : List UInt8) :
    escapeControls f (unicodeEscape b ++ later) =
      unicodeEscape b ++ escapeControls { f with escaped := false } later := by
  obtain ⟨-, -, zero, zero', zero''⟩ := hexByte_facts 0 (by omega)
  obtain ⟨-, -, high, high', high''⟩ := hexByte_facts (b.toNat / 16)
    (by have := b.toNat_lt; omega)
  obtain ⟨-, -, low, low', low''⟩ := hexByte_facts (b.toNat % 16) (Nat.mod_lt _ (by omega))
  have begun : (f.next 0x5c).next 0x75 = { f with escaped := false } := by
    obtain ⟨_, escaped⟩ := f
    cases inString
    cases escaped <;> rfl
  rw [unicodeEscape_eq]
  simp only [List.cons_append, List.nil_append]
  rw [escapeControls_cons (by decide), escapeControls_cons (by decide), begun,
    escapeControls_cons zero, Flags.next_ordinary zero' zero'' rfl, escapeControls_cons zero,
    Flags.next_ordinary zero' zero'' rfl, escapeControls_cons high,
    Flags.next_ordinary high' high'' rfl, escapeControls_cons low,
    Flags.next_ordinary low' low'' rfl]

/-- Escaping leaves no control byte to escape. -/
theorem escapeControls_idem (f : Flags) (text : List UInt8) :
    escapeControls f (escapeControls f text) = escapeControls f text := by
  induction text generalizing f with
  | nil => rfl
  | cons b rest ih =>
    rw [escapeControls]
    split
    · rename_i both
      rw [escapeControls_unicodeEscape both.1, ih]
    · rename_i visible
      rw [escapeControls, if_neg visible, ih]

end Sub2api.Go.JsonBytes
