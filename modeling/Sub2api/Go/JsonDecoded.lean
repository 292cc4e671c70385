import Sub2api.Go.JsonRoundTrip

/-!
# What a text is read as

A value that was read nests no deeper than the scanner goes, its numbers are numbers and its maps
are in the order of their keys, so that it can be written and read again.
-/

namespace Sub2api.Go.Json

variable {v : JsonValue}

theorem Fits.mono {depth depth' : ℕ} (fits : Fits depth v) (le : depth ≤ depth') :
    Fits depth' v := by
  induction fits generalizing depth' with
  | null depth => exact Fits.null _
  | bool depth b => exact Fits.bool _ b
  | number depth isNumber => exact Fits.number _ isNumber
  | string depth text => exact Fits.string _ text
  | @array depth items each ih =>
    obtain ⟨deeper, rfl⟩ : ∃ deeper, depth' = deeper + 1 := ⟨depth' - 1, by omega⟩
    exact Fits.array fun item mem => ih item mem (by omega)
  | @object depth members ordered each ih =>
    obtain ⟨deeper, rfl⟩ : ∃ deeper, depth' = deeper + 1 := ⟨depth' - 1, by omega⟩
    exact Fits.object ordered fun member mem => ih member mem (by omega)

/-! ### Maps in the order of their keys -/

variable {m : JsonMap}

theorem mem_put {key : String} {member : String × JsonValue} (mem : member ∈ m.put key v) :
    member = (key, v) ∨ member ∈ m := by
  induction m with
  | nil => exact Or.inl (List.mem_singleton.mp mem)
  | cons first rest ih =>
    obtain ⟨name, old⟩ := first
    rw [JsonMap.put] at mem
    split at mem
    · exact List.mem_cons.mp mem
    · split at mem
      · rcases List.mem_cons.mp mem with new | later
        · exact Or.inl new
        · exact Or.inr (List.mem_cons_of_mem _ later)
      · rcases List.mem_cons.mp mem with here | later
        · exact Or.inr (here ▸ List.mem_cons_self ..)
        · rcases ih later with new | old_
          · exact Or.inl new
          · exact Or.inr (List.mem_cons_of_mem _ old_)

theorem ordered_put (ordered : m.Pairwise fun a b => a.1 < b.1) (key : String) (v : JsonValue) :
    (m.put key v).Pairwise fun a b => a.1 < b.1 := by
  induction m with
  | nil => exact List.pairwise_singleton _ _
  | cons first rest ih =>
    obtain ⟨name, old⟩ := first
    obtain ⟨above, later⟩ := List.pairwise_cons.mp ordered
    rw [JsonMap.put]
    split
    · rename_i less
      apply List.pairwise_cons.mpr
      refine ⟨?_, ordered⟩
      intro member mem
      rcases List.mem_cons.mp mem with rfl | after
      · exact less
      · exact lt_trans less (above member after)
    · split
      · rename_i same
        subst same
        exact List.pairwise_cons.mpr ⟨above, later⟩
      · rename_i notLess different
        apply List.pairwise_cons.mpr
        refine ⟨?_, ih later⟩
        intro member mem
        rcases mem_put mem with rfl | after
        · exact lt_of_le_of_ne (not_lt.mp notLess) (Ne.symm different)
        · exact above member after

theorem get_put (m : JsonMap) (key other : String) (v : JsonValue) :
    (m.put key v).get other = if other = key then some v else m.get other := by
  induction m with
  | nil =>
    change List.lookup other [(key, v)] = _
    rw [List.lookup_cons]
    by_cases same : other = key
    · simp [same]
    · have different : (other == key) = false := by simpa using same
      rw [different, if_neg same]
      rfl
  | cons first rest ih =>
    obtain ⟨name, old⟩ := first
    rw [JsonMap.put]
    split
    · change List.lookup other ((key, v) :: (name, old) :: rest) = _
      rw [List.lookup_cons]
      by_cases same : other = key
      · simp [same]
      · have different : (other == key) = false := by simpa using same
        rw [different, if_neg same]
        rfl
    · split
      · rename_i same
        subst same
        change List.lookup other ((key, v) :: rest) = if other = key then some v else
          List.lookup other ((key, old) :: rest)
        rw [List.lookup_cons, List.lookup_cons]
        by_cases here : other = key
        · simp [here]
        · have different : (other == key) = false := by simpa using here
          rw [different, if_neg here]
      · rename_i notLess different
        change List.lookup other ((name, old) :: JsonMap.put key v rest) = if other = key then some v else
          List.lookup other ((name, old) :: rest)
        rw [List.lookup_cons, List.lookup_cons]
        by_cases here : other = name
        · have same : (other == name) = true := by simpa using here
          rw [same, here, if_neg (Ne.symm different)]
        · have differs : (other == name) = false := by simpa using here
          rw [differs]
          exact ih

variable {depth : ℕ}

theorem Fits.put {key : String} (fits : ∀ member ∈ m, Fits depth member.2) (value : Fits depth v) :
    ∀ member ∈ m.put key v, Fits depth member.2 := by
  intro member mem
  rcases mem_put mem with rfl | old
  · exact value
  · exact fits member old

/-! ### Frames -/

/-- What a frame holds nests no deeper than this. -/
def Frame.Holds (depth : ℕ) : Frame → Prop
  | .array items => ∀ item ∈ items, Fits depth item
  | .object members _ => (members.Pairwise fun a b => a.1 < b.1) ∧
      ∀ member ∈ members, Fits depth member.2

theorem Frame.Holds.add {frame : Frame} (holds : frame.Holds depth) (value : Fits depth v) :
    (frame.add v).Holds depth := by
  cases frame with
  | array items =>
    intro item mem
    rcases List.mem_append.mp mem with old | new
    · exact holds item old
    · exact List.mem_singleton.mp new ▸ value
  | object members key => exact ⟨ordered_put holds.1 key v, Fits.put holds.2 value⟩

theorem Frame.Holds.rekey {frame : Frame} (holds : frame.Holds depth) (v : JsonValue) :
    (frame.rekey v).Holds depth := by
  unfold Frame.rekey
  split
  · exact holds
  · exact holds

theorem Frame.Holds.close {frame : Frame} (holds : frame.Holds depth) :
    Fits (depth + 1) frame.close := by
  cases frame with
  | array items => exact Fits.array holds
  | object members key => exact Fits.object holds.1 holds.2

/-- Each frame leaves one level less to what is in it. -/
def FramesHold : ℕ → List Frame → Prop
  | _, [] => True
  | depth, frame :: outer => frame.Holds depth ∧ FramesHold (depth + 1) outer

/-- No literal is being read. -/
def ScanState.Idle : ScanState → Bool
  | .beginValue | .beginValueOrEmpty | .beginString | .beginStringOrEmpty => true
  | .endValue | .endTop => true
  | _ => false

/-- The literal that is being read, in the scanner's state: no number, or the number so far. -/
def LiteralIn (state : ScanState) : List Char → Prop
  | [] => state.Idle = true
  | c :: rest => c ∈ ['"', 't', 'f', 'n'] ∨ (c :: rest).foldlM numberStep .beginValue = some state ∨
      ((state = .endValue ∨ state = .endTop) ∧ IsNumber (c :: rest))

/-- The reader beside the scanner. -/
structure Beside (s : Scanner) (r : Reader) : Prop where
  inside : r.frames.length = s.parseState.length
  bounded : s.parseState.length ≤ 10000
  frames : FramesHold (10000 - s.parseState.length) r.frames
  value : ∀ v, r.value = some v → Fits (10000 - s.parseState.length) v
  literal : LiteralIn s.state r.literal
  opened : s.state = .beginStringOrEmpty → s.parseState ≠ []

/-! ### What a step of the scanner does -/

def ScanState.CanEnd (state : ScanState) : Prop :=
  state ≠ .neg ∧ state ≠ .dot ∧ state ≠ .exponent ∧ state ≠ .exponentSign

/-- The states within a number. -/
def numberStates : List ScanState :=
  [.neg, .int, .zero, .dot, .fraction, .exponent, .exponentSign, .exponentDigits]

theorem numberStep_mem {state state' : ScanState} {c : Char}
    (next : numberStep state c = some state') : state' ∈ numberStates := by
  have listed : state' = .neg ∨ state' = .int ∨ state' = .zero ∨ state' = .dot ∨
      state' = .fraction ∨ state' = .exponent ∨ state' = .exponentSign ∨
      state' = .exponentDigits := by
    cases state
    all_goals simp only [numberStep] at next
    all_goals grind
  rcases listed with rfl | rfl | rfl | rfl | rfl | rfl | rfl | rfl
  all_goals decide

/-- The words of JSON after their first letters. -/
def words : List (List Char) := [['r', 'u', 'e'], ['a', 'l', 's', 'e'], ['u', 'l', 'l']]

/-- A step by what it does to the nesting and to the literal. -/
inductive Stepped (s : Scanner) (c : Char) : Opcode → Scanner → Prop
  | opens {op : Opcode} {s' : Scanner} (kind : op = .beginObject ∨ op = .beginArray)
      (deeper : s'.parseState.length = s.parseState.length + 1)
      (bounded : s'.parseState.length ≤ 10000) (idle : s'.state.Idle = true) : Stepped s c op s'
  | closes {op : Opcode} {s' : Scanner} (kind : op = .endObject ∨ op = .endArray)
      (ends : s.state.CanEnd) (higher : s'.parseState.length + 1 = s.parseState.length)
      (idle : s'.state.Idle = true) (past : s'.state ≠ .beginStringOrEmpty) : Stepped s c op s'
  | separates {op : Opcode} {s' : Scanner}
      (kind : op = .objectKey ∨ op = .objectValue ∨ op = .arrayValue) (ends : s.state.CanEnd)
      (level : s'.parseState.length = s.parseState.length) (idle : s'.state.Idle = true)
      (past : s'.state ≠ .beginStringOrEmpty) : Stepped s c op s'
  | begins {s' : Scanner} (level : s'.parseState.length = s.parseState.length)
      (first : c ∈ ['"', 't', 'f', 'n'] ∨ numberStep .beginValue c = some s'.state)
      (past : s'.state ≠ .beginStringOrEmpty)
      (word : ∀ rest, s'.state = .word rest → rest ∈ words) : Stepped s c .beginLiteral s'
  | continues {s' : Scanner} (level : s'.parseState.length = s.parseState.length)
      (busy : s.state.Idle = false)
      (within : numberStep s.state c = some s'.state ∨
        s.state ∉ numberStates ∧ s.state ≠ .endValue ∧ s.state ≠ .endTop)
      (past : s'.state ≠ .beginStringOrEmpty)
      (word : ∀ rest, s'.state = .word rest → ∃ next, s.state = .word (next :: rest)) :
      Stepped s c .continue s'
  | skips {op : Opcode} {s' : Scanner} (kind : op = .skipSpace ∨ op = .end)
      (level : s'.parseState.length = s.parseState.length)
      (state : s'.state = s.state ∧ s.state.CanEnd ∨
        s.state.CanEnd ∧ (s'.state = .endValue ∨ s'.state = .endTop)) : Stepped s c op s'

variable {s s' : Scanner} {c : Char} {op : Opcode}

theorem stepped_pop {kind : ParseState} {outer : List ParseState}
    (inside : s.parseState = kind :: outer) (closing : op = .endObject ∨ op = .endArray)
    (ends : s.state.CanEnd) {t : Scanner} (same : t.parseState.length = s.parseState.length)
    {op' : Opcode} (stepped : t.pop op = some (op', s')) : Stepped s c op' s' := by
  have level : t.parseState.tail.length + 1 = s.parseState.length := by
    rw [List.length_tail, same, inside, List.length_cons]
    omega
  unfold Scanner.pop at stepped
  split at stepped
  · rename_i empty
    cases stepped
    rw [empty] at level
    exact Stepped.closes closing ends level rfl (by simp)
  · cases stepped
    exact Stepped.closes closing ends level rfl (by simp)

theorem stepped_endTop (ends : s.state.CanEnd) (stepped : s.stateEndTop c = some (op, s')) :
    Stepped s c op s' := by
  unfold Scanner.stateEndTop Scanner.goto at stepped
  split at stepped
  · cases stepped
    exact Stepped.skips (Or.inr rfl) rfl (Or.inr ⟨ends, Or.inr rfl⟩)
  · cases stepped

/-- What comes after a value. -/
theorem stepped_endValue (ends : s.state.CanEnd) (stepped : s.stateEndValue c = some (op, s')) :
    Stepped s c op s' := by
  unfold Scanner.stateEndValue at stepped
  split at stepped
  · exact stepped_endTop ends stepped
  · rename_i parse outer inside
    split at stepped
    · cases stepped
      exact Stepped.skips (Or.inl rfl) rfl (Or.inr ⟨ends, Or.inl rfl⟩)
    · cases parse with
      | objectKey =>
        dsimp only at stepped
        split at stepped
        · cases stepped
          exact Stepped.separates (Or.inl rfl) ends (by simp [inside]) rfl (by simp)
        · cases stepped
      | objectValue =>
        dsimp only at stepped
        split at stepped
        · cases stepped
          exact Stepped.separates (Or.inr (Or.inl rfl)) ends (by simp [inside]) rfl (by simp)
        · split at stepped
          · exact stepped_pop inside (Or.inl rfl) ends rfl stepped
          · cases stepped
      | arrayValue =>
        dsimp only at stepped
        split at stepped
        · cases stepped
          exact Stepped.separates (Or.inr (Or.inr rfl)) ends rfl rfl (by simp)
        · split at stepped
          · exact stepped_pop inside (Or.inr rfl) ends rfl stepped
          · cases stepped

variable {state : ScanState}

theorem stepped_push {parse : ParseState} (idle : state.Idle = true)
    (opening : op = .beginObject ∨ op = .beginArray) {op' : Opcode}
    (stepped : s.push parse state op = some (op', s')) : Stepped s c op' s' := by
  unfold Scanner.push at stepped
  split at stepped
  · cases stepped
    rename_i bounded
    exact Stepped.opens opening rfl bounded idle
  · cases stepped

theorem stepped_begin (past : state ≠ .beginStringOrEmpty)
    (word : ∀ rest, state = .word rest → rest ∈ words)
    (first : c ∈ ['"', 't', 'f', 'n'] ∨ numberStep .beginValue c = some state)
    (stepped : s.goto state .beginLiteral = some (op, s')) : Stepped s c op s' := by
  cases stepped
  exact Stepped.begins rfl first past word

/-- Where a value is expected. -/
theorem stepped_beginValue (ends : s.state.CanEnd)
    (stepped : s.stateBeginValue c = some (op, s')) : Stepped s c op s' := by
  unfold Scanner.stateBeginValue at stepped
  by_cases blank : isSpace c = true
  · rw [if_pos blank] at stepped
    cases stepped
    exact Stepped.skips (Or.inl rfl) rfl (Or.inl ⟨rfl, ends⟩)
  rw [if_neg blank] at stepped
  by_cases object : c = '{'
  · rw [if_pos object] at stepped
    exact stepped_push rfl (Or.inl rfl) stepped
  rw [if_neg object] at stepped
  by_cases array : c = '['
  · rw [if_pos array] at stepped
    exact stepped_push rfl (Or.inr rfl) stepped
  rw [if_neg array] at stepped
  by_cases quote : c = '"'
  · rw [if_pos quote] at stepped
    exact stepped_begin (by simp) (by simp [words]) (Or.inl (by simp [quote])) stepped
  rw [if_neg quote] at stepped
  by_cases minus : c = '-'
  · rw [if_pos minus] at stepped
    exact stepped_begin (by simp) (by simp [words]) (Or.inr (by simp [numberStep, minus])) stepped
  rw [if_neg minus] at stepped
  by_cases zero : c = '0'
  · rw [if_pos zero] at stepped
    exact stepped_begin (by simp) (by simp [words]) (Or.inr (by simp [numberStep, zero])) stepped
  rw [if_neg zero] at stepped
  by_cases t : c = 't'
  · rw [if_pos t] at stepped
    exact stepped_begin (by simp) (by simp [words]) (Or.inl (by simp [t])) stepped
  rw [if_neg t] at stepped
  by_cases f : c = 'f'
  · rw [if_pos f] at stepped
    exact stepped_begin (by simp) (by simp [words]) (Or.inl (by simp [f])) stepped
  rw [if_neg f] at stepped
  by_cases n : c = 'n'
  · rw [if_pos n] at stepped
    exact stepped_begin (by simp) (by simp [words]) (Or.inl (by simp [n])) stepped
  rw [if_neg n] at stepped
  split at stepped
  · rename_i digit
    exact stepped_begin (by simp) (by simp [words])
      (Or.inr (by simp [numberStep, minus, zero, digit])) stepped
  · cases stepped

theorem stepped_beginString (ends : s.state.CanEnd)
    (stepped : s.stateBeginString c = some (op, s')) : Stepped s c op s' := by
  unfold Scanner.stateBeginString at stepped
  split at stepped
  · cases stepped
    exact Stepped.skips (Or.inl rfl) rfl (Or.inl ⟨rfl, ends⟩)
  split at stepped
  · rename_i quote
    exact stepped_begin (by simp) (by simp [words]) (Or.inl (by simp [quote])) stepped
  · cases stepped


/-- In a literal that is no number. -/
theorem stepped_within (past : state ≠ .beginStringOrEmpty) (busy : s.state.Idle = false)
    (word : ∀ rest, state = .word rest → ∃ next, s.state = .word (next :: rest))
    (elsewhere : s.state ∉ numberStates ∧ s.state ≠ .endValue ∧ s.state ≠ .endTop)
    (stepped : s.goto state .continue = some (op, s')) : Stepped s c op s' := by
  cases stepped
  exact Stepped.continues rfl busy (Or.inr elsewhere) past word

theorem stepped_number (begun : s.state ≠ .beginValue) (next : numberStep s.state c = some state)
    (stepped : s.goto state .continue = some (op, s')) : Stepped s c op s' := by
  have past : state ≠ .beginStringOrEmpty := by
    rintro rfl
    have listed := numberStep_mem next
    revert listed
    decide
  have busy : s.state.Idle = false := by
    cases state_ : s.state
    case beginValue => exact absurd state_ begun
    all_goals
      rw [state_] at next
      first
        | rfl
        | cases next
  cases stepped
  refine Stepped.continues rfl busy (Or.inl next) past ?_
  rintro rest rfl
  have listed := numberStep_mem next
  simp [numberStates] at listed

/-- After the integer part of a number. -/
theorem stepped_state0 (state : s.state = .int ∨ s.state = .zero)
    (stepped : s.state0 c = some (op, s')) : Stepped s c op s' := by
  have ends : s.state.CanEnd := by
    rcases state with int | zero
    · simp [int, ScanState.CanEnd]
    · simp [zero, ScanState.CanEnd]
  have begun : s.state ≠ .beginValue := by
    rcases state with int | zero
    · simp [int]
    · simp [zero]
  unfold Scanner.state0 at stepped
  split at stepped
  · rename_i dot
    refine stepped_number begun ?_ stepped
    rcases state with int | zero
    · simp [int, numberStep, dot, isDigit]
    · simp [zero, numberStep, dot]
  split at stepped
  · rename_i dot exponent
    refine stepped_number begun ?_ stepped
    rcases state with int | zero
    · rcases exponent with rfl | rfl
      · simp [int, numberStep, isDigit]
      · simp [int, numberStep, isDigit]
    · simp [zero, numberStep, dot, exponent]
  · exact stepped_endValue ends stepped

theorem step_stepped (opened : s.state = .beginStringOrEmpty → s.parseState ≠ [])
    (stepped : s.step c = some (op, s')) : Stepped s c op s' := by
  obtain ⟨state, parse⟩ := s
  cases state with
  | beginValue => exact stepped_beginValue (by simp [ScanState.CanEnd]) stepped
  | beginValueOrEmpty =>
    simp only [Scanner.step] at stepped
    split at stepped
    · cases stepped
      exact Stepped.skips (Or.inl rfl) rfl (Or.inl ⟨rfl, by simp [ScanState.CanEnd]⟩)
    split at stepped
    · exact stepped_endValue (by simp [ScanState.CanEnd]) stepped
    · exact stepped_beginValue (by simp [ScanState.CanEnd]) stepped
  | beginString => exact stepped_beginString (by simp [ScanState.CanEnd]) stepped
  | beginStringOrEmpty =>
    simp only [Scanner.step] at stepped
    split at stepped
    · cases stepped
      exact Stepped.skips (Or.inl rfl) rfl (Or.inl ⟨rfl, by simp [ScanState.CanEnd]⟩)
    split at stepped
    · have inside : parse.tail.length + 1 = parse.length := by
        cases parse with
        | nil => exact absurd rfl (opened rfl)
        | cons kind outer => rfl
      have moved := stepped_endValue (s := ⟨.beginStringOrEmpty, .objectValue :: parse.tail⟩)
        (by simp [ScanState.CanEnd]) stepped
      cases moved with
      | opens kind deeper bounded idle =>
        exact Stepped.opens kind (by simp_all) bounded idle
      | closes kind ends higher idle past =>
        exact Stepped.closes kind ends (by simp_all) idle past
      | separates kind ends level idle past =>
        exact Stepped.separates kind ends (by simp_all) idle past
      | begins level first past word => exact Stepped.begins (by simp_all) first past word
      | continues level busy within past word => cases busy
      | skips kind level state => exact Stepped.skips kind (by simp_all) state
    · exact stepped_beginString (by simp [ScanState.CanEnd]) stepped
  | endValue => exact stepped_endValue (by simp [ScanState.CanEnd]) stepped
  | endTop => exact stepped_endTop (by simp [ScanState.CanEnd]) stepped
  | inString =>
    simp only [Scanner.step] at stepped
    split at stepped
    · exact stepped_within (by simp) rfl (by simp) (by simp [numberStates]) stepped
    split at stepped
    · exact stepped_within (by simp) rfl (by simp) (by simp [numberStates]) stepped
    split at stepped
    · cases stepped
    · cases stepped
      exact stepped_within (s := ⟨.inString, parse⟩) (by simp) rfl (by simp) (by simp [numberStates]) rfl
  | inStringEsc =>
    simp only [Scanner.step] at stepped
    split at stepped
    · exact stepped_within (by simp) rfl (by simp) (by simp [numberStates]) stepped
    split at stepped
    · exact stepped_within (by simp) rfl (by simp) (by simp [numberStates]) stepped
    · cases stepped
  | inStringEscU left =>
    simp only [Scanner.step] at stepped
    split at stepped
    · cases left with
      | zero => exact stepped_within (by simp) rfl (by simp) (by simp [numberStates]) stepped
      | succ more => exact stepped_within (by simp) rfl (by simp) (by simp [numberStates]) stepped
    · cases stepped
  | neg =>
    simp only [Scanner.step] at stepped
    split at stepped
    · rename_i zero
      exact stepped_number (by simp) (by simp [numberStep, zero]) stepped
    split at stepped
    · rename_i zero digit
      exact stepped_number (by simp) (by simp [numberStep, zero, digit]) stepped
    · cases stepped
  | int =>
    simp only [Scanner.step] at stepped
    split at stepped
    · rename_i digit
      exact stepped_number (s := ⟨.int, parse⟩) (by simp) (by simp [numberStep, digit]) stepped
    · exact stepped_state0 (Or.inl rfl) stepped
  | zero => exact stepped_state0 (Or.inr rfl) stepped
  | dot =>
    simp only [Scanner.step] at stepped
    split at stepped
    · rename_i digit
      exact stepped_number (by simp) (by simp [numberStep, digit]) stepped
    · cases stepped
  | fraction =>
    simp only [Scanner.step] at stepped
    split at stepped
    · rename_i digit
      exact stepped_number (s := ⟨.fraction, parse⟩) (by simp) (by simp [numberStep, digit]) stepped
    split at stepped
    · rename_i digit exponent
      exact stepped_number (by simp) (by simp [numberStep, digit, exponent]) stepped
    · exact stepped_endValue (by simp [ScanState.CanEnd]) stepped
  | exponent =>
    simp only [Scanner.step] at stepped
    split at stepped
    · rename_i sign
      exact stepped_number (by simp) (by simp [numberStep, sign]) stepped
    split at stepped
    · rename_i sign digit
      exact stepped_number (by simp) (by simp [numberStep, sign, digit]) stepped
    · cases stepped
  | exponentSign =>
    simp only [Scanner.step] at stepped
    split at stepped
    · rename_i digit
      exact stepped_number (by simp) (by simp [numberStep, digit]) stepped
    · cases stepped
  | exponentDigits =>
    simp only [Scanner.step] at stepped
    split at stepped
    · rename_i digit
      exact stepped_number (s := ⟨.exponentDigits, parse⟩) (by simp) (by simp [numberStep, digit]) stepped
    · exact stepped_endValue (by simp [ScanState.CanEnd]) stepped
  | word rest =>
    cases rest with
    | nil => exact stepped_endValue (by simp [ScanState.CanEnd]) stepped
    | cons next rest =>
      cases rest with
      | nil =>
        simp only [Scanner.step] at stepped
        split at stepped
        · exact stepped_within (by simp) rfl (by simp) (by simp [numberStates]) stepped
        · cases stepped
      | cons after rest =>
        simp only [Scanner.step] at stepped
        split at stepped
        · exact stepped_within (by simp) rfl (by simp) (by simp [numberStates]) stepped
        · cases stepped

/-! ### The reader beside the scanner -/

theorem foldlM_mem {literal : List Char} {first last : ScanState}
    (number : literal.foldlM numberStep first = some last) (some_ : literal ≠ []) :
    last ∈ numberStates := by
  induction literal generalizing first with
  | nil => exact absurd rfl some_
  | cons c rest ih =>
    rw [List.foldlM_cons] at number
    cases next : numberStep first c with
    | none =>
      rw [next] at number
      cases number
    | some middle =>
      rw [next] at number
      cases rest with
      | nil =>
        cases number
        exact numberStep_mem next
      | cons d rest => exact ih number (by simp)

/-- A number that can end is one. -/
theorem isNumber_of_canEnd {literal : List Char} (some_ : literal ≠ [])
    (number : literal.foldlM numberStep .beginValue = some state) (ends : state.CanEnd) :
    IsNumber literal := by
  refine ⟨state, ?_, number⟩
  have listed := foldlM_mem number some_
  obtain ⟨neg, dot, exponent, sign⟩ := ends
  simp only [numberStates, List.mem_cons, List.not_mem_nil, or_false] at listed ⊢
  tauto

theorem literalValue_fits (depth : ℕ) {c : Char} {rest : List Char}
    (whole : c ∈ ['"', 't', 'f', 'n'] ∨ IsNumber (c :: rest)) :
    Fits depth (literalValue (c :: rest)) := by
  unfold literalValue
  split
  · exact Fits.string _ _
  · exact Fits.bool _ _
  · exact Fits.bool _ _
  · exact Fits.null _
  · rename_i string true_ false_ null_
    apply Fits.number
    rw [String.toList_ofList]
    rcases whole with listed | isNumber
    · simp only [List.mem_cons, List.not_mem_nil, or_false] at listed
      rcases listed with rfl | rfl | rfl | rfl
      · exact absurd rfl string
      · exact absurd rfl true_
      · exact absurd rfl false_
      · exact absurd rfl null_
    · exact isNumber

variable {r : Reader}

theorem Beside.current (beside : Beside s r) (ends : s.state.CanEnd) (value : r.current = some v) :
    Fits (10000 - s.parseState.length) v := by
  have literal := beside.literal
  unfold Reader.current at value
  split at value
  · exact beside.value v value
  · rename_i chars some_
    cases chars_ : r.literal with
    | nil => exact absurd chars_ some_
    | cons c rest =>
      rw [chars_] at value literal
      cases value
      apply literalValue_fits
      rcases literal with listed | number | ⟨-, isNumber⟩
      · exact Or.inl listed
      · exact Or.inr (isNumber_of_canEnd (by simp) number ends)
      · exact Or.inr isNumber

theorem Beside.taken (beside : Beside s r) (ends : s.state.CanEnd) :
    FramesHold (10000 - s.parseState.length) r.taken ∧ r.taken.length = s.parseState.length := by
  have frames := beside.frames
  have inside := beside.inside
  unfold Reader.taken intoInnermost
  split
  · rename_i v frame outer value frames_
    rw [frames_] at frames inside
    exact ⟨⟨frames.1.add (beside.current ends value), frames.2⟩, inside⟩
  · exact ⟨frames, inside⟩

theorem Beside.keyed (beside : Beside s r) :
    FramesHold (10000 - s.parseState.length) r.keyed ∧ r.keyed.length = s.parseState.length := by
  have frames := beside.frames
  have inside := beside.inside
  unfold Reader.keyed intoInnermost
  split
  · rename_i v frame outer value frames_
    rw [frames_] at frames inside
    exact ⟨⟨frames.1.rekey v, frames.2⟩, inside⟩
  · exact ⟨frames, inside⟩

/-- A reader that has only frames. -/
theorem beside_frames {frames : List Frame} (inside : frames.length = s.parseState.length)
    (bounded : s.parseState.length ≤ 10000)
    (hold : FramesHold (10000 - s.parseState.length) frames) (idle : s.state.Idle = true)
    (past : s.state = .beginStringOrEmpty → s.parseState ≠ []) :
    Beside s { frames := frames } where
  inside := inside
  bounded := bounded
  frames := hold
  value v present := by cases present
  literal := idle
  opened := past

theorem LiteralIn.extend {state state' : ScanState} {literal : List Char}
    (literal_ : LiteralIn state literal) (busy : state.Idle = false)
    (within : numberStep state c = some state' ∨
      state ∉ numberStates ∧ state ≠ .endValue ∧ state ≠ .endTop) :
    LiteralIn state' (literal ++ [c]) := by
  cases literal with
  | nil =>
    rw [literal_] at busy
    cases busy
  | cons first rest =>
    rcases literal_ with listed | number | ⟨over_, -⟩
    · exact Or.inl listed
    · rcases within with next | ⟨outside, -⟩
      · right
        left
        have whole : ((first :: rest) ++ [c]).foldlM numberStep .beginValue =
            ((first :: rest).foldlM numberStep .beginValue >>= fun s => [c].foldlM numberStep s) :=
          List.foldlM_append
        change ((first :: rest) ++ [c]).foldlM numberStep .beginValue = some state'
        rw [whole, number]
        change ([c].foldlM numberStep state) = some state'
        rw [List.foldlM_cons, next]
        rfl
      · exact absurd (foldlM_mem number (by simp)) outside
    · rcases within with next | ⟨-, notValue, notTop⟩
      · rcases over_ with rfl | rfl
        · cases next
        · cases next
      · rcases over_ with rfl | rfl
        · exact absurd rfl notValue
        · exact absurd rfl notTop

theorem LiteralIn.skip {state state' : ScanState} {literal : List Char}
    (literal_ : LiteralIn state literal)
    (kept : state' = state ∧ state.CanEnd ∨
      state.CanEnd ∧ (state' = .endValue ∨ state' = .endTop)) : LiteralIn state' literal := by
  cases literal with
  | nil =>
    rcases kept with ⟨rfl, -⟩ | ⟨-, rfl | rfl⟩
    · exact literal_
    · rfl
    · rfl
  | cons first rest =>
    rcases kept with ⟨rfl, -⟩ | ⟨ends, after⟩
    · exact literal_
    · rcases literal_ with listed | number | ⟨-, isNumber⟩
      · exact Or.inl listed
      · exact Or.inr (Or.inr ⟨after, isNumber_of_canEnd (by simp) number ends⟩)
      · exact Or.inr (Or.inr ⟨after, isNumber⟩)

theorem Beside.step (beside : Beside s r) (stepped : s.step c = some (op, s')) :
    Beside s' (r.next (op, c)) := by
  have bounded := beside.bounded
  cases step_stepped beside.opened stepped with
  | opens kind deeper bounded' idle =>
    have past : s'.state = .beginStringOrEmpty → s'.parseState ≠ [] := by
      intro _ empty
      rw [empty] at deeper
      cases deeper
    have outer : FramesHold (10000 - s'.parseState.length + 1) r.frames := by
      have level : 10000 - s'.parseState.length + 1 = 10000 - s.parseState.length := by omega
      rw [level]
      exact beside.frames
    have inside : ∀ frame : Frame, (frame :: r.frames).length = s'.parseState.length := by
      intro frame
      rw [List.length_cons, beside.inside, deeper]
    rcases kind with rfl | rfl
    · apply beside_frames (inside _) bounded' _ idle past
      exact ⟨⟨List.Pairwise.nil, fun _ mem => absurd mem List.not_mem_nil⟩, outer⟩
    · apply beside_frames (inside _) bounded' _ idle past
      exact ⟨fun _ mem => absurd mem List.not_mem_nil, outer⟩
  | closes kind ends higher idle past =>
    obtain ⟨hold, inside⟩ := beside.taken ends
    have next : ∃ frame outer, r.taken = frame :: outer ∧
        r.next (op, c) = { value := some frame.close, frames := outer } := by
      cases taken : r.taken with
      | nil =>
        rw [taken] at inside
        rw [← inside] at higher
        cases higher
      | cons frame outer =>
        refine ⟨frame, outer, rfl, ?_⟩
        rcases kind with rfl | rfl
        · simp only [Reader.next, taken]
        · simp only [Reader.next, taken]
    obtain ⟨frame, outer, taken, next⟩ := next
    have level : 10000 - s.parseState.length + 1 = 10000 - s'.parseState.length := by omega
    rw [taken] at hold inside
    rw [next]
    exact {
      inside := by
        rw [List.length_cons] at inside
        change outer.length = _
        omega
      bounded := by omega
      frames := level ▸ hold.2
      value := by
        intro v value
        cases value
        exact level ▸ hold.1.close
      literal := idle
      opened := fun state => absurd state past }
  | separates kind ends level idle past =>
    have bounded' : s'.parseState.length ≤ 10000 := by omega
    have past' : s'.state = .beginStringOrEmpty → s'.parseState ≠ [] := fun h => absurd h past
    obtain ⟨hold, inside⟩ := beside.taken ends
    obtain ⟨hold', inside'⟩ := beside.keyed
    rw [← level] at hold hold' inside inside'
    rcases kind with rfl | rfl | rfl
    · exact beside_frames inside' bounded' hold' idle past'
    · exact beside_frames inside bounded' hold idle past'
    · exact beside_frames inside bounded' hold idle past'
  | begins level first past word =>
    exact {
      inside := beside.inside.trans level.symm
      bounded := by omega
      frames := by
        rw [level]
        exact beside.frames
      value := fun v value => by cases value
      literal := by
        rcases first with listed | number
        · exact Or.inl listed
        · right
          left
          rw [List.foldlM_cons, number]
          rfl
      opened := fun state => absurd state past }
  | continues level busy within past word =>
    exact {
      inside := beside.inside.trans level.symm
      bounded := by omega
      frames := by
        rw [level]
        exact beside.frames
      value := by
        rw [level]
        exact beside.value
      literal := beside.literal.extend busy within
      opened := fun state => absurd state past }
  | skips kind level kept =>
    have next : r.next (op, c) = r := by
      rcases kind with rfl | rfl
      · rfl
      · rfl
    rw [next]
    exact {
      inside := beside.inside.trans level.symm
      bounded := by omega
      frames := by
        rw [level]
        exact beside.frames
      value := by
        rw [level]
        exact beside.value
      literal := beside.literal.skip kept
      opened := by
        intro state empty
        rcases kept with ⟨same, -⟩ | ⟨-, value | top⟩
        · apply beside.opened (same.symm.trans state)
          rw [empty] at level
          exact List.length_eq_zero_iff.mp level.symm
        · rw [value] at state
          cases state
        · rw [top] at state
          cases state }

theorem Beside.scan {text : List Char} {scanned : List (Opcode × Char)} (beside : Beside s r)
    (scan : s.scan text = some (scanned, s')) : Beside s' (scanned.foldl Reader.next r) := by
  induction text generalizing s r scanned with
  | nil =>
    cases scan
    exact beside
  | cons c rest ih =>
    rw [Scanner.scan] at scan
    cases stepped : s.step c with
    | none =>
      rw [stepped] at scan
      cases scan
    | some next =>
      obtain ⟨op, s₁⟩ := next
      cases later : s₁.scan rest with
      | none =>
        simp [stepped, later] at scan
      | some more =>
        obtain ⟨more, s₂⟩ := more
        simp only [stepped, later, Option.bind_eq_bind, Option.bind_some, Option.pure_def,
          Option.some.injEq, Prod.mk.injEq] at scan
        obtain ⟨rfl, rfl⟩ := scan
        have run : Beside s₂ (more.foldl Reader.next (r.next (op, c))) :=
          ih (beside.step stepped) later
        exact run

/-- Where a text may end, a number may. -/
theorem canEnd_of_eof (ends : s.eof = true) : s.state.CanEnd := by
  obtain ⟨state, parse⟩ := s
  refine ⟨?_, ?_, ?_, ?_⟩
  all_goals
    rintro rfl
    cases ends

theorem decode_fits {text : String} (decoded : decode text = some v) :
    Fits 10000 v := by
  unfold decode tokens at decoded
  cases scan : ({} : Scanner).scan text.toList with
  | none =>
    rw [scan] at decoded
    cases decoded
  | some result =>
    obtain ⟨scanned, s'⟩ := result
    rw [scan] at decoded
    cases ends : s'.eof with
    | false =>
      simp only [ends] at decoded
      cases decoded
    | true =>
      simp only [ends, if_true, Option.map_some, Option.some.injEq] at decoded
      have start : Beside {} {} :=
        beside_frames rfl (by decide) trivial rfl (by intro h; cases h)
      have beside := start.scan scan
      cases value : (scanned.foldl Reader.next {}).current with
      | none =>
        rw [value] at decoded
        rw [← decoded]
        exact Fits.null _
      | some w =>
        rw [value] at decoded
        rw [← decoded]
        exact (beside.current (canEnd_of_eof ends) value).mono (by omega)

/-! ### Maps -/

/-- A map that was read is in the order of its keys and can be written again. -/
theorem decodeObject_fits {text : String} (decoded : decodeObject text = some m) :
    Fits 10000 (.object m) := by
  unfold decodeObject at decoded
  split at decoded
  · rename_i members value
    cases decoded
    exact decode_fits value
  · cases decoded
    exact Fits.object List.Pairwise.nil fun _ mem => absurd mem List.not_mem_nil
  · cases decoded

theorem Fits.get (fits : Fits (depth + 1) (.object m)) {key : String} (present : m.get key = some v)
    : Fits depth v := by
  cases fits with
  | object ordered each => exact each _ (JsonMap.mem_of_get present)

theorem Fits.set (fits : Fits (depth + 1) (.object m)) {key : String} (value : Fits depth v) :
    Fits (depth + 1) (.object (m.put key v)) := by
  cases fits with
  | object ordered each => exact Fits.object (ordered_put ordered key v) (Fits.put each value)

theorem Fits.items {items others : List JsonValue} (fits : Fits depth (.array items))
    (among : ∀ item ∈ others, item ∈ items) :
    Fits depth (.array others) := by
  cases fits with
  | array each => exact Fits.array fun item mem => each item (among item mem)

theorem decodeObject_encodeRaw (fits : Fits 10000 (.object m)) :
    decodeObject (encodeRaw (.object m)) = some m := by
  rw [decodeObject, decode_encodeRaw fits]

theorem decodeObject_encode (fits : Fits 10000 (.object m)) :
    decodeObject (encode (.object m)) = some m := by
  rw [decodeObject, decode_encode fits]

end Sub2api.Go.Json
