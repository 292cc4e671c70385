import Sub2api.Go.Json

/-!
# Prefixes of JSON objects

The text of an object ends with its closing brace: a valid prefix of it is the whole object, and
what follows is white space. So a text that arrives in pieces denotes its object as soon as it is
valid, which is `unmarshalMap_prefix`.
-/

namespace Sub2api.Go.Json

/-- The text is a JSON object. -/
def isObject (text : String) : Bool :=
  match tokens text with
  | none => false
  | some scanned =>
    ((scanned.dropWhile fun token => token.1 = .skipSpace).head?.map Prod.fst) = some .beginObject

/-- The text without insignificant white space, when it is JSON. -/
def canonical (text : String) : String :=
  match tokens text with
  | none => text
  | some scanned =>
    String.ofList ((scanned.filter fun token => token.1 ≠ .skipSpace ∧ token.1 ≠ .end).map Prod.snd)

namespace Scanner

variable {s s' : Scanner} {c : Char} {op op' : Opcode}

theorem scan_append (s : Scanner) (first later : List Char) :
    s.scan (first ++ later) = (do
      let (scanned, s) ← s.scan first
      let (more, s) ← s.scan later
      pure (scanned ++ more, s)) := by
  induction first generalizing s with
  | nil => simp [scan]
  | cons c rest ih =>
    simp only [List.cons_append, scan, ih]
    cases s.step c with
    | none => rfl
    | some out =>
      simp only [Option.bind_eq_bind, Option.bind_some]
      cases out.2.scan rest with
      | none => rfl
      | some scanned =>
        simp only [Option.bind_some, Option.pure_def]
        cases scanned.2.scan later <;> simp

/-- The scanner is inside an object or array, or past the top-level value. -/
def Nested (s : Scanner) : Prop := s.parseState ≠ [] ∨ s.state = .endTop

theorem goto_nested {state : ScanState} (nested : s.parseState ≠ [])
    (stepped : s.goto state op = some (op', s')) : s'.Nested := by
  cases stepped
  exact Or.inl nested

theorem pop_nested (stepped : s.pop op = some (op', s')) : s'.Nested := by
  unfold pop at stepped
  split at stepped
  · cases stepped
    exact Or.inr rfl
  · rename_i outer isCons
    cases stepped
    exact Or.inl (by simpa using isCons)

theorem push_nested {parse : ParseState} {state : ScanState}
    (stepped : s.push parse state op = some (op', s')) : s'.Nested := by
  unfold push at stepped
  split at stepped
  · cases stepped
    exact Or.inl (List.cons_ne_nil _ _)
  · cases stepped

theorem stateEndValue_nested (stepped : s.stateEndValue c = some (op, s')) : s'.Nested := by
  unfold stateEndValue at stepped
  cases parses : s.parseState with
  | nil =>
    simp only [parses, stateEndTop] at stepped
    split at stepped
    · cases stepped
      exact Or.inr rfl
    · cases stepped
  | cons parse outer =>
    have inside : s.parseState ≠ [] := by simp [parses]
    simp only [parses] at stepped
    split at stepped
    · exact goto_nested inside stepped
    · cases parse with
      | objectKey =>
        dsimp only at stepped
        split at stepped
        · cases stepped
          exact Or.inl (List.cons_ne_nil _ _)
        · cases stepped
      | objectValue =>
        dsimp only at stepped
        split at stepped
        · cases stepped
          exact Or.inl (List.cons_ne_nil _ _)
        · split at stepped
          · exact pop_nested stepped
          · cases stepped
      | arrayValue =>
        dsimp only at stepped
        split at stepped
        · exact goto_nested inside stepped
        · split at stepped
          · exact pop_nested stepped
          · cases stepped

/-- Where a value is expected, white space, a bracket or the start of a literal may come. -/
theorem stateBeginValue_cases (stepped : s.stateBeginValue c = some (op, s')) :
    (isSpace c = true ∧ op = .skipSpace ∧ s' = s) ∨
      (isSpace c = false ∧ (op = .beginObject ∨ op = .beginArray) ∧
        ∃ parse state, s.push parse state op = some (op, s')) ∨
      (isSpace c = false ∧ op = .beginLiteral ∧ ∃ state, s' = { s with state := state }) := by
  have opened {parse : ParseState} {state : ScanState} {op' : Opcode}
      (pushed : s.push parse state op' = some (op, s')) :
      op = op' ∧ s.push parse state op = some (op, s') := by
    have same : op = op' := by
      unfold push at pushed
      split at pushed
      · cases pushed
        rfl
      · cases pushed
    rw [← same] at pushed
    exact ⟨same, pushed⟩
  unfold stateBeginValue at stepped
  rcases ite_eq_iff.mp stepped with ⟨space, skipped⟩ | ⟨other, stepped⟩
  · cases skipped
    exact .inl ⟨space, rfl, rfl⟩
  have unspaced := Bool.eq_false_iff.mpr other
  rcases ite_eq_iff.mp stepped with ⟨_, object⟩ | ⟨_, stepped⟩
  · exact .inr (.inl ⟨unspaced, .inl (opened object).1, _, _, (opened object).2⟩)
  rcases ite_eq_iff.mp stepped with ⟨_, array⟩ | ⟨_, stepped⟩
  · exact .inr (.inl ⟨unspaced, .inr (opened array).1, _, _, (opened array).2⟩)
  iterate 7
    rcases ite_eq_iff.mp stepped with ⟨_, begun⟩ | ⟨_, stepped⟩
    · cases begun
      exact .inr (.inr ⟨unspaced, rfl, _, rfl⟩)
  cases stepped

theorem stateBeginValue_nested (inside : s.parseState ≠ [])
    (stepped : s.stateBeginValue c = some (op, s')) : s'.Nested := by
  rcases stateBeginValue_cases stepped with ⟨_, _, rfl⟩ | ⟨_, _, _, _, pushed⟩ | ⟨_, _, _, rfl⟩
  · exact Or.inl inside
  · exact push_nested pushed
  · exact Or.inl inside

theorem stateBeginString_nested (inside : s.parseState ≠ [])
    (stepped : s.stateBeginString c = some (op, s')) : s'.Nested := by
  unfold stateBeginString at stepped
  repeat' split at stepped
  all_goals
    first
    | exact goto_nested inside stepped
    | cases stepped

theorem state0_nested (inside : s.parseState ≠ [])
    (stepped : s.state0 c = some (op, s')) : s'.Nested := by
  unfold state0 at stepped
  repeat' split at stepped
  all_goals
    first
    | exact goto_nested inside stepped
    | exact stateEndValue_nested stepped

/-- Once inside a value's brackets, the scanner leaves them only by their end. -/
theorem step_nested (nested : s.Nested) (stepped : s.step c = some (op, s')) : s'.Nested := by
  by_cases top : s.state = .endTop
  · unfold step stateEndTop at stepped
    simp only [top] at stepped
    split at stepped
    · cases stepped
      exact Or.inr rfl
    · cases stepped
  · have inside : s.parseState ≠ [] := nested.resolve_right top
    unfold step at stepped
    cases state : s.state with
    | endTop => exact absurd state top
    | endValue =>
      rw [state] at stepped
      exact stateEndValue_nested stepped
    | zero =>
      rw [state] at stepped
      exact state0_nested inside stepped
    | beginValue =>
      rw [state] at stepped
      exact stateBeginValue_nested inside stepped
    | beginString =>
      rw [state] at stepped
      exact stateBeginString_nested inside stepped
    | beginStringOrEmpty =>
      rw [state] at stepped
      dsimp only at stepped
      repeat' split at stepped
      · cases stepped
        exact nested
      · exact stateEndValue_nested stepped
      · exact stateBeginString_nested inside stepped
    | beginValueOrEmpty =>
      rw [state] at stepped
      dsimp only at stepped
      repeat' split at stepped
      · cases stepped
        exact nested
      · exact stateEndValue_nested stepped
      · exact stateBeginValue_nested inside stepped
    | word rest =>
      rw [state] at stepped
      rcases rest with _ | ⟨next, _ | ⟨second, rest⟩⟩
      · exact stateEndValue_nested stepped
      all_goals
        dsimp only at stepped
        split at stepped
        · exact goto_nested inside stepped
        · cases stepped
    | _ =>
      rw [state] at stepped
      dsimp only at stepped
      repeat' split at stepped
      all_goals
        first
        | exact goto_nested inside stepped
        | exact stateEndValue_nested stepped
        | exact state0_nested inside stepped
        | cases stepped

theorem scan_nested {text : List Char} {scanned : List (Opcode × Char)} (nested : s.Nested)
    (ran : s.scan text = some (scanned, s')) : s'.Nested := by
  induction text generalizing s scanned with
  | nil =>
    cases ran
    exact nested
  | cons c rest ih =>
    simp only [scan, Option.bind_eq_bind, Option.bind_eq_some_iff] at ran
    obtain ⟨⟨op, next⟩, stepped, ⟨later, last⟩, ran', same⟩ := ran
    cases same
    exact ih (step_nested nested stepped) ran'

theorem isSpace_blank : isSpace ' ' = true := rfl

/-- A blank does not end a value with brackets. -/
theorem step_blank (inside : s.parseState ≠ []) (other : s.state ≠ .endTop)
    (stepped : s.step ' ' = some (op, s')) : s'.state ≠ .endTop := by
  obtain ⟨parse, outer, parses⟩ := List.exists_cons_of_ne_nil inside
  have endValue {op : Opcode} {s' : Scanner} (stepped : s.stateEndValue ' ' = some (op, s')) :
      s'.state ≠ .endTop := by
    simp only [stateEndValue, parses, isSpace_blank, if_true] at stepped
    cases stepped
    exact ScanState.noConfusion
  unfold step at stepped
  cases state : s.state with
  | endTop => exact absurd state other
  | endValue =>
    rw [state] at stepped
    exact endValue stepped
  | word rest =>
    rw [state] at stepped
    rcases rest with _ | ⟨next, _ | ⟨second, rest⟩⟩
    · exact endValue stepped
    all_goals
      dsimp only at stepped
      split at stepped
      · cases stepped
        exact ScanState.noConfusion
      · cases stepped
  | _ =>
    rw [state] at stepped
    first
    | exact endValue stepped
    | (simp [stateBeginValue, stateBeginString, isDigit, isHex, isSpace_blank] at stepped; done)
    | (simp only [stateBeginValue, stateBeginString, isSpace_blank, if_true] at stepped
       cases stepped
       exact other)

/-- Where the text may end, a value with brackets has ended. -/
theorem eof_nested (nested : s.Nested) (ends : s.eof = true) : s.state = .endTop := by
  rcases nested with inside | top
  · by_contra other
    unfold eof at ends
    cases stepped : s.step ' ' with
    | none => simp [stepped, other] at ends
    | some out =>
      have ended : out.2.state = .endTop := by simpa [stepped, other] using ends
      exact step_blank inside other stepped ended
  · exact top

/-- Past the top-level value only white space is left. -/
theorem scan_endTop {text : List Char} {scanned : List (Opcode × Char)} (top : s.state = .endTop)
    (ran : s.scan text = some (scanned, s')) : scanned = text.map fun c => (Opcode.end, c) := by
  induction text generalizing s scanned with
  | nil =>
    cases ran
    rfl
  | cons c rest ih =>
    simp only [scan, Option.bind_eq_bind, Option.bind_eq_some_iff] at ran
    obtain ⟨⟨op, next⟩, stepped, ⟨later, last⟩, ran', same⟩ := ran
    simp only [step, top, stateEndTop] at stepped
    split at stepped
    · cases stepped
      cases same
      rw [List.map_cons, ← ih rfl ran']
    · cases stepped

/-- The first token of a text after white space, and where an opening brace leads. -/
theorem scan_start {text : List Char} {scanned : List (Opcode × Char)}
    (ran : ({} : Scanner).scan text = some (scanned, s)) :
    ((scanned.dropWhile fun token => token.1 = .skipSpace) = [] ∧ s = {}) ∨
      ∃ token rest, (scanned.dropWhile fun token => token.1 = .skipSpace) = token :: rest ∧
        (token.1 = .beginObject → s.Nested) := by
  induction text generalizing scanned with
  | nil =>
    cases ran
    exact Or.inl ⟨rfl, rfl⟩
  | cons c rest ih =>
    simp only [scan, Option.bind_eq_bind, Option.bind_eq_some_iff] at ran
    obtain ⟨⟨op, next⟩, stepped, ⟨later, last⟩, ran', same⟩ := ran
    cases same
    by_cases space : isSpace c = true
    · have skipped : op = .skipSpace ∧ next = {} := by
        simp only [step, stateBeginValue, space, if_true] at stepped
        cases stepped
        exact ⟨rfl, rfl⟩
      obtain ⟨rfl, rfl⟩ := skipped
      simpa using ih ran'
    · have first : op ≠ .skipSpace ∧ (op = .beginObject → next.Nested) := by
        rcases stateBeginValue_cases stepped with
          ⟨space', _⟩ | ⟨_, opens, _, _, pushed⟩ | ⟨_, rfl, _⟩
        · exact absurd space' space
        · refine ⟨?_, fun _ => push_nested pushed⟩
          rcases opens with rfl | rfl <;> exact Opcode.noConfusion
        · exact ⟨Opcode.noConfusion, fun opens => Opcode.noConfusion opens⟩
      refine Or.inr ⟨(op, c), later, ?_, fun opens => scan_nested (first.2 opens) ran'⟩
      simp [first.1]

end Scanner

/-- A valid prefix of an object is the whole object. -/
theorem tokens_prefix {text rest : String} (object : isObject (text ++ rest) = true)
    (whole : valid text = true) : ∃ scanned, tokens text = some scanned ∧
      (scanned.dropWhile fun token => token.1 = .skipSpace).head?.map Prod.fst =
        some .beginObject ∧
      tokens (text ++ rest) = some (scanned ++ rest.toList.map fun c => (Opcode.end, c)) := by
  obtain ⟨scanned, isTokens⟩ := Option.isSome_iff_exists.mp whole
  refine ⟨scanned, isTokens, ?_⟩
  unfold tokens at isTokens
  split at isTokens
  · rename_i out s ran
    split at isTokens
    · rename_i ends
      cases isTokens
      unfold isObject tokens at object
      unfold tokens
      rw [String.toList_append, Scanner.scan_append, ran] at object ⊢
      simp only [Option.bind_eq_bind, Option.bind_some] at object ⊢
      cases later : s.scan rest.toList with
      | none => simp [later] at object
      | some more =>
        obtain ⟨after, s'⟩ := more
        simp only [later, Option.bind_some, Option.pure_def] at object ⊢
        split at object
        · cases object
        · rename_i all isAll
          split at isAll
          · rename_i ends'
            cases isAll
            rcases Scanner.scan_start ran with ⟨_, rfl⟩ | ⟨token, others, first, nests⟩
            · exact absurd ends (by decide)
            · have opens : token.1 = .beginObject := by
                simpa [List.dropWhile_append, first] using object
              have top := Scanner.eof_nested (nests opens) ends
              rw [Scanner.scan_endTop top later]
              refine ⟨by simp [first, opens], ?_⟩
              rw [if_pos ends']
          · cases isAll
    · cases isTokens
  · cases isTokens

/-- The object that such a prefix denotes is the whole text's. -/
theorem unmarshalMap_prefix {text rest : String} (object : isObject (text ++ rest) = true)
    (whole : valid text = true) : unmarshalMap (text ++ rest) = unmarshalMap text := by
  obtain ⟨scanned, isTokens, opens, all⟩ := tokens_prefix object whole
  have ends (members : Members) (cs : List Char) :
      (cs.map fun c => (Opcode.end, c)).foldl Members.next members = members := by
    induction cs generalizing members with
    | nil => rfl
    | cons c rest ih => exact ih members
  unfold unmarshalMap
  simp only [isTokens, all, List.dropWhile_append, List.foldl_append, ends]
  cases first : scanned.dropWhile fun token => token.1 = .skipSpace with
  | nil =>
    rw [first] at opens
    cases opens
  | cons token others =>
    obtain ⟨op, c⟩ := token
    rw [first] at opens
    cases opens
    simp

theorem canonical_prefix {text rest : String} (object : isObject (text ++ rest) = true)
    (whole : valid text = true) : canonical (text ++ rest) = canonical text := by
  obtain ⟨scanned, isTokens, _, all⟩ := tokens_prefix object whole
  have none : (rest.toList.map fun c => (Opcode.end, c)).filter
      (fun token => token.1 ≠ .skipSpace ∧ token.1 ≠ .end) = [] := by
    simp [List.filter_eq_nil_iff]
  simp only [canonical, isTokens, all, List.filter_append, none, List.append_nil]

theorem isObject_valid {text : String} (object : isObject text = true) : valid text = true := by
  unfold isObject at object
  unfold valid
  cases isTokens : tokens text with
  | none => simp [isTokens] at object
  | some scanned => rfl

end Sub2api.Go.Json
