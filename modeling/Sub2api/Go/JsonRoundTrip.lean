import Sub2api.Go.JsonText

/-!
# What is written is read back

`Leads` follows a text through the scanner and the reader at once: it ends where the value of the
text is the one that is complete. The steps compose, so that arrays and objects are by induction on
their parts.
-/

namespace Sub2api.Go.Json

/-! ### Strings -/

theorem unescape_writeChar (html : Bool) (c : Char) (rest : List Char) :
    unescape (writeChar html c ++ rest) = c.toNat :: unescape rest := by
  unfold writeChar
  split
  · rename_i plain
    rcases plain.2 with rfl | rfl | rfl
    all_goals rfl
  · exact unescape_encodeChar c rest

theorem unquote_writeString (html : Bool) (text : String) :
    unquote (writeString html text) = text := by
  have points : ∀ chars : List Char,
      unescape (chars.flatMap (writeChar html) ++ ['"']) = chars.map Char.toNat := by
    intro chars
    induction chars with
    | nil => rfl
    | cons c rest ih =>
      rw [List.flatMap_cons, List.append_assoc, unescape_writeChar, ih, List.map_cons]
  rw [unquote, writeString, List.cons_append, List.tail_cons, points, joinSurrogates_map_toNat,
    String.ofList_toList]

theorem scan_writeChar {parse : List ParseState} (html : Bool) (c : Char) :
    (⟨.inString, parse⟩ : Scanner).scan (writeChar html c) =
      some ((writeChar html c).map (Prod.mk .continue), ⟨.inString, parse⟩) := by
  unfold writeChar
  split
  · rename_i plain
    rcases plain.2 with rfl | rfl | rfl
    all_goals rfl
  · exact scan_encodeChar c

theorem scan_writeChars {parse : List ParseState} (html : Bool) (text : List Char) :
    (⟨.inString, parse⟩ : Scanner).scan (text.flatMap (writeChar html)) =
      some ((text.flatMap (writeChar html)).map (Prod.mk .continue), ⟨.inString, parse⟩) := by
  induction text with
  | nil => rfl
  | cons c rest ih =>
    rw [List.flatMap_cons, List.map_append]
    exact scan_then (scan_writeChar html c) ih

/-! ### Following a text -/

/-- The states in which a value may be complete. -/
def ScanState.Ends : ScanState → Bool
  | .endValue | .int | .zero | .fraction | .exponentDigits => true
  | _ => false

/-- After a value that stands in these arrays and objects. -/
structure After (parse : List ParseState) (s : Scanner) : Prop where
  outside : s.parseState = parse
  ends : s.state.Ends = true ∨ parse = [] ∧ s.state = .endTop

/-- The text is read on to the end of the value. -/
def Leads (s : Scanner) (r : Reader) (text : List Char) (parse : List ParseState)
    (frames : List Frame) (v : JsonValue) : Prop :=
  ∃ scanned s', s.scan text = some (scanned, s') ∧ After parse s' ∧
    (scanned.foldl Reader.next r).frames = frames ∧
    (scanned.foldl Reader.next r).current = some v

variable {s s₁ : Scanner} {r : Reader} {parse : List ParseState} {frames : List Frame}
  {v : JsonValue}

theorem Leads.nil (after : After parse s) (inside : r.frames = frames) (value : r.current = some v) :
    Leads s r [] parse frames v :=
  ⟨[], s, rfl, after, inside, value⟩

theorem Leads.step {c : Char} {op : Opcode} {text : List Char} (here : s.step c = some (op, s₁))
    (there : Leads s₁ (r.next (op, c)) text parse frames v) :
    Leads s r (c :: text) parse frames v := by
  obtain ⟨scanned, s', scan, after, inside, value⟩ := there
  exact ⟨(op, c) :: scanned, s', scan_step here scan, after, inside, value⟩

theorem Leads.followed {first later : List Char} {parse₁ : List ParseState} {frames₁ : List Frame}
    {v₁ : JsonValue} (here : Leads s r first parse₁ frames₁ v₁)
    (there : ∀ s₁ r₁, After parse₁ s₁ → r₁.frames = frames₁ → r₁.current = some v₁ →
      Leads s₁ r₁ later parse frames v) :
    Leads s r (first ++ later) parse frames v := by
  obtain ⟨scanned, s₁, scan, after, inside, value⟩ := here
  obtain ⟨more, s', scan', after', inside', value'⟩ := there s₁ _ after inside value
  refine ⟨scanned ++ more, s', scan_then scan scan', after', ?_, ?_⟩
  · rw [List.foldl_append]
    exact inside'
  · rw [List.foldl_append]
    exact value'

/-- A separator or a bracket after a value does what it does after any value. -/
theorem After.step (after : After parse s) (inside : parse ≠ []) {c : Char}
    (separator : c = ',' ∨ c = ']' ∨ c = '}' ∨ c = ':') :
    s.step c = (⟨.endValue, parse⟩ : Scanner).step c := by
  obtain ⟨state, parse'⟩ := s
  obtain ⟨rfl, ends | ⟨rfl, -⟩⟩ := after
  · cases state
    case endValue => rfl
    case int | zero | fraction | exponentDigits =>
      cases parse' with
      | nil => exact absurd rfl inside
      | cons kind outer =>
        rcases separator with rfl | rfl | rfl | rfl
        all_goals rfl
    all_goals cases ends
  · exact absurd rfl inside

/-- At the end of a value that stands alone the text may end. -/
theorem After.eof (after : After [] s) : s.eof = true := by
  obtain ⟨state, parse'⟩ := s
  obtain ⟨rfl, ends | ⟨-, rfl⟩⟩ := after
  · cases state
    case endValue | int | zero | fraction | exponentDigits => rfl
    all_goals cases ends
  · rfl

theorem foldl_literal (r : Reader) (rest : List Char) :
    (rest.map (Prod.mk Opcode.continue)).foldl Reader.next r =
      { r with literal := r.literal ++ rest } := by
  induction rest generalizing r with
  | nil => simp
  | cons c rest ih =>
    rw [List.map_cons, List.foldl_cons, ih]
    simp [Reader.next]

/-- A literal is read to its end. -/
theorem Leads.literal {c : Char} {rest : List Char}
    (here : s.step c = some (.beginLiteral, s₁)) {s₂ : Scanner}
    (there : s₁.scan rest = some (rest.map (Prod.mk .continue), s₂)) (after : After parse s₂) :
    Leads s r (c :: rest) parse r.frames (literalValue (c :: rest)) := by
  refine ⟨_, s₂, scan_step here there, after, ?_, ?_⟩
  · rw [List.foldl_cons, foldl_literal]
    rfl
  · rw [List.foldl_cons, foldl_literal]
    rfl

theorem Leads.string (html : Bool) (text : String)
    (starts : s.step '"' = some (.beginLiteral, ⟨.inString, parse⟩)) :
    Leads s r (writeString html text) parse r.frames (.string text) := by
  have closed : (⟨.inString, parse⟩ : Scanner).scan ['"'] =
      some ([(.continue, '"')], ⟨.endValue, parse⟩) := rfl
  have scanned := scan_then (scan_writeChars html text.toList) closed
  have leads : Leads s r (writeString html text) parse r.frames
      (literalValue (writeString html text)) := by
    have rest : (⟨.inString, parse⟩ : Scanner).scan
        (text.toList.flatMap (writeChar html) ++ ['"']) =
          some ((text.toList.flatMap (writeChar html) ++ ['"']).map (Prod.mk .continue),
            ⟨.endValue, parse⟩) := by
      rw [scanned, List.map_append]
      rfl
    exact Leads.literal starts rest ⟨rfl, Or.inl rfl⟩
  have value : literalValue (writeString html text) = .string text := by
    change JsonValue.string (unquote (writeString html text)) = _
    rw [unquote_writeString]
  rwa [value] at leads

/-! ### Numbers -/

/-- Within a number the scanner does what `numberStep` says. -/
theorem step_number {state state' : ScanState} {c : Char} (begun : state ≠ .beginValue)
    (next : numberStep state c = some state') :
    (⟨state, parse⟩ : Scanner).step c = some (.continue, ⟨state', parse⟩) := by
  cases state
  case beginValue => exact absurd rfl begun
  all_goals
    simp only [numberStep] at next
    try cases next
  case int | zero | fraction | exponent =>
    simp only [Scanner.step, Scanner.state0, Scanner.goto]
    grind
  case neg | dot | exponentSign | exponentDigits =>
    simp only [Scanner.step, Scanner.goto]
    grind

theorem numberStep_begun {state state' : ScanState} {c : Char}
    (next : numberStep state c = some state') : state' ≠ .beginValue := by
  rintro rfl
  cases state
  all_goals simp only [numberStep] at next
  all_goals grind

theorem scan_number {state state' : ScanState} {rest : List Char} (begun : state ≠ .beginValue)
    (number : rest.foldlM numberStep state = some state') :
    (⟨state, parse⟩ : Scanner).scan rest =
      some (rest.map (Prod.mk .continue), ⟨state', parse⟩) := by
  induction rest generalizing state with
  | nil =>
    cases number
    rfl
  | cons c rest ih =>
    rw [List.foldlM_cons] at number
    cases next : numberStep state c with
    | none =>
      rw [next] at number
      cases number
    | some middle =>
      rw [next] at number
      exact scan_step (step_number begun next) (ih (numberStep_begun next) number)

variable (parse) in
/-- A number begins with a sign or a digit. -/
theorem numberStep_begin {c : Char} {state : ScanState} (next : numberStep .beginValue c = some state) :
    (⟨.beginValue, parse⟩ : Scanner).step c = some (.beginLiteral, ⟨state, parse⟩) ∧
      (⟨.beginValueOrEmpty, parse⟩ : Scanner).step c = some (.beginLiteral, ⟨state, parse⟩) ∧
      ∀ rest, literalValue (c :: rest) = .number (String.ofList (c :: rest)) := by
  have kinds : (c = '-' ∧ state = .neg) ∨ (c = '0' ∧ state = .zero) ∨
      (isDigit c = true ∧ c ≠ '0' ∧ state = .int) := by
    simp only [numberStep] at next
    grind
  rcases kinds with ⟨rfl, rfl⟩ | ⟨rfl, rfl⟩ | ⟨digit, other, rfl⟩
  · exact ⟨rfl, rfl, fun _ => rfl⟩
  · exact ⟨rfl, rfl, fun _ => rfl⟩
  · have bounds : 48 ≤ c.toNat ∧ c.toNat ≤ 57 := by
      simp only [isDigit, Bool.and_eq_true, decide_eq_true_eq] at digit
      exact ⟨digit.1, digit.2⟩
    have differs : ∀ d : Char, (d.toNat < 48 ∨ 57 < d.toNat) → c ≠ d := by
      rintro d outside rfl
      omega
    have blank : isSpace c = false := by
      simp [isSpace, differs ' ' (by decide), differs '\t' (by decide), differs '\r' (by decide),
        differs '\n' (by decide)]
    have begins : ∀ state₁, (⟨state₁, parse⟩ : Scanner).stateBeginValue c =
        some (.beginLiteral, ⟨.int, parse⟩) := by
      intro state₁
      simp [Scanner.stateBeginValue, blank, differs '{' (by decide), differs '[' (by decide),
        differs '"' (by decide), differs '-' (by decide), other, differs 't' (by decide),
        differs 'f' (by decide), differs 'n' (by decide), digit, Scanner.goto]
    refine ⟨begins _, ?_, ?_⟩
    · simp [Scanner.step, blank, differs ']' (by decide), begins]
    · intro rest
      unfold literalValue
      split
      · rename_i same
        exact absurd (Option.some.inj same) (differs _ (by decide))
      · rename_i same
        exact absurd (Option.some.inj same) (differs _ (by decide))
      · rename_i same
        exact absurd (Option.some.inj same) (differs _ (by decide))
      · rename_i same
        exact absurd (Option.some.inj same) (differs _ (by decide))
      · rfl

/-! ### Values -/

/-- The text is read as the value, wherever a value is expected that may nest so deep. -/
def Reads (depth : ℕ) (text : List Char) (v : JsonValue) : Prop :=
  ∀ (parse : List ParseState) (state : ScanState) (frames : List Frame),
    parse.length + depth ≤ 10000 → state = .beginValue ∨ state = .beginValueOrEmpty →
    Leads ⟨state, parse⟩ { frames := frames } text parse frames v

variable {depth : ℕ}

theorem reads_number {literal : String} (isNumber : IsNumber literal.toList) :
    Reads depth literal.toList (.number literal) := by
  intro parse state frames _ expected
  obtain ⟨last, listed, number⟩ := isNumber
  have ends : last.Ends = true := by
    simp only [List.mem_cons, List.not_mem_nil, or_false] at listed
    rcases listed with rfl | rfl | rfl | rfl
    all_goals rfl
  cases chars : literal.toList with
  | nil =>
    rw [chars] at number
    cases number
    cases ends
  | cons c rest =>
    rw [chars, List.foldlM_cons] at number
    cases next : numberStep .beginValue c with
    | none =>
      rw [next] at number
      cases number
    | some middle =>
      rw [next] at number
      obtain ⟨begins, begins', value⟩ := numberStep_begin parse next
      have whole : String.ofList (c :: rest) = literal := by
        rw [← chars, String.ofList_toList]
      have read : Leads ⟨state, parse⟩ { frames := frames } (c :: rest) parse frames
          (literalValue (c :: rest)) := by
        rcases expected with rfl | rfl
        · exact Leads.literal begins (scan_number (numberStep_begun next) number)
            ⟨rfl, Or.inl ends⟩
        · exact Leads.literal begins' (scan_number (numberStep_begun next) number)
            ⟨rfl, Or.inl ends⟩
      rwa [value, whole] at read

theorem reads_string (depth : ℕ) (html : Bool) (text : String) :
    Reads depth (writeString html text) (.string text) := by
  intro parse state frames _ expected
  rcases expected with rfl | rfl
  · exact Leads.string (r := { frames := frames }) html text rfl
  · exact Leads.string (r := { frames := frames }) html text rfl

theorem reads_word (depth : ℕ) {c : Char} {rest : List Char} {v : JsonValue}
    (listed : (c, rest, v) ∈ [('n', ['u', 'l', 'l'], JsonValue.null),
      ('t', ['r', 'u', 'e'], .bool true), ('f', ['a', 'l', 's', 'e'], .bool false)]) :
    Reads depth (c :: rest) v := by
  intro parse state frames _ expected
  simp only [List.mem_cons, Prod.mk.injEq, List.not_mem_nil, or_false] at listed
  rcases listed with ⟨rfl, rfl, rfl⟩ | ⟨rfl, rfl, rfl⟩ | ⟨rfl, rfl, rfl⟩
  all_goals
    rcases expected with rfl | rfl
    all_goals exact ⟨_, _, rfl, ⟨rfl, Or.inl rfl⟩, rfl, rfl⟩

variable (parse) in
/-- A bracket that ends an array or an object. -/
theorem After.pop {kind : ParseState} {c : Char} {op : Opcode}
    (closes : (kind = .arrayValue ∧ c = ']' ∧ op = .endArray) ∨
      (kind = .objectValue ∧ c = '}' ∧ op = .endObject)) :
    ∃ s', (⟨.endValue, kind :: parse⟩ : Scanner).step c = some (op, s') ∧ After parse s' := by
  cases parse with
  | nil =>
    refine ⟨⟨.endTop, []⟩, ?_, rfl, Or.inr ⟨rfl, rfl⟩⟩
    rcases closes with ⟨rfl, rfl, rfl⟩ | ⟨rfl, rfl, rfl⟩
    all_goals rfl
  | cons outer parse =>
    refine ⟨⟨.endValue, outer :: parse⟩, ?_, rfl, Or.inl rfl⟩
    rcases closes with ⟨rfl, rfl, rfl⟩ | ⟨rfl, rfl, rfl⟩
    all_goals rfl

theorem taken_of_current {frame : Frame} {outer : List Frame} (inside : r.frames = frame :: outer)
    (value : r.current = some v) : r.taken = frame.add v :: outer := by
  unfold Reader.taken
  rw [inside, value]
  rfl

/-- The items of an array after its first, with the bracket. -/
theorem leads_items {html : Bool} {rest : List JsonValue}
    (each : ∀ item ∈ rest, Reads depth (encodeValue html item) item)
    (bound : parse.length + (depth + 1) ≤ 10000) {items : List JsonValue}
    (after : After (.arrayValue :: parse) s) (inside : r.frames = .array items :: frames)
    (value : r.current = some v) :
    Leads s r (encodeItems html rest) parse frames (.array (items ++ v :: rest)) := by
  induction rest generalizing items v s r with
  | nil =>
    have step := after.step (by simp) (c := ']') (by simp)
    obtain ⟨s', pops, after'⟩ := After.pop parse (Or.inl ⟨rfl, rfl, rfl⟩)
    rw [pops] at step
    rw [encodeItems]
    apply Leads.step step
    apply Leads.nil after'
    · simp [Reader.next, taken_of_current inside value]
    · simp [Reader.next, taken_of_current inside value, Reader.current, Frame.add, Frame.close]
  | cons item rest ih =>
    have step := after.step (by simp) (c := ',') (by simp)
    rw [encodeItems, List.cons_append]
    apply Leads.step step
    have reader : r.next (.arrayValue, ',') = { frames := .array (items ++ [v]) :: frames } := by
      simp [Reader.next, taken_of_current inside value, Frame.add]
    rw [reader]
    apply Leads.followed (each item (by simp) (.arrayValue :: parse) .beginValue _
      (by simp only [List.length_cons]; omega) (Or.inl rfl))
    intro s₁ r₁ after₁ inside₁ value₁
    have later := ih (fun item mem => each item (by simp [mem])) after₁ inside₁ value₁
    rwa [List.append_assoc] at later

variable {members : JsonMap}

theorem keyed_of_current {key old : String} {outer : List Frame}
    (inside : r.frames = .object members old :: outer) (value : r.current = some (.string key)) :
    r.keyed = .object members key :: outer := by
  unfold Reader.keyed
  rw [inside, value]
  rfl

/-- A key greater than all others goes to the end. -/
theorem put_last {key : String} (above : ∀ member ∈ members, member.1 < key) (v : JsonValue) :
    members.put key v = members ++ [(key, v)] := by
  induction members with
  | nil => rfl
  | cons member rest ih =>
    obtain ⟨name, old⟩ := member
    have below : name < key := above (name, old) (by simp)
    rw [JsonMap.put, if_neg (lt_asymm below), if_neg (ne_of_gt below),
      ih fun member mem => above member (by simp [mem])]
    rfl

/-- A key, its colon and its value. -/
theorem leads_member {html : Bool} {state : ScanState} {key old : String} {later : List Char}
    {w : JsonValue} {parse' : List ParseState} {frames' : List Frame}
    (each : Reads depth (encodeValue html v) v) (bound : parse.length + (depth + 1) ≤ 10000)
    (expected : state = .beginString ∨ state = .beginStringOrEmpty)
    (there : ∀ s₁ r₁, After (.objectValue :: parse) s₁ → r₁.frames = .object members key :: frames →
      r₁.current = some v → Leads s₁ r₁ later parse' frames' w) :
    Leads ⟨state, .objectKey :: parse⟩ { frames := .object members old :: frames }
      (writeString html key ++ ':' :: encodeValue html v ++ later) parse' frames' w := by
  have starts : (⟨state, .objectKey :: parse⟩ : Scanner).step '"' =
      some (.beginLiteral, ⟨.inString, .objectKey :: parse⟩) := by
    rcases expected with rfl | rfl
    · rfl
    · rfl
  rw [List.append_assoc, List.cons_append]
  apply Leads.followed (Leads.string html key starts)
  intro s₁ r₁ after₁ inside₁ value₁
  have step := after₁.step (by simp) (c := ':') (by simp)
  apply Leads.step (step.trans step_colon)
  have reader : r₁.next (.objectKey, ':') = { frames := .object members key :: frames } := by
    simp [Reader.next, keyed_of_current inside₁ value₁]
  rw [reader]
  apply Leads.followed (each (.objectValue :: parse) .beginValue _
    (by simp only [List.length_cons]; omega) (Or.inl rfl))
  exact there

/-- The members of an object after its first, with the brace. -/
theorem leads_members {html : Bool} {rest : JsonMap}
    (each : ∀ member ∈ rest, Reads depth (encodeValue html member.2) member.2)
    (bound : parse.length + (depth + 1) ≤ 10000) {key : String}
    (ordered : (members ++ (key, v) :: rest).Pairwise fun a b => a.1 < b.1)
    (after : After (.objectValue :: parse) s) (inside : r.frames = .object members key :: frames)
    (value : r.current = some v) :
    Leads s r (encodeMembers html rest) parse frames (.object (members ++ (key, v) :: rest)) := by
  have above : ∀ member ∈ members, member.1 < key := fun member mem =>
    (List.pairwise_append.mp ordered).2.2 member mem (key, v) (by simp)
  induction rest generalizing members key v s r with
  | nil =>
    have step := after.step (by simp) (c := '}') (by simp)
    obtain ⟨s', pops, after'⟩ := After.pop parse (Or.inr ⟨rfl, rfl, rfl⟩)
    rw [pops] at step
    rw [encodeMembers]
    apply Leads.step step
    apply Leads.nil after'
    · simp [Reader.next, taken_of_current inside value]
    · simp [Reader.next, taken_of_current inside value, Reader.current, Frame.add, Frame.close,
        put_last above]
  | cons member rest ih =>
    obtain ⟨key₁, v₁⟩ := member
    have step := after.step (by simp) (c := ',') (by simp)
    rw [encodeMembers]
    apply Leads.step (step.trans step_comma)
    have reader : r.next (.objectValue, ',') =
        { frames := .object (members ++ [(key, v)]) key :: frames } := by
      simp [Reader.next, taken_of_current inside value, Frame.add, put_last above]
    have split_ : members ++ (key, v) :: (key₁, v₁) :: rest =
        (members ++ [(key, v)]) ++ (key₁, v₁) :: rest := by simp
    rw [reader, split_]
    rw [split_] at ordered
    apply leads_member (each (key₁, v₁) (by simp)) bound (Or.inl rfl)
    intro s₁ r₁ after₁ inside₁ value₁
    exact ih (fun member mem => each member (by simp [mem])) ordered after₁ inside₁ value₁
      fun member mem => (List.pairwise_append.mp ordered).2.2 member mem (key₁, v₁) (by simp)

theorem reads_array {html : Bool} {items : List JsonValue}
    (each : ∀ item ∈ items, Reads depth (encodeValue html item) item) :
    Reads (depth + 1) (encodeValue html (.array items)) (.array items) := by
  intro parse state frames bound expected
  have opened : (⟨state, parse⟩ : Scanner).step '[' =
      some (.beginArray, ⟨.beginValueOrEmpty, .arrayValue :: parse⟩) := by
    have room : parse.length + 1 ≤ 10000 := by omega
    rcases expected with rfl | rfl
    · simp [Scanner.step, Scanner.stateBeginValue, Scanner.push, room, isSpace]
    · simp [Scanner.step, Scanner.stateBeginValue, Scanner.push, room, isSpace]
  cases items with
  | nil =>
    obtain ⟨s', pops, after⟩ := After.pop parse (Or.inl ⟨rfl, rfl, rfl⟩)
    rw [encodeValue]
    apply Leads.step opened
    apply Leads.step pops
    exact Leads.nil after rfl rfl
  | cons first rest =>
    rw [encodeValue]
    apply Leads.step opened
    apply Leads.followed (each first (by simp) (.arrayValue :: parse) .beginValueOrEmpty
      (.array [] :: frames) (by simp only [List.length_cons]; omega) (Or.inr rfl))
    intro s₁ r₁ after₁ inside₁ value₁
    exact leads_items (fun item mem => each item (by simp [mem])) bound after₁ inside₁ value₁

theorem reads_object {html : Bool} (ordered : members.Pairwise fun a b => a.1 < b.1)
    (each : ∀ member ∈ members, Reads depth (encodeValue html member.2) member.2) :
    Reads (depth + 1) (encodeValue html (.object members)) (.object members) := by
  intro parse state frames bound expected
  have opened : (⟨state, parse⟩ : Scanner).step '{' =
      some (.beginObject, ⟨.beginStringOrEmpty, .objectKey :: parse⟩) := by
    have room : parse.length + 1 ≤ 10000 := by omega
    rcases expected with rfl | rfl
    · simp [Scanner.step, Scanner.stateBeginValue, Scanner.push, room, isSpace]
    · simp [Scanner.step, Scanner.stateBeginValue, Scanner.push, room, isSpace]
  cases members with
  | nil =>
    obtain ⟨s', pops, after⟩ := After.pop parse (Or.inr ⟨rfl, rfl, rfl⟩)
    rw [encodeValue]
    apply Leads.step opened
    apply Leads.step pops
    exact Leads.nil after rfl rfl
  | cons first rest =>
    obtain ⟨key, v⟩ := first
    rw [encodeValue]
    apply Leads.step opened
    apply leads_member (each (key, v) (by simp)) bound (Or.inr rfl)
    intro s₁ r₁ after₁ inside₁ value₁
    exact leads_members (fun member mem => each member (by simp [mem])) bound ordered after₁
      inside₁ value₁

theorem reads_encodeValue {v : JsonValue} (html : Bool) (fits : Fits depth v) :
    Reads depth (encodeValue html v) v := by
  induction fits with
  | null depth => exact reads_word depth (by simp)
  | bool depth b =>
    cases b with
    | true => exact reads_word depth (by simp)
    | false => exact reads_word depth (by simp)
  | number depth isNumber => exact reads_number isNumber
  | string depth text => exact reads_string depth html text
  | array each ih => exact reads_array ih
  | object ordered each ih => exact reads_object ordered ih

/-- What is written for a value is read as that value. -/
theorem decode_encodeValue {v : JsonValue} (html : Bool) (fits : Fits 10000 v) :
    decode (String.ofList (encodeValue html v)) = some v := by
  obtain ⟨scanned, s', scan, after, -, value⟩ :=
    reads_encodeValue html fits [] .beginValue [] (by simp) (Or.inl rfl)
  have whole : tokens (String.ofList (encodeValue html v)) = some scanned := by
    unfold tokens
    rw [String.toList_ofList]
    rw [scan]
    exact if_pos after.eof
  unfold decode
  rw [whole]
  change some ((List.foldl Reader.next { frames := [] } scanned).current.getD .null) = _
  rw [value]
  rfl

theorem decode_encode {v : JsonValue} (fits : Fits 10000 v) : decode (encode v) = some v :=
  decode_encodeValue true fits

theorem decode_encodeRaw {v : JsonValue} (fits : Fits 10000 v) : decode (encodeRaw v) = some v :=
  decode_encodeValue false fits

end Sub2api.Go.Json
