import Sub2api.Go.JsonPrefix

/-!
# JSON objects read into structures

`json.Unmarshal` into a structure takes the members of an object in their order, and a field takes
those whose key is its name up to case. What `json.Marshal` writes for a string reads back as the
string, and so do the members of an object of strings.
-/

namespace Sub2api.Go.Json

/-! ### Reading -/

namespace Members

/-- The member that a token ends. -/
def ended (m : Members) (token : Opcode × Char) : List (String × String) :=
  match m.value, (m.next token).value with
  | some text, none => [(unquote m.key, String.ofList text)]
  | _, _ => []

/-- The members that tokens end, with every repetition of a key. -/
def members (m : Members) : List (Opcode × Char) → List (String × String)
  | [] => []
  | token :: later => m.ended token ++ (m.next token).members later

end Members

/-- The members that `json.Unmarshal` into a structure goes through; `null` has none, and no other
value fits. -/
def structMembers (text : String) : Option (List (String × String)) :=
  match tokens text with
  | none => none
  | some scanned =>
    match scanned.dropWhile fun token => token.1 = .skipSpace with
    | (.beginObject, _) :: _ => some (({} : Members).members scanned)
    | (_, 'n') :: _ => some []
    | _ => none

/-- A field of type `string`: the last of its members counts, and `null` is passed over. -/
def stringField (members : List (String × String)) (name : String) : Option String :=
  members.foldlM (fun value (key, raw) =>
    if equalFold key name ∧ raw ≠ "null" then unmarshalString raw else some value) ""

/-- A field of type `json.RawMessage`. -/
def rawField (members : List (String × String)) (name : String) : String :=
  members.foldl (fun value (key, raw) => if equalFold key name then raw else value) ""

/-- A field of type `bool`. -/
def boolField (members : List (String × String)) (name : String) : Option Bool :=
  members.foldlM (fun value (key, raw) =>
    if equalFold key name ∧ raw ≠ "null" then
      if raw = "true" then some true else if raw = "false" then some false else none
    else some value) false

/-- A field that points to a structure, which its last member decides. -/
def pointerField {α : Type} (read : List (String × String) → Option α)
    (members : List (String × String)) (name : String) : Option (Option α) :=
  members.foldlM (fun value (key, raw) =>
    if equalFold key name then
      if raw = "null" then some none
      else do
        let inner ← structMembers raw
        let value ← read inner
        some (some value)
    else some value) none

/-! ### Strings -/

private theorem codeUnit_hex4_table : ∀ n < 16, hexValue (Nat.digitChar n) = n := by decide

theorem codeUnit_hex4 {n : ℕ} (small : n < 65536) : codeUnit (hex4 n) = n := by
  have digit (m : ℕ) : hexValue (Nat.digitChar (m % 16)) = m % 16 :=
    codeUnit_hex4_table _ (Nat.mod_lt _ (by decide))
  simp only [codeUnit, hex4, List.foldl_cons, List.foldl_nil, digit]
  omega

/-- The characters that a literal has escaped. -/
theorem encodeChar_cases (c : Char) :
    (∃ e point, encodeChar c = ['\\', e] ∧ (e, point) ∈
      [('"', '"'), ('\\', '\\'), ('b', Char.ofNat 8), ('f', Char.ofNat 12), ('n', '\n'),
        ('r', '\r'), ('t', '\t')] ∧ c = point) ∨
      (c.toNat < 65536 ∧ encodeChar c = escapeU c) ∨
      (¬c.toNat < 0x20 ∧ c ≠ '"' ∧ c ≠ '\\' ∧ encodeChar c = [c]) := by
  have named {d : Char} {n : ℕ} (here : d.toNat = n) : d = Char.ofNat n := by
    rw [← here, Char.ofNat_toNat]
  by_cases quoted : c = '"' ∨ c = '\\'
  · left
    rcases quoted with rfl | rfl
    · exact ⟨'"', '"', rfl, by decide, rfl⟩
    · exact ⟨'\\', '\\', rfl, by decide, rfl⟩
  by_cases backspace : c.toNat = 8
  · left
    cases named backspace
    exact ⟨'b', _, rfl, by decide, rfl⟩
  by_cases feed : c.toNat = 12
  · left
    cases named feed
    exact ⟨'f', _, rfl, by decide, rfl⟩
  by_cases newline : c = '\n'
  · left
    cases newline
    exact ⟨'n', _, rfl, by decide, rfl⟩
  by_cases carriage : c = '\r'
  · left
    cases carriage
    exact ⟨'r', _, rfl, by decide, rfl⟩
  by_cases tab : c = '\t'
  · left
    cases tab
    exact ⟨'t', _, rfl, by decide, rfl⟩
  right
  have shape : encodeChar c =
      if c.toNat < 0x20 ∨ escapesHTML c then escapeU c else [c] := by
    simp only [encodeChar, if_neg quoted, if_neg backspace, if_neg feed, if_neg newline,
      if_neg carriage, if_neg tab]
  by_cases escaped : c.toNat < 0x20 ∨ escapesHTML c = true
  · left
    refine ⟨?_, by rw [shape, if_pos escaped]⟩
    rcases escaped with low | html
    · omega
    · simp only [escapesHTML, Bool.or_eq_true, beq_iff_eq] at html
      rcases html with (((rfl | rfl) | rfl) | line) | paragraph
      · decide
      · decide
      · decide
      · omega
      · omega
  · right
    have unquoted := not_or.mp quoted
    exact ⟨fun low => escaped (.inl low), unquoted.1, unquoted.2, by rw [shape, if_neg escaped]⟩

theorem unescape_encodeChar (c : Char) (rest : List Char) :
    unescape (encodeChar c ++ rest) = c.toNat :: unescape rest := by
  rcases encodeChar_cases c with ⟨e, point, written, listed, rfl⟩ | ⟨small, written⟩ |
    ⟨_, unquoted, straight, written⟩
  · rw [written]
    simp only [List.mem_cons, Prod.mk.injEq, List.not_mem_nil, or_false] at listed
    rcases listed with ⟨rfl, rfl⟩ | ⟨rfl, rfl⟩ | ⟨rfl, rfl⟩ | ⟨rfl, rfl⟩ | ⟨rfl, rfl⟩ | ⟨rfl, rfl⟩ |
      ⟨rfl, rfl⟩
    all_goals simp [unescape]
  · rw [written]
    have unit := codeUnit_hex4 small
    simp only [escapeU, hex4, List.cons_append, List.nil_append] at unit ⊢
    rw [unescape, unit]
  · rw [written]
    simp only [List.cons_append, List.nil_append]
    rw [unescape.eq_def]
    split <;> simp_all

theorem unescape_encoded (text later : List Char) :
    unescape (text.flatMap encodeChar ++ '"' :: later) = text.map Char.toNat := by
  induction text with
  | nil => simp [unescape]
  | cons c rest ih =>
    rw [List.flatMap_cons, List.append_assoc, unescape_encodeChar, ih, List.map_cons]

theorem rune_toNat (c : Char) : rune c.toNat = c := by
  have scalar := c.valid
  have apart : ¬(0xd800 ≤ c.toNat ∧ c.toNat < 0xe000) := by
    rcases scalar with low | high
    · have : c.toNat < 0xd800 := low
      omega
    · have : 0xdfff < c.toNat := high.1
      omega
  rw [rune, if_neg apart, Char.ofNat_toNat]

theorem joinSurrogates_map_toNat (text : List Char) :
    joinSurrogates (text.map Char.toNat) = text := by
  have apart (c : Char) : ¬(0xd800 ≤ c.toNat ∧ c.toNat < 0xdc00) := by
    rcases c.valid with low | high
    · have : c.toNat < 0xd800 := low
      omega
    · have : 0xdfff < c.toNat := high.1
      omega
  induction text with
  | nil => rfl
  | cons c rest ih =>
    cases rest with
    | nil => simp [joinSurrogates, rune_toNat]
    | cons d more =>
      simp only [List.map_cons] at ih ⊢
      rw [joinSurrogates, if_neg fun pair => apart c pair.1, rune_toNat, ih]

/-- The text of a literal that was written for it. -/
theorem unquote_marshalString (text : String) : unquote (marshalString text).toList = text := by
  simp only [unquote, marshalString, String.toList_ofList, List.cons_append, List.tail_cons]
  rw [unescape_encoded, joinSurrogates_map_toNat, String.ofList_toList]

/-! ### Tokens -/

/-- The tokens of a literal. -/
def literalTokens (text : String) : List (Opcode × Char) :=
  (.beginLiteral, '"') :: (text.toList.flatMap encodeChar).map (Prod.mk .continue) ++
    [(.continue, '"')]

variable {parse : List ParseState}

theorem map_literalTokens (text : String) :
    (literalTokens text).map Prod.snd = (marshalString text).toList := by
  simp [literalTokens, marshalString, Function.comp_def]

/-- Within a literal an encoded character is read over. -/
theorem scan_encodeChar (c : Char) :
    (⟨.inString, parse⟩ : Scanner).scan (encodeChar c) =
      some ((encodeChar c).map (Prod.mk .continue), ⟨.inString, parse⟩) := by
  rcases encodeChar_cases c with ⟨e, point, written, listed, rfl⟩ | ⟨small, written⟩ |
    ⟨printed, unquoted, straight, written⟩
  · rw [written]
    simp only [List.mem_cons, Prod.mk.injEq, List.not_mem_nil, or_false] at listed
    rcases listed with ⟨rfl, rfl⟩ | ⟨rfl, rfl⟩ | ⟨rfl, rfl⟩ | ⟨rfl, rfl⟩ | ⟨rfl, rfl⟩ | ⟨rfl, rfl⟩ |
      ⟨rfl, rfl⟩
    all_goals rfl
  · have hex : ∀ n < 16, isHex (Nat.digitChar n) = true := by decide
    have digit (m : ℕ) : isHex (Nat.digitChar (m % 16)) = true :=
      hex _ (Nat.mod_lt _ (by decide))
    rw [written]
    simp [escapeU, hex4, Scanner.scan, Scanner.step, Scanner.goto, digit]
  · rw [written]
    simp [Scanner.scan, Scanner.step, unquoted, straight, printed]

theorem scan_then {s s₁ s₂ : Scanner} {first later : List Char}
    {scanned more : List (Opcode × Char)} (here : s.scan first = some (scanned, s₁))
    (there : s₁.scan later = some (more, s₂)) :
    s.scan (first ++ later) = some (scanned ++ more, s₂) := by
  simp [Scanner.scan_append, here, there]

theorem scan_step {s s₁ s₂ : Scanner} {c : Char} {op : Opcode} {later : List Char}
    {more : List (Opcode × Char)} (here : s.step c = some (op, s₁))
    (there : s₁.scan later = some (more, s₂)) : s.scan (c :: later) = some ((op, c) :: more, s₂) := by
  simp [Scanner.scan, here, there]

theorem scan_encoded (text : List Char) :
    (⟨.inString, parse⟩ : Scanner).scan (text.flatMap encodeChar) =
      some ((text.flatMap encodeChar).map (Prod.mk .continue), ⟨.inString, parse⟩) := by
  induction text with
  | nil => rfl
  | cons c rest ih =>
    rw [List.flatMap_cons, List.map_append]
    exact scan_then (scan_encodeChar c) ih

/-- A literal is read where a string may begin. -/
theorem scan_literal {state : ScanState} (text : String)
    (starts : (⟨state, parse⟩ : Scanner).step '"' = some (.beginLiteral, ⟨.inString, parse⟩)) :
    (⟨state, parse⟩ : Scanner).scan (marshalString text).toList =
      some (literalTokens text, ⟨.endValue, parse⟩) := by
  have closed : (⟨.inString, parse⟩ : Scanner).scan ['"'] =
      some ([(.continue, '"')], ⟨.endValue, parse⟩) := rfl
  rw [marshalString, String.toList_ofList]
  exact scan_then (scan_step starts (scan_encoded text.toList)) closed

/-- A member whose value is a string. -/
def quoted (member : String × String) : String × String := (member.1, marshalString member.2)

/-- The text of a member. -/
def memberText (member : String × String) : List Char :=
  (marshalString member.1).toList ++ ':' :: member.2.toList

/-- The tokens of a member whose value is a string. -/
def memberTokens (member : String × String) : List (Opcode × Char) :=
  literalTokens member.1 ++ (.objectKey, ':') :: literalTokens member.2

theorem step_colon : (⟨.endValue, .objectKey :: parse⟩ : Scanner).step ':' =
    some (.objectKey, ⟨.beginValue, .objectValue :: parse⟩) := rfl

theorem step_comma : (⟨.endValue, .objectValue :: parse⟩ : Scanner).step ',' =
    some (.objectValue, ⟨.beginString, .objectKey :: parse⟩) := rfl

theorem scan_member {state : ScanState} (member : String × String)
    (starts : (⟨state, .objectKey :: parse⟩ : Scanner).step '"' =
      some (.beginLiteral, ⟨.inString, .objectKey :: parse⟩)) :
    (⟨state, .objectKey :: parse⟩ : Scanner).scan (memberText (quoted member)) =
      some (memberTokens member, ⟨.endValue, .objectValue :: parse⟩) := by
  have value : (⟨.beginValue, .objectValue :: parse⟩ : Scanner).scan
      (marshalString member.2).toList =
        some (literalTokens member.2, ⟨.endValue, .objectValue :: parse⟩) :=
    scan_literal member.2 rfl
  exact scan_then (scan_literal member.1 starts) (scan_step step_colon value)

/-- The members after the first. -/
theorem scan_members (rest : List (String × String)) :
    (⟨.endValue, [.objectValue]⟩ : Scanner).scan
        ((rest.map quoted).flatMap (fun member => ',' :: memberText member) ++ ['}']) =
      some (rest.flatMap (fun member => (.objectValue, ',') :: memberTokens member) ++
        [(.endObject, '}')], ⟨.endTop, []⟩) := by
  induction rest with
  | nil => rfl
  | cons member rest ih =>
    have read : (⟨.beginString, [.objectKey]⟩ : Scanner).scan (memberText (quoted member)) =
        some (memberTokens member, ⟨.endValue, [.objectValue]⟩) := scan_member member rfl
    rw [List.map_cons, List.flatMap_cons, List.flatMap_cons, List.append_assoc,
      List.append_assoc]
    exact scan_then (scan_step step_comma read) ih

/-- The texts after the first, each after a comma. -/
theorem toList_intercalate_comma (first : String) (rest : List String) :
    (String.intercalate "," (first :: rest)).toList =
      first.toList ++ rest.flatMap fun text => ',' :: text.toList := by
  induction rest generalizing first with
  | nil => simp
  | cons next rest ih =>
    rw [String.intercalate_cons_cons, String.toList_append, ih next]
    simp

/-- The text of an object. -/
theorem toList_object (first : String × String) (rest : List (String × String)) :
    (object (first :: rest)).toList =
      '{' :: (memberText first ++
        (rest.flatMap (fun member => ',' :: memberText member) ++ ['}'])) := by
  have opened : "\x7b".toList = ['{'] := rfl
  have closed : "\x7d".toList = ['}'] := rfl
  rw [object, String.toList_append, String.toList_append, opened, closed, List.map_cons,
    toList_intercalate_comma]
  simp [memberText, List.flatMap_map]

/-- The tokens of an object of strings. -/
def objectTokens (first : String × String) (rest : List (String × String)) :
    List (Opcode × Char) :=
  (.beginObject, '{') :: (memberTokens first ++
    (rest.flatMap (fun member => (.objectValue, ',') :: memberTokens member) ++
      [(.endObject, '}')]))

theorem tokens_object (first : String × String) (rest : List (String × String)) :
    tokens (object ((first :: rest).map quoted)) = some (objectTokens first rest) := by
  have opened : ({} : Scanner).step '{' =
      some (.beginObject, ⟨.beginStringOrEmpty, [.objectKey]⟩) := rfl
  have read : (⟨.beginStringOrEmpty, [.objectKey]⟩ : Scanner).scan (memberText (quoted first)) =
      some (memberTokens first, ⟨.endValue, [.objectValue]⟩) := scan_member first rfl
  have scanned := scan_step opened (scan_then read (scan_members rest))
  rw [tokens, List.map_cons, toList_object, scanned]
  rfl

/-! ### What is written is JSON -/

/-- Where a value is expected inside another one, the text is read over, unless it nests too
deep. -/
def IsValue (depth : ℕ) (text : String) : Prop :=
  ∀ (parse : List ParseState) (state : ScanState), parse ≠ [] → parse.length + depth ≤ 10000 →
    state = .beginValue ∨ state = .beginValueOrEmpty →
    ∃ scanned, (⟨state, parse⟩ : Scanner).scan text.toList = some (scanned, ⟨.endValue, parse⟩)

theorem isValue_marshalString (depth : ℕ) (text : String) :
    IsValue depth (marshalString text) := by
  intro parse state _ _ expects
  rcases expects with rfl | rfl
  · exact ⟨_, scan_literal text rfl⟩
  · exact ⟨_, scan_literal text rfl⟩

/-- The members of an object after its first, with the brace. -/
theorem scan_rest {depth : ℕ} {rest : List (String × String)}
    (values : ∀ member ∈ rest, IsValue depth member.2) {parse : List ParseState}
    (inside : parse ≠ []) (bound : parse.length + (depth + 1) ≤ 10000) :
    ∃ scanned, (⟨.endValue, .objectValue :: parse⟩ : Scanner).scan
        (rest.flatMap (fun member => ',' :: memberText member) ++ ['}']) =
      some (scanned, ⟨.endValue, parse⟩) := by
  induction rest with
  | nil =>
    cases parse with
    | nil => exact absurd rfl inside
    | cons outer parse => exact ⟨_, rfl⟩
  | cons member rest ih =>
    obtain ⟨value, read⟩ := values member (by simp) (.objectValue :: parse) .beginValue (by simp)
      (by simp only [List.length_cons]; omega) (.inl rfl)
    obtain ⟨later, scanned⟩ := ih fun m here => values m (by simp [here])
    have key : (⟨.beginString, .objectKey :: parse⟩ : Scanner).scan
        (marshalString member.1).toList =
          some (literalTokens member.1, ⟨.endValue, .objectKey :: parse⟩) :=
      scan_literal member.1 rfl
    rw [List.flatMap_cons, List.append_assoc]
    exact ⟨_, scan_then (scan_step step_comma (scan_then key (scan_step step_colon read))) scanned⟩

theorem isValue_object {depth : ℕ} {first : String × String} {rest : List (String × String)}
    (values : ∀ member ∈ first :: rest, IsValue depth member.2) :
    IsValue (depth + 1) (object (first :: rest)) := by
  intro parse state inside bound expects
  obtain ⟨value, read⟩ := values first (by simp) (.objectValue :: parse) .beginValue (by simp)
    (by simp only [List.length_cons]; omega) (.inl rfl)
  have after : ∀ member ∈ rest, IsValue depth member.2 :=
    fun member here => values member (by simp [here])
  obtain ⟨later, scanned⟩ := scan_rest after inside bound
  have opened : (⟨state, parse⟩ : Scanner).step '{' =
      some (.beginObject, ⟨.beginStringOrEmpty, .objectKey :: parse⟩) := by
    have room : parse.length + 1 ≤ 10000 := by omega
    rcases expects with rfl | rfl
    · simp [Scanner.step, Scanner.stateBeginValue, Scanner.push, room, isSpace]
    · simp [Scanner.step, Scanner.stateBeginValue, Scanner.push, room, isSpace]
  have key : (⟨.beginStringOrEmpty, .objectKey :: parse⟩ : Scanner).scan
      (marshalString first.1).toList =
        some (literalTokens first.1, ⟨.endValue, .objectKey :: parse⟩) :=
    scan_literal first.1 rfl
  rw [toList_object]
  exact ⟨_, scan_step opened (scan_then (scan_then key (scan_step step_colon read)) scanned)⟩

/-- An array of values is JSON. -/
theorem valid_array {depth : ℕ} {first : String} {rest : List String}
    (values : ∀ text ∈ first :: rest, IsValue depth text) (bound : depth < 10000) :
    valid ("[" ++ String.intercalate "," (first :: rest) ++ "]") = true := by
  have later : ∀ rest : List String, (∀ text ∈ rest, IsValue depth text) →
      ∃ scanned, (⟨.endValue, [.arrayValue]⟩ : Scanner).scan
        (rest.flatMap (fun text => ',' :: text.toList) ++ [']']) =
          some (scanned, ⟨.endTop, []⟩) := by
    intro rest values
    induction rest with
    | nil => exact ⟨_, rfl⟩
    | cons text rest ih =>
      obtain ⟨value, read⟩ := values text (by simp) [.arrayValue] .beginValue (by simp)
        (by simp only [List.length_cons, List.length_nil]; omega) (.inl rfl)
      obtain ⟨more, scanned⟩ := ih fun t here => values t (by simp [here])
      have comma : (⟨.endValue, [.arrayValue]⟩ : Scanner).step ',' =
          some (.arrayValue, ⟨.beginValue, [.arrayValue]⟩) := rfl
      rw [List.flatMap_cons, List.append_assoc]
      exact ⟨_, scan_then (scan_step comma read) scanned⟩
  obtain ⟨more, scanned⟩ := later rest fun t here => values t (by simp [here])
  obtain ⟨value, read⟩ := values first (by simp) [.arrayValue] .beginValueOrEmpty (by simp)
    (by simp only [List.length_cons, List.length_nil]; omega) (.inr rfl)
  have opened : "[".toList = ['['] := rfl
  have closed : "]".toList = [']'] := rfl
  have text : ("[" ++ String.intercalate "," (first :: rest) ++ "]").toList =
      '[' :: (first.toList ++ (rest.flatMap (fun text => ',' :: text.toList) ++ [']'])) := by
    rw [String.toList_append, String.toList_append, toList_intercalate_comma, opened, closed]
    simp
  have start : ({} : Scanner).step '[' =
      some (.beginArray, ⟨.beginValueOrEmpty, [.arrayValue]⟩) := rfl
  have ends : (⟨.endTop, []⟩ : Scanner).eof = true := rfl
  rw [valid, tokens, text, scan_step start (scan_then read scanned)]
  simp [ends]

theorem valid_marshalString (text : String) : valid (marshalString text) = true := by
  have read : ({} : Scanner).scan (marshalString text).toList =
      some (literalTokens text, ⟨.endValue, []⟩) := scan_literal text rfl
  have ends : (⟨.endValue, []⟩ : Scanner).eof = true := rfl
  rw [valid, tokens, read]
  simp [ends]

/-! ### Members -/

namespace Members

theorem members_append (m : Members) (first later : List (Opcode × Char)) :
    m.members (first ++ later) = m.members first ++ (first.foldl next m).members later := by
  induction first generalizing m with
  | nil => rfl
  | cons token rest ih => simp [members, ih]

/-- The characters of a literal are put away, and end no member. -/
theorem members_put {chars : List (Opcode × Char)} (m : Members)
    (literal : ∀ token ∈ chars, token.1 = .beginLiteral ∨ token.1 = .continue) :
    m.members chars = [] ∧ chars.foldl next m = (chars.map Prod.snd).foldl put m := by
  induction chars generalizing m with
  | nil => exact ⟨rfl, rfl⟩
  | cons token rest ih =>
    obtain ⟨op, c⟩ := token
    have here : m.next (op, c) = m.put c := by
      rcases literal (op, c) (by simp) with rfl | rfl <;> rfl
    have open' : m.ended (op, c) = [] := by
      unfold ended
      rw [here, put]
      cases m.value <;> rfl
    obtain ⟨none', folded⟩ := ih (m.put c) fun token member => literal token (by simp [member])
    exact ⟨by simp [members, open', here, none'], by simp [here, folded]⟩

theorem foldl_put_key (m : Members) (absent : m.value = none) (chars : List Char) :
    chars.foldl put m = { m with key := m.key ++ chars } := by
  induction chars generalizing m with
  | nil => simp
  | cons c rest ih =>
    have here : m.put c = { m with key := m.key ++ [c] } := by simp [put, absent]
    have later := ih { m with key := m.key ++ [c] } absent
    rw [List.foldl_cons, here, later]
    simp

theorem foldl_put_value (m : Members) {text : List Char} (present : m.value = some text)
    (chars : List Char) : chars.foldl put m = { m with value := some (text ++ chars) } := by
  induction chars generalizing m text with
  | nil => simp [← present]
  | cons c rest ih =>
    have here : m.put c = { m with value := some (text ++ [c]) } := by simp [put, present]
    have later := ih { m with value := some (text ++ [c]) } rfl
    rw [List.foldl_cons, here, later]
    simp

end Members

theorem literalTokens_literal (text : String) :
    ∀ token ∈ literalTokens text, token.1 = .beginLiteral ∨ token.1 = .continue := by
  intro token member
  simp only [literalTokens, List.cons_append, List.mem_cons, List.mem_append, List.mem_map,
    List.not_mem_nil, or_false] at member
  rcases member with rfl | ⟨c, _, rfl⟩ | rfl
  · exact Or.inl rfl
  · exact Or.inr rfl
  · exact Or.inr rfl

/-- Between members, at the level of the object. -/
def Members.Between (m : Members) : Prop := m.depth = 1 ∧ m.key = [] ∧ m.value = none

/-- A member whose value is a string, read up to the token that ends it. -/
theorem members_member {m : Members} (between : m.Between) (member : String × String) :
    m.members (memberTokens member) = [] ∧
      (memberTokens member).foldl Members.next m =
        { m with
          key := (marshalString member.1).toList
          value := some (marshalString member.2).toList } := by
  obtain ⟨top, keyless, valueless⟩ := between
  obtain ⟨noKey, key⟩ := Members.members_put m (literalTokens_literal member.1)
  rw [map_literalTokens, Members.foldl_put_key m valueless, keyless, List.nil_append] at key
  set named : Members := { m with key := (marshalString member.1).toList }
  have colon : named.next (.objectKey, ':') = { named with value := some [] } := by
    simp [Members.next, named, top]
  have unended : named.ended (.objectKey, ':') = [] := by
    simp [Members.ended, named, valueless]
  obtain ⟨noValue, value⟩ := Members.members_put { named with value := some [] }
    (literalTokens_literal member.2)
  rw [map_literalTokens, Members.foldl_put_value _ rfl, List.nil_append] at value
  constructor
  · rw [memberTokens, Members.members_append, noKey, key, Members.members, unended, colon, noValue]
    rfl
  · rw [memberTokens, List.foldl_append, key, List.foldl_cons, colon, value]

/-- The token that ends a member gives it. -/
theorem ended_member {m : Members} {token : Opcode × Char} (top : m.depth = 1)
    (ends : token = (.objectValue, ',') ∨ token = (.endObject, '}')) (member : String × String)
    (key : m.key = (marshalString member.1).toList)
    (value : m.value = some (marshalString member.2).toList) :
    m.ended token = [(member.1, marshalString member.2)] := by
  have named : unquote m.key = member.1 := by rw [key, unquote_marshalString]
  rcases ends with rfl | rfl
  all_goals
    simp [Members.ended, Members.next, Members.finish, top, value, named]

/-- The members from one that is read up to the end of the object. -/
theorem members_members {m : Members} {member : String × String} {rest : List (String × String)}
    (top : m.depth = 1) (key : m.key = (marshalString member.1).toList)
    (value : m.value = some (marshalString member.2).toList) :
    m.members (rest.flatMap (fun member => (.objectValue, ',') :: memberTokens member) ++
      [(.endObject, '}')]) =
      (member :: rest).map quoted := by
  induction rest generalizing m member with
  | nil => simp [Members.members, ended_member top (.inr rfl) member key value, quoted]
  | cons next rest ih =>
    have between : (m.next (.objectValue, ',')).Between := by
      simp [Members.Between, Members.next, Members.finish, top, value]
    obtain ⟨unended, folded⟩ := members_member between next
    have later := @ih
      { m.next (.objectValue, ',') with
        key := (marshalString next.1).toList
        value := some (marshalString next.2).toList } next between.1 (by simp only)
      (by simp only)
    rw [List.flatMap_cons, List.append_assoc, List.cons_append, Members.members,
      ended_member top (.inl rfl) member key value, Members.members_append, unended, folded,
      later, List.map_cons, List.nil_append]
    rfl

theorem structMembers_of_tokens {text : String} {c : Char} {later : List (Opcode × Char)}
    (scanned : tokens text = some ((.beginObject, c) :: later)) :
    structMembers text = some (({} : Members).members ((.beginObject, c) :: later)) := by
  rw [structMembers, scanned]
  rfl

/-- The members of an object of strings. -/
theorem structMembers_object (first : String × String) (rest : List (String × String)) :
    structMembers (object ((first :: rest).map quoted)) =
      some ((first :: rest).map quoted) := by
  have between : (({} : Members).next (.beginObject, '{')).Between := ⟨rfl, rfl, rfl⟩
  obtain ⟨unended, folded⟩ := members_member between first
  have later := @members_members
    { ({} : Members).next (.beginObject, '{') with
      key := (marshalString first.1).toList
      value := some (marshalString first.2).toList } first rest between.1 (by simp only)
    (by simp only)
  rw [structMembers_of_tokens (tokens_object first rest), Members.members, Members.members_append,
    unended, folded, later]
  rfl

/-- What is written for a string reads back. -/
theorem unmarshalString_marshalString (text : String) :
    unmarshalString (marshalString text) = some text := by
  have read : ({} : Scanner).scan (marshalString text).toList =
      some (literalTokens text, ⟨.endValue, []⟩) := scan_literal text rfl
  have ends : (⟨.endValue, []⟩ : Scanner).eof = true := rfl
  have whole := unquote_marshalString text
  rw [← map_literalTokens] at whole
  rw [unmarshalString, tokens, read]
  simp only [ends, if_true]
  simp only [literalTokens, List.cons_append, List.map_cons] at whole ⊢
  simpa using whole

/-! ### Fields -/

/-- A string field of an object of strings. -/
theorem stringField_strings (members : List (String × String)) (name : String) :
    stringField (members.map quoted) name =
      some (members.foldl (fun value member =>
        if equalFold member.1 name then member.2 else value) "") := by
  have present (text : String) : marshalString text ≠ "null" := by
    intro same
    have chars := congrArg String.toList same
    simp [marshalString] at chars
  have go : ∀ value : String,
      (members.map quoted).foldlM (fun value (key, raw) =>
        if equalFold key name ∧ raw ≠ "null" then unmarshalString raw else some value) value =
        some (members.foldl (fun value member =>
          if equalFold member.1 name then member.2 else value) value) := by
    induction members with
    | nil => exact fun _ => rfl
    | cons member rest ih =>
      intro value
      have here : (if equalFold member.1 name ∧ marshalString member.2 ≠ "null" then
          unmarshalString (marshalString member.2) else some value) =
            some (if equalFold member.1 name then member.2 else value) := by
        rw [unmarshalString_marshalString]
        by_cases named : equalFold member.1 name = true
        · rw [if_pos ⟨named, present _⟩, if_pos named]
        · rw [if_neg fun both => named both.1, if_neg named]
      simp only [List.map_cons, quoted, List.foldlM_cons, List.foldl_cons, here]
      exact ih _
  exact go ""

section Absent

variable {members : List (String × String)} {name : String}
  (absent : ∀ member ∈ members, equalFold member.1 name = false)

include absent

theorem rawField_absent : rawField members name = "" := by
  unfold rawField
  generalize "" = value
  induction members with
  | nil => rfl
  | cons member rest ih =>
    have here := absent member (by simp)
    simp only [List.foldl_cons, here, Bool.false_eq_true, if_false]
    exact ih fun m inside => absent m (by simp [inside])

theorem boolField_absent : boolField members name = some false := by
  unfold boolField
  generalize false = value
  induction members with
  | nil => rfl
  | cons member rest ih =>
    have here := absent member (by simp)
    simp only [List.foldlM_cons, here, Bool.false_eq_true, false_and, if_false]
    exact ih fun m inside => absent m (by simp [inside])

theorem pointerField_absent {α : Type} {read : List (String × String) → Option α} :
    pointerField read members name = some none := by
  unfold pointerField
  generalize (none : Option α) = value
  induction members with
  | nil => rfl
  | cons member rest ih =>
    have here := absent member (by simp)
    simp only [List.foldlM_cons, here, Bool.false_eq_true, if_false]
    exact ih fun m inside => absent m (by simp [inside])

end Absent

end Sub2api.Go.Json
