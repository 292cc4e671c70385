import Mathlib.Data.List.TakeWhile
import Sub2api.Go.JsonNumbers
import Sub2api.Go.Strings

/-!
# Stored responses

`marshalStoredResponse` with the redaction of `logredact` and `decodeStoredResponse` with
`json.Unmarshal`. A response that is cut to the limit ends in a parenthesis, which no JSON text
does.
-/

namespace Sub2api.Idempotency

open Sub2api.Go Sub2api.Go.Json

/-! ### The source -/

section Coordinator

/-- What the coordinator is given: its settings, `json.Marshal` with the redaction of secrets, and
`json.Unmarshal`. -/
structure Settings (Data : Type) where
  maxStoredResponseLen : ℕ
  redacted : Data → Option String
  unmarshal : String → Option Data
  emptyObject : Data

/-- The longest part of whole runes that fits. -/
def fitting : ℕ → List Char → List Char
  | _, [] => []
  | maxBytes, c :: rest =>
      if c.utf8Size ≤ maxBytes then c :: fitting (maxBytes - c.utf8Size) rest else []

def truncateUTF8 (s : String) (maxBytes : ℕ) : String :=
  if maxBytes = 0 ∨ s.utf8ByteSize ≤ maxBytes then s
  else String.ofList (fitting maxBytes s.toList)

variable {Data : Type}

def marshalStoredResponse (cfg : Settings Data) (data : Data) : Option String :=
  (cfg.redacted data).map fun redacted =>
    if 0 < cfg.maxStoredResponseLen ∧ cfg.maxStoredResponseLen < redacted.utf8ByteSize then
      truncateUTF8 redacted cfg.maxStoredResponseLen ++ "...(truncated)"
    else redacted

def decodeStoredResponse (cfg : Settings Data) (stored : Option String) : Option Data :=
  match stored with
  | none => some cfg.emptyObject
  | some stored => if trimSpace stored = "" then some cfg.emptyObject else cfg.unmarshal stored

end Coordinator

def maxRedactDepth : ℕ := 32

def defaultSensitiveKeys : List String :=
  ["authorization_code", "code", "code_verifier", "access_token", "refresh_token", "id_token",
    "client_secret", "password"]

/-- `strings.ToLower`, the numbers of `float64`, and what `RedactText` does to a text that is no
JSON. -/
structure Redaction where
  toLower : String → String
  floats : Floats
  redactPlain : List String → String → String

/-- The sensitive keys, and how a key is normalized. -/
structure KeySet where
  toLower : String → String
  keys : List String

def normalizeKey (toLower : String → String) (key : String) : String := toLower (trimSpace key)

def buildKeySet (toLower : String → String) (extraKeys : List String) : KeySet where
  toLower := toLower
  keys := defaultSensitiveKeys ++ (extraKeys.map (normalizeKey toLower)).filter (· ≠ "")

def isSensitiveKey (keys : KeySet) (key : String) : Bool :=
  normalizeKey keys.toLower key ∈ keys.keys

mutual

def redactValueWithDepth (keys : KeySet) (depth : ℕ) (value : JsonValue) : JsonValue :=
  match value with
  | .object members =>
    if maxRedactDepth < depth then .string "<depth limit exceeded>"
    else .object (redactMembers keys depth members)
  | .array items =>
    if maxRedactDepth < depth then .string "<depth limit exceeded>"
    else .array (redactItems keys depth items)
  | .null => if maxRedactDepth < depth then .string "<depth limit exceeded>" else .null
  | .bool b => if maxRedactDepth < depth then .string "<depth limit exceeded>" else .bool b
  | .number l => if maxRedactDepth < depth then .string "<depth limit exceeded>" else .number l
  | .string s => if maxRedactDepth < depth then .string "<depth limit exceeded>" else .string s

def redactItems (keys : KeySet) (depth : ℕ) : List JsonValue → List JsonValue
  | [] => []
  | item :: rest =>
    redactValueWithDepth keys (depth + 1) item :: redactItems keys depth rest

def redactMembers (keys : KeySet) (depth : ℕ) :
    List (String × JsonValue) → List (String × JsonValue)
  | [] => []
  | (key, value) :: rest =>
    (key, if isSensitiveKey keys key then .string "***"
      else redactValueWithDepth keys (depth + 1) value) :: redactMembers keys depth rest

end

namespace Redaction

variable (r : Redaction)

/-- What is kept of a response. -/
def redact (v : JsonValue) (extraKeys : List String := []) : JsonValue :=
  redactValueWithDepth (buildKeySet r.toLower extraKeys) 0 v

def redactJSON (raw : String) (extraKeys : List String := []) : String :=
  if raw = "" then ""
  else
    match r.floats.unmarshalAny raw with
    | none => "<non-json payload redacted>"
    | some value => encode (r.redact value extraKeys)

def redactText (input : String) (extraKeys : List String := []) : String :=
  let input := trimSpace input
  if input = "" then ""
  else if valid input then r.redactJSON input extraKeys
  else r.redactPlain extraKeys input

/-- The settings of a coordinator that stores JSON. -/
def settings (maxStoredResponseLen : ℕ) : Settings JsonValue where
  maxStoredResponseLen := maxStoredResponseLen
  redacted data := some (r.redactText (encode data))
  unmarshal := r.floats.unmarshalAny
  emptyObject := .object []

end Redaction

/-! ### What is redacted -/

section Redact

variable (keys : KeySet)

mutual

/-- Redaction does not look at numbers. -/
theorem mapNumbers_redact (f : String → String) (depth : ℕ) : ∀ v : JsonValue,
    mapNumbers f (redactValueWithDepth keys depth v) =
      redactValueWithDepth keys depth (mapNumbers f v)
  | .null | .bool _ | .string _ | .number _ => by
      unfold redactValueWithDepth
      split
      · rfl
      · rfl
  | .array items => by
      simp only [redactValueWithDepth, mapNumbers]
      split
      · rfl
      · rw [mapNumbers, mapItems_redact f depth items]
  | .object members => by
      simp only [redactValueWithDepth, mapNumbers]
      split
      · rfl
      · rw [mapNumbers, mapMembers_redact f depth members]

theorem mapItems_redact (f : String → String) (depth : ℕ) : ∀ items : List JsonValue,
    mapItems f (redactItems keys depth items) = redactItems keys depth (mapItems f items)
  | [] => rfl
  | item :: rest => by
      rw [redactItems, mapItems, mapItems, redactItems, mapNumbers_redact f (depth + 1) item,
        mapItems_redact f depth rest]

theorem mapMembers_redact (f : String → String) (depth : ℕ) :
    ∀ members : List (String × JsonValue),
    mapMembers f (redactMembers keys depth members) =
      redactMembers keys depth (mapMembers f members)
  | [] => rfl
  | (key, value) :: rest => by
      rw [redactMembers, mapMembers, mapMembers, redactMembers, mapMembers_redact f depth rest]
      split
      · rfl
      · rw [mapNumbers_redact f (depth + 1) value]

end

mutual

theorem numbers_redact (depth : ℕ) : ∀ v : JsonValue,
    ∀ literal ∈ numbers (redactValueWithDepth keys depth v), literal ∈ numbers v
  | .null, literal, mem | .bool _, literal, mem | .string _, literal, mem
  | .number _, literal, mem => by
      unfold redactValueWithDepth at mem
      split at mem
      · cases mem
      · exact mem
  | .array items, literal, mem => by
      rw [redactValueWithDepth] at mem
      split at mem
      · cases mem
      · exact numbers_redactItems depth items literal mem
  | .object members, literal, mem => by
      rw [redactValueWithDepth] at mem
      split at mem
      · cases mem
      · exact numbers_redactMembers depth members literal mem

theorem numbers_redactItems (depth : ℕ) : ∀ items : List JsonValue,
    ∀ literal ∈ numbersOfItems (redactItems keys depth items), literal ∈ numbersOfItems items
  | [], _, mem => mem
  | item :: rest, literal, mem => by
      rw [redactItems, numbersOfItems] at mem
      rcases List.mem_append.mp mem with here | later
      · exact List.mem_append_left _ (numbers_redact (depth + 1) item literal here)
      · exact List.mem_append_right _ (numbers_redactItems depth rest literal later)

theorem numbers_redactMembers (depth : ℕ) : ∀ members : List (String × JsonValue),
    ∀ literal ∈ numbersOfMembers (redactMembers keys depth members),
      literal ∈ numbersOfMembers members
  | [], _, mem => mem
  | (key, value) :: rest, literal, mem => by
      rw [redactMembers, numbersOfMembers] at mem
      rcases List.mem_append.mp mem with here | later
      · apply List.mem_append_left
        split at here
        · cases here
        · exact numbers_redact (depth + 1) value literal here
      · exact List.mem_append_right _ (numbers_redactMembers depth rest literal later)

end

theorem redactItems_eq (depth : ℕ) (items : List JsonValue) :
    redactItems keys depth items = items.map (redactValueWithDepth keys (depth + 1)) := by
  induction items with
  | nil => rfl
  | cons item rest ih => rw [redactItems, ih, List.map_cons]

theorem redactMembers_eq (depth : ℕ) (members : List (String × JsonValue)) :
    redactMembers keys depth members = members.map fun member =>
      (member.1, if isSensitiveKey keys member.1 then .string "***"
        else redactValueWithDepth keys (depth + 1) member.2) := by
  induction members with
  | nil => rfl
  | cons member rest ih => rw [redactMembers, ih, List.map_cons]

theorem fits_redact {nesting depth : ℕ} {v : JsonValue} (fits : Fits nesting v) :
    Fits nesting (redactValueWithDepth keys depth v) := by
  induction fits generalizing depth with
  | null | bool | string =>
      unfold redactValueWithDepth
      split
      · exact Fits.string _ _
      · constructor
  | number nesting number =>
      unfold redactValueWithDepth
      split
      · exact Fits.string _ _
      · exact Fits.number nesting number
  | array each ih =>
      rw [redactValueWithDepth]
      split
      · exact Fits.string _ _
      · rw [redactItems_eq]
        apply Fits.array
        intro item mem
        obtain ⟨old, listed, rfl⟩ := List.mem_map.mp mem
        exact ih old listed
  | object ordered each ih =>
      rw [redactValueWithDepth]
      split
      · exact Fits.string _ _
      · rw [redactMembers_eq]
        apply Fits.object
        · exact List.pairwise_map.mpr ordered
        · intro member mem
          obtain ⟨old, listed, rfl⟩ := List.mem_map.mp mem
          dsimp only
          split
          · exact Fits.string _ _
          · exact ih old listed

/-- A value nested at most `room` deep whose sensitive keys all hold the mark. -/
inductive Concealed : ℕ → JsonValue → Prop
  | null (room : ℕ) : Concealed room .null
  | bool (room : ℕ) (b : Bool) : Concealed room (.bool b)
  | number (room : ℕ) (literal : String) : Concealed room (.number literal)
  | string (room : ℕ) (text : String) : Concealed room (.string text)
  | array {room : ℕ} {items : List JsonValue} :
      (∀ item ∈ items, Concealed room item) → Concealed (room + 1) (.array items)
  | object {room : ℕ} {members : List (String × JsonValue)} :
      (∀ member ∈ members, isSensitiveKey keys member.1 = true → member.2 = .string "***") →
      (∀ member ∈ members, Concealed room member.2) → Concealed (room + 1) (.object members)

theorem redact_deep {depth : ℕ} (deep : maxRedactDepth < depth) (v : JsonValue) :
    redactValueWithDepth keys depth v = .string "<depth limit exceeded>" := by
  cases v <;> simp [redactValueWithDepth, deep]

mutual

theorem redact_conceals (depth : ℕ) : ∀ v : JsonValue,
    Concealed keys (maxRedactDepth + 1 - depth) (redactValueWithDepth keys depth v) ∧
      redactValueWithDepth keys depth (redactValueWithDepth keys depth v) =
        redactValueWithDepth keys depth v := by
  intro v
  by_cases deep : maxRedactDepth < depth
  · rw [redact_deep keys deep, redact_deep keys deep]
    exact ⟨.string _ _, rfl⟩
  have room : maxRedactDepth + 1 - depth = maxRedactDepth + 1 - (depth + 1) + 1 := by omega
  match v with
  | .null => simp [redactValueWithDepth, deep, Concealed.null]
  | .bool b => simp [redactValueWithDepth, deep, Concealed.bool]
  | .number literal => simp [redactValueWithDepth, deep, Concealed.number]
  | .string text => simp [redactValueWithDepth, deep, Concealed.string]
  | .array items =>
      obtain ⟨each, again⟩ := redactItems_conceals depth items
      simp only [redactValueWithDepth, deep, if_false, again, and_true]
      rw [room]
      exact .array each
  | .object members =>
      obtain ⟨marked, each, again⟩ := redactMembers_conceals depth members
      simp only [redactValueWithDepth, deep, if_false, again, and_true]
      rw [room]
      exact .object marked each

theorem redactItems_conceals (depth : ℕ) : ∀ items : List JsonValue,
    (∀ item ∈ redactItems keys depth items,
      Concealed keys (maxRedactDepth + 1 - (depth + 1)) item) ∧
    redactItems keys depth (redactItems keys depth items) = redactItems keys depth items
  | [] => ⟨by simp [redactItems], rfl⟩
  | item :: rest => by
      obtain ⟨first, same⟩ := redact_conceals (depth + 1) item
      obtain ⟨later, again⟩ := redactItems_conceals depth rest
      simp only [redactItems, same, again, and_true]
      exact List.forall_mem_cons.mpr ⟨first, later⟩

theorem redactMembers_conceals (depth : ℕ) : ∀ members : List (String × JsonValue),
    (∀ member ∈ redactMembers keys depth members,
      isSensitiveKey keys member.1 = true → member.2 = .string "***") ∧
    (∀ member ∈ redactMembers keys depth members,
      Concealed keys (maxRedactDepth + 1 - (depth + 1)) member.2) ∧
    redactMembers keys depth (redactMembers keys depth members) =
      redactMembers keys depth members
  | [] => ⟨by simp [redactMembers], by simp [redactMembers], rfl⟩
  | (key, value) :: rest => by
      obtain ⟨first, same⟩ := redact_conceals (depth + 1) value
      obtain ⟨marked, later, again⟩ := redactMembers_conceals depth rest
      simp only [redactMembers, again]
      by_cases sensitive : isSensitiveKey keys key = true
      · simp only [sensitive, if_true, and_true]
        exact ⟨List.forall_mem_cons.mpr ⟨fun _ => rfl, marked⟩,
          List.forall_mem_cons.mpr ⟨.string _ _, later⟩⟩
      · simp only [sensitive, Bool.false_eq_true, if_false, same, and_true]
        exact ⟨List.forall_mem_cons.mpr ⟨fun marks => absurd marks sensitive, marked⟩,
          List.forall_mem_cons.mpr ⟨first, later⟩⟩

end

/-- What is written for a JSON text hides the value of every sensitive key at every depth, is cut
below the deepest level, and is redacted to itself. -/
theorem redactJSON_conceals (r : Redaction) (raw : String) (extraKeys : List String) :
    r.redactJSON raw extraKeys ∈ ["", "<non-json payload redacted>"] ∨
      ∃ value, Concealed (buildKeySet r.toLower extraKeys) (maxRedactDepth + 1) value ∧
        r.redact value extraKeys = value ∧ r.redactJSON raw extraKeys = encode value := by
  unfold Redaction.redactJSON
  split
  · simp
  · cases r.floats.unmarshalAny raw with
    | none => simp
    | some value =>
        obtain ⟨hidden, again⟩ := redact_conceals (buildKeySet r.toLower extraKeys) 0 value
        exact Or.inr ⟨r.redact value extraKeys, hidden, again, rfl⟩

end Redact

/-! ### Nothing to trim -/

/-- A text that neither starts nor ends with white space. -/
structure Solid (chars : List Char) : Prop where
  starts : ∃ c rest, chars = c :: rest ∧ Go.isSpace c = false
  ends : ∃ before c, chars = before ++ [c] ∧ Go.isSpace c = false

theorem Solid.trimSpace {chars : List Char} (solid : Solid chars) :
    trimSpace (String.ofList chars) = String.ofList chars := by
  obtain ⟨⟨first, rest, starts, first_⟩, before, last, ends, last_⟩ := solid
  have front : chars.dropWhile Go.isSpace = chars := by
    rw [starts, List.dropWhile_cons_of_neg (by simp [first_])]
  have back : chars.reverse.dropWhile Go.isSpace = chars.reverse := by
    rw [ends, List.reverse_append, List.reverse_singleton, List.singleton_append,
      List.dropWhile_cons_of_neg (by simp [last_])]
  rw [Go.trimSpace, String.toList_ofList, front, back, List.reverse_reverse]

theorem not_space_of_digit {c : Char} (digit : isDigit c = true) : Go.isSpace c = false := by
  have bounds : 48 ≤ c.toNat ∧ c.toNat ≤ 57 := by
    simp only [isDigit, Bool.and_eq_true, decide_eq_true_eq] at digit
    exact ⟨digit.1, digit.2⟩
  unfold Go.isSpace
  simp only [Bool.or_eq_false_iff, Bool.and_eq_false_iff, decide_eq_false_iff_not, beq_eq_false_iff_ne]
  omega

theorem digit_of_numberStep {state state' : ScanState} {c : Char}
    (ends : state' ∈ [ScanState.int, .zero, .fraction, .exponentDigits])
    (next : numberStep state c = some state') : isDigit c = true := by
  have zero : isDigit '0' = true := by decide
  simp only [List.mem_cons, List.not_mem_nil, or_false] at ends
  cases state
  all_goals simp only [numberStep] at next
  all_goals grind

theorem solid_number {literal : String} (isNumber : IsNumber literal.toList) :
    Solid literal.toList := by
  obtain ⟨state, listed, number⟩ := isNumber
  generalize literal.toList = chars at number
  constructor
  · cases chars with
    | nil =>
        cases number
        exact absurd listed (by decide)
    | cons c rest =>
        refine ⟨c, rest, rfl, ?_⟩
        rw [List.foldlM_cons] at number
        cases next : numberStep .beginValue c with
        | none =>
            rw [next] at number
            cases number
        | some middle =>
            simp only [numberStep] at next
            split at next
            · rename_i minus
              rw [minus]
              decide
            split at next
            · rename_i zero
              rw [zero]
              decide
            split at next
            · rename_i digit
              exact not_space_of_digit digit
            · cases next
  · rcases List.eq_nil_or_concat chars with rfl | ⟨before, c, rfl⟩
    · cases number
      exact absurd listed (by decide)
    · refine ⟨before, c, List.concat_eq_append, ?_⟩
      rw [List.concat_eq_append, List.foldlM_append] at number
      cases earlier : before.foldlM numberStep .beginValue with
      | none =>
          rw [earlier] at number
          cases number
      | some middle =>
          rw [earlier] at number
          have last : numberStep middle c = some state := by
            change ([c].foldlM numberStep middle) = some state at number
            rw [List.foldlM_cons] at number
            cases step : numberStep middle c with
            | none =>
                rw [step] at number
                cases number
            | some after =>
                rw [step] at number
                exact number
          exact not_space_of_digit (digit_of_numberStep listed last)

theorem items_end (html : Bool) (items : List JsonValue) :
    ∃ before, encodeItems html items = before ++ [']'] := by
  induction items with
  | nil => exact ⟨[], rfl⟩
  | cons item rest ih =>
      obtain ⟨before, later⟩ := ih
      refine ⟨',' :: encodeValue html item ++ before, ?_⟩
      rw [encodeItems, later]
      simp

theorem members_end (html : Bool) (members : List (String × JsonValue)) :
    ∃ before, encodeMembers html members = before ++ ['}'] := by
  induction members with
  | nil => exact ⟨[], rfl⟩
  | cons member rest ih =>
      obtain ⟨key, value⟩ := member
      obtain ⟨before, later⟩ := ih
      refine ⟨',' :: writeString html key ++ ':' :: encodeValue html value ++ before, ?_⟩
      rw [encodeMembers, later]
      simp

theorem solid_encodeValue {depth : ℕ} {v : JsonValue} (html : Bool) (fits : Fits depth v) :
    Solid (encodeValue html v) := by
  cases fits with
  | null => exact ⟨⟨'n', _, rfl, by decide⟩, ['n', 'u', 'l'], 'l', rfl, by decide⟩
  | bool depth b =>
      cases b with
      | true => exact ⟨⟨'t', _, rfl, by decide⟩, ['t', 'r', 'u'], 'e', rfl, by decide⟩
      | false => exact ⟨⟨'f', _, rfl, by decide⟩, ['f', 'a', 'l', 's'], 'e', rfl, by decide⟩
  | number depth number => exact solid_number number
  | string depth text => exact ⟨⟨'"', _, rfl, by decide⟩, _, '"', rfl, by decide⟩
  | array each =>
      rename_i items
      cases items with
      | nil => exact ⟨⟨'[', _, rfl, by decide⟩, ['['], ']', rfl, by decide⟩
      | cons first rest =>
          obtain ⟨before, later⟩ := items_end html rest
          refine ⟨⟨'[', _, rfl, by decide⟩, '[' :: encodeValue html first ++ before, ']', ?_,
            by decide⟩
          rw [encodeValue, later]
          simp
  | object ordered each =>
      rename_i members
      cases members with
      | nil => exact ⟨⟨'{', _, rfl, by decide⟩, ['{'], '}', rfl, by decide⟩
      | cons first rest =>
          obtain ⟨key, value⟩ := first
          obtain ⟨before, later⟩ := members_end html rest
          refine ⟨⟨'{', _, rfl, by decide⟩,
            '{' :: writeString html key ++ ':' :: encodeValue html value ++ before, '}', ?_,
            by decide⟩
          rw [encodeValue, later]
          simp

theorem Solid.ne_empty {chars : List Char} (solid : Solid chars) : String.ofList chars ≠ "" := by
  obtain ⟨⟨first, rest, starts, -⟩, -⟩ := solid
  intro empty
  have chars_ := congrArg String.toList empty
  rw [String.toList_ofList, starts] at chars_
  cases chars_

/-! ### A text that is cut -/

/-- The scanner is in no word but those of JSON. -/
def InWords (s : Scanner) : Prop :=
  ∀ rest, s.state = .word rest → ∃ before, ∃ word ∈ words, word = before ++ rest

theorem InWords.step {s s' : Scanner} {c : Char} {op : Opcode} (inWords : InWords s)
    (opened : s.state = .beginStringOrEmpty → s.parseState ≠ [])
    (stepped : s.step c = some (op, s')) : InWords s' := by
  have idle : ∀ {t : Scanner}, t.state.Idle = true → InWords t := by
    intro t idle rest state
    rw [state] at idle
    cases idle
  cases step_stepped opened stepped with
  | opens _ _ _ idle_ => exact idle idle_
  | closes _ _ _ idle_ _ => exact idle idle_
  | separates _ _ _ idle_ _ => exact idle idle_
  | begins level first past word => exact fun rest state => ⟨[], rest, word rest state, rfl⟩
  | continues level busy within past word =>
      intro rest state
      obtain ⟨next, here⟩ := word rest state
      obtain ⟨before, w, listed, split_⟩ := inWords _ here
      exact ⟨before ++ [next], w, listed, by simp [split_]⟩
  | skips kind level state =>
      rcases state with ⟨same, -⟩ | ⟨-, value | top⟩
      · intro rest state
        exact inWords rest (same ▸ state)
      · exact idle (by rw [value]; rfl)
      · exact idle (by rw [top]; rfl)

/-- Only within a string the scanner passes a closing parenthesis. -/
theorem step_parenthesis {s s' : Scanner} {op : Opcode} (inWords : InWords s)
    (stepped : s.step ')' = some (op, s')) : s'.state = .inString := by
  have value : ∀ t : Scanner, t.stateEndValue ')' = none := by
    intro t
    unfold Scanner.stateEndValue Scanner.stateEndTop
    split
    · rfl
    · rename_i parse outer inside
      cases parse
      all_goals rfl
  obtain ⟨state, parse⟩ := s
  cases state
  case inString =>
    cases stepped
    rfl
  case endValue =>
    exact absurd (stepped.symm.trans (value ⟨.endValue, parse⟩)) (by simp)
  case int =>
    exact absurd (stepped.symm.trans (value ⟨.int, parse⟩)) (by simp)
  case zero =>
    exact absurd (stepped.symm.trans (value ⟨.zero, parse⟩)) (by simp)
  case fraction =>
    exact absurd (stepped.symm.trans (value ⟨.fraction, parse⟩)) (by simp)
  case exponentDigits =>
    exact absurd (stepped.symm.trans (value ⟨.exponentDigits, parse⟩)) (by simp)
  case word rest =>
    cases rest with
    | nil => exact absurd (stepped.symm.trans (value ⟨.word [], parse⟩)) (by simp)
    | cons next rest =>
        obtain ⟨before, w, listed, split_⟩ := inWords _ rfl
        have letters : ')' ∉ w := by
          simp only [words, List.mem_cons, List.not_mem_nil, or_false] at listed
          rcases listed with rfl | rfl | rfl
          all_goals decide
        have other : ')' ≠ next := by
          rintro rfl
          exact letters (by simp [split_])
        cases rest with
        | nil => simp [Scanner.step, other] at stepped
        | cons after rest => simp [Scanner.step, other] at stepped
  all_goals cases (stepped : none = some (op, s'))

theorem scan_words {text : List Char} {s s' : Scanner} {scanned : List (Opcode × Char)}
    {r : Reader} (beside : Beside s r) (inWords : InWords s)
    (scan : s.scan text = some (scanned, s')) : InWords s' := by
  induction text generalizing s r scanned with
  | nil =>
      cases scan
      exact inWords
  | cons c rest ih =>
      rw [Scanner.scan] at scan
      cases stepped : s.step c with
      | none =>
          rw [stepped] at scan
          cases scan
      | some next =>
          obtain ⟨op, s₁⟩ := next
          cases later : s₁.scan rest with
          | none => simp [stepped, later] at scan
          | some more =>
              obtain ⟨more, s₂⟩ := more
              simp only [stepped, later, Option.bind_eq_bind, Option.bind_some, Option.pure_def,
                Option.some.injEq, Prod.mk.injEq] at scan
              obtain ⟨rfl, rfl⟩ := scan
              have run : InWords s₂ :=
                ih (beside.step stepped) (inWords.step beside.opened stepped) later
              exact run

/-- No JSON text ends in a closing parenthesis. -/
theorem decode_parenthesis (before : List Char) :
    decode (String.ofList (before ++ [')'])) = none := by
  have start : Beside {} {} :=
    beside_frames rfl (by decide) trivial rfl (by intro h; cases h)
  have inWords : InWords {} := fun rest state => by cases state
  unfold decode tokens
  rw [String.toList_ofList, Scanner.scan_append]
  cases scan : ({} : Scanner).scan before with
  | none => rfl
  | some first =>
      obtain ⟨scanned, s⟩ := first
      have within := scan_words start inWords scan
      cases stepped : s.step ')' with
      | none => simp [Scanner.scan, stepped]
      | some next =>
          obtain ⟨op, s'⟩ := next
          have state := step_parenthesis within stepped
          have ends : s'.eof = false := by
            obtain ⟨state', parse⟩ := s'
            cases state
            rfl
          simp [Scanner.scan, stepped, ends]

/-! ### What is replayed -/

/-- Decoding what was stored for a response succeeds and gives what was kept of it. -/
def Replays (r : Redaction) (cfg : Settings JsonValue) (data : JsonValue) : Prop :=
  ∃ stored, marshalStoredResponse cfg data = some stored ∧
    ∃ out, decodeStoredResponse cfg (some stored) = some out ∧ Same (r.redact data) out

section Replay

variable {r : Redaction} {limit : ℕ} {data : JsonValue}

theorem redact_pass : r.redact (r.floats.pass data) = r.floats.pass (r.redact data) :=
  (mapNumbers_redact _ _ 0 data).symm

theorem redactText_encode (fits : Fits 10000 data) :
    r.redactText (encode data) =
      if r.floats.InRange data then encode (r.redact (r.floats.pass data))
      else "<non-json payload redacted>" := by
  have solid := solid_encodeValue true fits
  have trimmed : trimSpace (encode data) = encode data := solid.trimSpace
  have some_ : encode data ≠ "" := solid.ne_empty
  have valid_ : valid (encode data) = true := by
    rw [valid_eq_isSome, decode_encode fits]
    rfl
  simp only [Redaction.redactText, trimmed, if_neg some_, valid_, if_true, Redaction.redactJSON,
    Floats.unmarshalAny, decode_encode fits]
  by_cases inRange : r.floats.InRange data
  · simp [inRange]
  · simp [inRange]

/-- A stored text that ends in a parenthesis is not decoded. -/
theorem decodeStored_parenthesis (before : List Char) :
    decodeStoredResponse (r.settings limit)
      (some (String.ofList (before ++ [')']))) = none := by
  have some_ : trimSpace (String.ofList (before ++ [')'])) ≠ "" := by
    intro empty
    have chars := congrArg String.toList empty
    rw [trimSpace, String.toList_ofList, String.toList_ofList, String.toList_empty,
      List.reverse_eq_nil_iff, List.dropWhile_eq_nil_iff] at chars
    have blank := chars ')' (by
      rw [List.mem_reverse, List.dropWhile_append]
      split
      · decide
      · simp)
    exact absurd blank (by decide)
  rw [decodeStoredResponse, if_neg some_]
  change r.floats.unmarshalAny _ = none
  rw [Floats.unmarshalAny, decode_parenthesis]

theorem cut_ends (text : String) :
    ∃ before, text ++ "...(truncated)" = String.ofList (before ++ [')']) := by
  refine ⟨text.toList ++ "...(truncated".toList, ?_⟩
  apply String.toList_inj.mp
  simp

theorem not_replays_of_cut {text : String}
    (redacted : r.redactText (encode data) = text) (cut : 0 < limit ∧ limit < text.utf8ByteSize) :
    ¬Replays r (r.settings limit) data := by
  rintro ⟨stored, marshalled, out, decoded, -⟩
  have stored_ : stored = truncateUTF8 text limit ++ "...(truncated)" := by
    have written : marshalStoredResponse (r.settings limit) data =
        some (truncateUTF8 text limit ++ "...(truncated)") := by
      change (some (r.redactText (encode data))).map _ = _
      rw [redacted, Option.map_some]
      exact congrArg some (if_pos cut)
    rw [written] at marshalled
    exact (Option.some.inj marshalled).symm
  obtain ⟨before, ends⟩ := cut_ends (truncateUTF8 text limit)
  rw [stored_, ends, decodeStored_parenthesis] at decoded
  cases decoded

theorem marshal_whole {text : String} (redacted : r.redactText (encode data) = text)
    (whole : limit = 0 ∨ text.utf8ByteSize ≤ limit) :
    marshalStoredResponse (r.settings limit) data = some text := by
  change (some (r.redactText (encode data))).map _ = _
  rw [redacted, Option.map_some]
  exact congrArg some (if_neg (by
    change ¬(0 < limit ∧ limit < text.utf8ByteSize)
    omega))

/-- Without a number out of range, what was kept is read back, its numbers as floats. -/
theorem replays_whole (fits : Fits 10000 data) (inRange : r.floats.InRange data)
    (whole : limit = 0 ∨
      (encode (r.redact (r.floats.pass data))).utf8ByteSize ≤ limit) :
    Replays r (r.settings limit) data ↔
      r.floats.Exact (r.redact data) := by
  have redacted := redactText_encode (r := r) fits
  rw [if_pos inRange] at redacted
  have kept : Fits 10000 (r.redact (r.floats.pass data)) :=
    fits_redact _ (r.floats.fits_pass fits)
  have inRange' : r.floats.InRange (r.redact data) := fun literal mem =>
    inRange literal (numbers_redact _ 0 data literal mem)
  have solid := solid_encodeValue true kept
  have trimmed : trimSpace (encode (r.redact (r.floats.pass data))) ≠ "" := by
    rw [show trimSpace (encode (r.redact (r.floats.pass data))) = _ from solid.trimSpace]
    exact solid.ne_empty
  have decoded : decodeStoredResponse
      (r.settings limit)
      (some (encode (r.redact (r.floats.pass data)))) = some (r.floats.pass (r.redact data)) := by
    rw [decodeStoredResponse, if_neg trimmed]
    change r.floats.unmarshalAny _ = _
    rw [Floats.unmarshalAny, decode_encode kept, redact_pass]
    dsimp only
    rw [if_pos (r.floats.inRange_pass inRange'), r.floats.pass_pass inRange']
  have marshalled : marshalStoredResponse
      (r.settings limit) data =
        some (encode (r.redact (r.floats.pass data))) := marshal_whole redacted whole
  unfold Replays
  constructor
  · rintro ⟨stored, marshalled', out, decoded', same⟩
    rw [marshalled] at marshalled'
    cases marshalled'
    rw [decoded] at decoded'
    cases decoded'
    exact same
  · intro exact_
    exact ⟨_, marshalled, _, decoded, exact_⟩

theorem not_replays_outOfRange (fits : Fits 10000 data) (outside : ¬r.floats.InRange data) :
    ¬Replays r (r.settings limit) data := by
  have redacted := redactText_encode (r := r) fits
  rw [if_neg outside] at redacted
  by_cases cut : 0 < limit ∧ limit < "<non-json payload redacted>".utf8ByteSize
  · exact not_replays_of_cut redacted cut
  · rintro ⟨stored, marshalled, out, decoded, -⟩
    rw [marshal_whole redacted (by omega)] at marshalled
    cases marshalled
    have some_ : trimSpace "<non-json payload redacted>" ≠ "" := by decide +kernel
    have none_ : decode "<non-json payload redacted>" = none := by rfl
    rw [decodeStoredResponse, if_neg some_] at decoded
    have read : r.floats.unmarshalAny "<non-json payload redacted>" = some out := decoded
    rw [Floats.unmarshalAny, none_] at read
    cases read

end Replay

/-- The response nests no deeper than JSON is read, its numbers can be read as floats, what is kept
of it has only numbers that are floats, and it is stored whole. -/
structure Replayable (r : Redaction) (limit : ℕ) (data : JsonValue) : Prop where
  fits : Fits 10000 data
  inRange : r.floats.InRange data
  exact_ : r.floats.Exact (r.redact data)
  whole : limit = 0 ∨ (encode (r.redact (r.floats.pass data))).utf8ByteSize ≤ limit

/-- A replayable response is replayed, and no other one that nests no deeper than JSON is read. -/
theorem replays_iff (r : Redaction) (limit : ℕ) (data : JsonValue) :
    (Replayable r limit data → Replays r (r.settings limit) data) ∧
      (Fits 10000 data → Replays r (r.settings limit) data → Replayable r limit data) := by
  constructor
  · intro replayable
    exact (replays_whole replayable.fits replayable.inRange replayable.whole).mpr replayable.exact_
  · intro fits replays
    have inRange : r.floats.InRange data := by
      by_contra outside
      exact not_replays_outOfRange fits outside replays
    have redacted := redactText_encode (r := r) fits
    rw [if_pos inRange] at redacted
    have whole : limit = 0 ∨ (encode (r.redact (r.floats.pass data))).utf8ByteSize ≤ limit := by
      by_contra cut
      exact not_replays_of_cut redacted (by omega) replays
    exact {
      fits := fits
      inRange := inRange
      exact_ := (replays_whole fits inRange whole).mp replays
      whole := whole }

namespace Sample

/-- Neither changes the texts of the samples. -/
def redaction : Redaction :=
  { toLower := id, floats := Floats.asRead, redactPlain := fun _ text => text }

def receipt : JsonValue := .object [("id", .string "abcdef")]

end Sample

/-- A response that is longer than the limit is stored, but not replayed. -/
theorem receipt_not_replayed :
    ¬Replays Sample.redaction (Sample.redaction.settings 12) Sample.receipt := by
  apply not_replays_of_cut rfl
  decide +kernel

/-- Within the limit it is replayed. -/
theorem receipt_replayed :
    Replays Sample.redaction (Sample.redaction.settings 15) Sample.receipt := by
  apply (replays_iff Sample.redaction 15 Sample.receipt).1
  exact {
    fits := by
      apply Fits.object (List.pairwise_singleton _ _)
      intro member mem
      cases List.mem_singleton.mp mem
      exact Fits.string _ _
    inRange := by decide +kernel
    exact_ := rfl
    whole := by decide +kernel }

end Sub2api.Idempotency
