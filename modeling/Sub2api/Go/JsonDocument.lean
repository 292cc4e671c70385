import Sub2api.Go.JsonText
import Sub2api.Go.Strings

/-!
# JSON documents as two readers see them

A `Document` is a JSON text taken apart, with as much of its spelling as the gjson package shows.
`Document.get` and `Document.str` are gjson's `Get` of a plain key and `String()`, and
`Document.decode` is what `json.Unmarshal` makes of the same text: of two members of one name gjson
takes the first and `json.Unmarshal` the last.
-/

namespace Sub2api.Go

/-- Where no two members have one name, the map has the value of each. -/
theorem JsonMap.get_ofMembers {members : List (String × JsonValue)}
    (names : (members.map (·.1)).Nodup) (key : String) :
    (JsonMap.ofMembers members).get key = members.lookup key := by
  have general : ∀ (members : List (String × JsonValue)) (m : JsonMap),
      (members.map (·.1)).Nodup →
      JsonMap.get (members.foldl (fun m member => m.set member.1 member.2) m) key =
        (members.lookup key).or (m.get key) := by
    intro members
    induction members with
    | nil =>
      intro m _
      rfl
    | cons member rest ih =>
      intro m names
      obtain ⟨name, value⟩ := member
      obtain ⟨new, names⟩ := List.nodup_cons.mp names
      rw [List.foldl_cons, ih _ names, JsonMap.get_set, List.lookup_cons]
      by_cases same : key = name
      · have gone : rest.lookup key = none := by
          cases found : rest.lookup key with
          | none => rfl
          | some later =>
            have mem : (key, later) ∈ rest := JsonMap.mem_of_get found
            exact absurd (List.mem_map_of_mem mem) (same ▸ new)
        rw [gone, if_pos same, same, beq_self_eq_true]
        rfl
      · have different : (key == name) = false := by simpa using same
        rw [if_neg same, different]
  rw [JsonMap.ofMembers, general members [] names]
  cases members.lookup key <;> rfl

namespace Json

/-- The text of a number. -/
structure NumberText where
  literal : String
  isNumber : IsNumber literal.toList

/-- What a formatted number begins with. -/
def startsNumber (c : Char) : Bool := c = '+' || c = '-' || isDigit c

/-- `strconv.FormatFloat(f, 'f', -1, 64)` of the number that a text is parsed as. -/
structure FloatFormat where
  format : String → String
  starts : ∀ literal, ∃ c rest, (format literal).toList = c :: rest ∧ startsNumber c = true

/-- A JSON text taken apart. An array and an object keep their text from after the bracket on. A
string has one text, so no document stands for the escape of a lone surrogate, which gjson and
`json.Unmarshal` may read differently. -/
inductive Document
  | null
  | bool (b : Bool)
  | number (n : NumberText)
  | string (text : String)
  | array (items : List Document) (rest : String)
  | object (members : List (String × Document)) (rest : String)

namespace Document

/-! ### Reading the text -/

def isObject : Document → Bool
  | .object .. => true
  | _ => false

/-- `Result.Get` of a key without special characters. -/
def get (key : String) : Document → Option Document
  | .object members _ => members.lookup key
  | _ => none

/-- Whether a number is written with digits only, after its sign. -/
def digitsOnly (literal : List Char) : Bool :=
  match literal with
  | '-' :: digits => digits.all Char.isDigit
  | digits => digits.all Char.isDigit

/-- `Result.String`; a value that was not found has no text. -/
def str (format : FloatFormat) : Option Document → String
  | none | some .null => ""
  | some (.bool true) => "true"
  | some (.bool false) => "false"
  | some (.number n) => if digitsOnly n.literal.toList then n.literal else format.format n.literal
  | some (.string text) => text
  | some (.array _ rest) => "[" ++ rest
  | some (.object _ rest) => "\x7b" ++ rest

/-! ### Decoding it -/

mutual

def decode : Document → JsonValue
  | .null => .null
  | .bool b => .bool b
  | .number n => .number n.literal
  | .string text => .string text
  | .array items _ => .array (decodeItems items)
  | .object members _ => .object (JsonMap.ofMembers (decodeMembers members))

def decodeItems : List Document → List JsonValue
  | [] => []
  | item :: rest => item.decode :: decodeItems rest

def decodeMembers : List (String × Document) → List (String × JsonValue)
  | [] => []
  | (key, value) :: rest => (key, value.decode) :: decodeMembers rest

end

/-- No object of the text has two members of one name. -/
inductive Distinct : Document → Prop
  | null : Distinct .null
  | bool (b : Bool) : Distinct (.bool b)
  | number (n : NumberText) : Distinct (.number n)
  | string (text : String) : Distinct (.string text)
  | array {items : List Document} {rest : String} (each : ∀ item ∈ items, Distinct item) :
      Distinct (.array items rest)
  | object {members : List (String × Document)} {rest : String}
      (names : (members.map (·.1)).Nodup) (each : ∀ member ∈ members, Distinct member.2) :
      Distinct (.object members rest)

/-! ### The texts of values -/

theorem startsNumber_literal (n : NumberText) :
    ∃ c rest, n.literal.toList = c :: rest ∧ startsNumber c = true := by
  obtain ⟨state, ends, run⟩ := n.isNumber
  cases spelled : n.literal.toList with
  | nil =>
    rw [spelled] at run
    cases run
    simp at ends
  | cons c rest =>
    refine ⟨c, rest, rfl, ?_⟩
    rw [spelled, List.foldlM_cons] at run
    unfold startsNumber
    by_cases minus : c = '-'
    · simp [minus]
    by_cases zero : c = '0'
    · simp [zero, isDigit]
    · cases digit : isDigit c with
      | true => simp
      | false => simp [numberStep, minus, zero, digit] at run

theorem startsNumber_str (format : FloatFormat) (n : NumberText) :
    ∃ c rest, (str format (some (.number n))).toList = c :: rest ∧ startsNumber c = true := by
  rw [str]
  split
  · exact startsNumber_literal n
  · exact format.starts n.literal

theorem isSpace_of_startsNumber {c : Char} (starts : startsNumber c = true) :
    Go.isSpace c = false := by
  unfold startsNumber isDigit at starts
  simp only [Bool.or_eq_true, decide_eq_true_eq] at starts
  rcases starts with (rfl | rfl) | digit
  · decide
  · decide
  · obtain ⟨low, high⟩ := (Bool.and_eq_true _ _).mp digit
    have low : 48 ≤ c.toNat := UInt32.le_iff_toNat_le.mp (of_decide_eq_true low)
    have high : c.toNat ≤ 57 := UInt32.le_iff_toNat_le.mp (of_decide_eq_true high)
    unfold Go.isSpace
    simp
    omega

/-! ### What both readers find -/

theorem decodeItems_eq_map (items : List Document) : decodeItems items = items.map decode := by
  induction items with
  | nil => rfl
  | cons item rest ih => rw [decodeItems, List.map_cons, ih]

theorem lookup_decodeMembers (members : List (String × Document)) (key : String) :
    (decodeMembers members).lookup key = (members.lookup key).map decode := by
  induction members with
  | nil => rfl
  | cons member rest ih =>
    obtain ⟨name, value⟩ := member
    rw [decodeMembers, List.lookup_cons, List.lookup_cons]
    cases key == name with
    | true => rfl
    | false => exact ih

theorem map_fst_decodeMembers (members : List (String × Document)) :
    (decodeMembers members).map (·.1) = members.map (·.1) := by
  induction members with
  | nil => rfl
  | cons member rest ih =>
    rw [decodeMembers, List.map_cons, List.map_cons, ih]

end Document

/-- Both readers find a value at the same keys, and it is the same value. -/
theorem Document.Distinct.get_decode {d : Document} (distinct : d.Distinct) {members : JsonMap}
    (object : d.decode = .object members) (key : String) :
    members.get key = (d.get key).map Document.decode := by
  cases distinct with
  | null | bool _ | number _ | string _ | array _ =>
    rw [Document.decode] at object
    cases object
  | @object written rest names each =>
    rw [Document.decode] at object
    cases object
    rw [JsonMap.get_ofMembers (by rwa [Document.map_fst_decodeMembers]),
      Document.lookup_decodeMembers]
    rfl

end Json

end Sub2api.Go
