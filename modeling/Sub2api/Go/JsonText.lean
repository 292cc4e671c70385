import Mathlib.Data.List.Basic
import Mathlib.Tactic.Tauto
import Sub2api.Go.JsonStruct

/-!
# JSON values

The value of a raw message, for code that takes messages apart and puts them together without
looking at their texts. The numbers keep their texts. An object lists its members in their order,
and `JsonMap.ofMembers` is the map that `json.Unmarshal` makes of them.
-/

namespace Sub2api.Go

inductive JsonValue
  | null
  | bool (b : Bool)
  | number (literal : String)
  | string (text : String)
  | array (items : List JsonValue)
  | object (members : List (String × JsonValue))

/-- A `map[string]json.RawMessage`. -/
abbrev JsonMap := List (String × JsonValue)

namespace JsonMap

def get (m : JsonMap) (key : String) : Option JsonValue := m.lookup key

def has (m : JsonMap) (key : String) : Bool := (m.get key).isSome

def delete (m : JsonMap) (key : String) : JsonMap := m.filter fun member => member.1 ≠ key

def set (m : JsonMap) (key : String) (value : JsonValue) : JsonMap :=
  (key, value) :: m.delete key

/-- A later member of the same name replaces an earlier one. -/
def ofMembers (members : List (String × JsonValue)) : JsonMap :=
  members.foldl (fun m member => m.set member.1 member.2) []

theorem get_delete (m : JsonMap) (key other : String) :
    (m.delete key).get other = if other = key then none else m.get other := by
  unfold delete get
  induction m with
  | nil => simp
  | cons member rest ih =>
    obtain ⟨name, value⟩ := member
    by_cases dropped : name = key
    · rw [List.filter_cons_of_neg (by simpa using dropped), ih]
      by_cases same : other = key
      · rw [if_pos same, if_pos same]
      · rw [if_neg same, if_neg same, List.lookup_cons]
        have different : (other == name) = false := by simpa [dropped] using same
        rw [different]
    · rw [List.filter_cons_of_pos (by simpa using dropped), List.lookup_cons, List.lookup_cons]
      by_cases found : other = name
      · have same : (other == name) = true := by simpa using found
        rw [same, if_neg (found ▸ dropped)]
      · have different : (other == name) = false := by simpa using found
        rw [different, ih]

theorem get_set (m : JsonMap) (key other : String) (value : JsonValue) :
    (m.set key value).get other = if other = key then some value else m.get other := by
  unfold set
  change List.lookup other ((key, value) :: m.delete key) = _
  rw [List.lookup_cons]
  by_cases same : other = key
  · simp [same]
  · have different : (other == key) = false := by simpa using same
    rw [different, if_neg same]
    exact (get_delete m key other).trans (if_neg same)

theorem mem_of_get {m : JsonMap} {key : String} {value : JsonValue}
    (found : m.get key = some value) : (key, value) ∈ m := by
  unfold get at found
  induction m with
  | nil => cases found
  | cons member rest ih =>
    obtain ⟨name, value'⟩ := member
    rw [List.lookup_cons] at found
    by_cases same : (key == name) = true
    · rw [same] at found
      cases found
      rw [eq_of_beq same]
      exact List.mem_cons_self ..
    · rw [Bool.not_eq_true] at same
      rw [same] at found
      exact List.mem_cons_of_mem _ (ih found)

/-- Whether a key has a value is whether it is the key of a member. -/
theorem has_iff {m : JsonMap} {key : String} : m.has key = true ↔ key ∈ m.map (·.1) := by
  unfold has get
  induction m with
  | nil => simp
  | cons member rest ih =>
    obtain ⟨name, value⟩ := member
    rw [List.lookup_cons, List.map_cons, List.mem_cons]
    by_cases same : key = name
    · simp [same]
    · have different : (key == name) = false := by simpa using same
      rw [different, ih]
      simp [same]

theorem has_set (m : JsonMap) (key other : String) (value : JsonValue) :
    (m.set key value).has other = (decide (other = key) || m.has other) := by
  unfold has
  rw [get_set]
  by_cases same : other = key
  · simp [same]
  · simp [same]

theorem has_ofMembers (members : List (String × JsonValue)) (key : String) :
    (ofMembers members).has key = true ↔ key ∈ members.map (·.1) := by
  have general : ∀ (members : List (String × JsonValue)) (m : JsonMap),
      JsonMap.has (members.foldl (fun m member => m.set member.1 member.2) m) key = true ↔
        m.has key = true ∨ key ∈ members.map (·.1) := by
    intro members
    induction members with
    | nil => simp
    | cons member rest ih =>
      intro m
      rw [List.foldl_cons, ih, has_set, List.map_cons, List.mem_cons, Bool.or_eq_true,
        decide_eq_true_eq]
      tauto
  rw [ofMembers, general members []]
  simp [has, get]

theorem sizeOf_delete_le (m : JsonMap) (key : String) : sizeOf (m.delete key) ≤ sizeOf m := by
  unfold delete
  induction m with
  | nil => exact Nat.le_refl _
  | cons member rest ih =>
    rw [List.filter_cons]
    split
    · simp only [List.cons.sizeOf_spec]
      omega
    · simp only [List.cons.sizeOf_spec]
      omega

/-- The map of an object is no larger than the object. -/
theorem sizeOf_ofMembers_le (members : List (String × JsonValue)) :
    sizeOf (ofMembers members) ≤ sizeOf members := by
  have general : ∀ (members : List (String × JsonValue)) (m : JsonMap),
      sizeOf (members.foldl (fun m member => m.set member.1 member.2) m) + 1 ≤
        sizeOf m + sizeOf members := by
    intro members
    induction members with
    | nil => simp
    | cons member rest ih =>
      intro m
      obtain ⟨name, value⟩ := member
      have smaller := sizeOf_delete_le m name
      have step := ih (m.set name value)
      simp only [List.foldl_cons, set, List.cons.sizeOf_spec] at step ⊢
      omega
  have := general members []
  simp only [List.nil.sizeOf_spec] at this
  unfold ofMembers
  omega

end JsonMap

end Sub2api.Go

/-!
### JSON texts and their values

`decode` is `json.Unmarshal` into an `any` with numbers kept as their texts, and `encode` is
`json.Marshal` of what it gives. A map is listed in the order of its keys, which is the order that
`json.Marshal` writes; a key that is read again replaces the earlier value.
-/

namespace Sub2api.Go

/-- Setting a key of a map that is listed in the order of its keys. -/
def JsonMap.put (key : String) (value : JsonValue) : JsonMap → JsonMap
  | [] => [(key, value)]
  | (name, old) :: rest =>
    if key < name then (key, value) :: (name, old) :: rest
    else if key = name then (key, value) :: rest
    else (name, old) :: JsonMap.put key value rest

namespace Json

/-! ### Reading -/

/-- An array or an object that is being read. -/
inductive Frame where
  | array (items : List JsonValue)
  | object (members : JsonMap) (key : String)

/-- The literal that is being read, or the value that was read last, in the frames around it. -/
structure Reader where
  literal : List Char := []
  value : Option JsonValue := none
  frames : List Frame := []

/-- The value of a literal, by its first character. -/
def literalValue (literal : List Char) : JsonValue :=
  match literal.head? with
  | some '"' => .string (unquote literal)
  | some 't' => .bool true
  | some 'f' => .bool false
  | some 'n' => .null
  | _ => .number (String.ofList literal)

/-- A value in the innermost frame. -/
def Frame.add : Frame → JsonValue → Frame
  | .array items, v => .array (items ++ [v])
  | .object members key, v => .object (members.put key v) key

/-- A value as the next key. -/
def Frame.rekey : Frame → JsonValue → Frame
  | .object members _, .string key => .object members key
  | frame, _ => frame

def Frame.close : Frame → JsonValue
  | .array items => .array items
  | .object members _ => .object members

namespace Reader

def current (r : Reader) : Option JsonValue :=
  match r.literal with
  | [] => r.value
  | literal => some (literalValue literal)

/-- The frames with the value that is complete now. -/
def taken (r : Reader) : List Frame := intoInnermost .add r.current r.frames

/-- The value that is complete now becomes the key of the next one. -/
def keyed (r : Reader) : List Frame := intoInnermost .rekey r.current r.frames

def next (r : Reader) : Opcode × Char → Reader
  | (.beginLiteral, c) => { r with literal := [c], value := none }
  | (.continue, c) => { r with literal := r.literal ++ [c] }
  | (.beginObject, _) => { frames := .object [] "" :: r.frames }
  | (.beginArray, _) => { frames := .array [] :: r.frames }
  | (.objectKey, _) => { frames := r.keyed }
  | (.objectValue, _) | (.arrayValue, _) => { frames := r.taken }
  | (.endObject, _) | (.endArray, _) =>
    match r.taken with
    | frame :: outer => { value := some frame.close, frames := outer }
    | [] => r
  | (.skipSpace, _) | (.end, _) => r

end Reader

/-- `json.Unmarshal` into an `any`; a text that is not valid has no value. -/
def decode (text : String) : Option JsonValue :=
  (tokens text).map fun scanned => ((scanned.foldl Reader.next {}).current).getD .null

theorem valid_eq_isSome (text : String) : valid text = (decode text).isSome := by
  rw [decode, Option.isSome_map]
  rfl

/-- `json.Unmarshal` into a `map[string]any`: `null` leaves it empty, and no other value fits. -/
def decodeObject (text : String) : Option JsonMap :=
  match decode text with
  | some (.object members) => some members
  | some .null => some []
  | _ => none

/-- The members of an object that a text is read as. -/
def fields (text : String) : JsonMap := (decodeObject text).getD []

/-- `value.(string)` with a default of the empty string. -/
def stringValue : Option JsonValue → String
  | some (.string text) => text
  | _ => ""

/-! ### Writing -/

/-- A character of an encoded string, with or without `SetEscapeHTML`. -/
def writeChar (html : Bool) (c : Char) : List Char :=
  if html = false ∧ (c = '<' ∨ c = '>' ∨ c = '&') then [c] else encodeChar c

def writeString (html : Bool) (text : String) : List Char :=
  '"' :: text.toList.flatMap (writeChar html) ++ ['"']

mutual

def encodeValue (html : Bool) : JsonValue → List Char
  | .null => ['n', 'u', 'l', 'l']
  | .bool true => ['t', 'r', 'u', 'e']
  | .bool false => ['f', 'a', 'l', 's', 'e']
  | .number literal => literal.toList
  | .string text => writeString html text
  | .array [] => ['[', ']']
  | .array (first :: rest) => '[' :: encodeValue html first ++ encodeItems html rest
  | .object [] => ['{', '}']
  | .object ((key, value) :: rest) =>
    '{' :: writeString html key ++ ':' :: encodeValue html value ++ encodeMembers html rest

/-- The items after the first. -/
def encodeItems (html : Bool) : List JsonValue → List Char
  | [] => [']']
  | item :: rest => ',' :: encodeValue html item ++ encodeItems html rest

/-- The members after the first. -/
def encodeMembers (html : Bool) : List (String × JsonValue) → List Char
  | [] => ['}']
  | (key, value) :: rest =>
    ',' :: writeString html key ++ ':' :: encodeValue html value ++ encodeMembers html rest

end

/-- `json.Marshal`. -/
def encode (v : JsonValue) : String := String.ofList (encodeValue true v)

/-- `json.Encoder.Encode` with `SetEscapeHTML(false)`, its line break cut off. -/
def encodeRaw (v : JsonValue) : String := String.ofList (encodeValue false v)

/-! ### The values of texts -/

/-- A step of the scanner within a number. -/
def numberStep (state : ScanState) (c : Char) : Option ScanState :=
  match state with
  | .beginValue =>
    if c = '-' then some .neg else if c = '0' then some .zero
    else if isDigit c then some .int else none
  | .neg => if c = '0' then some .zero else if isDigit c then some .int else none
  | .int =>
    if isDigit c then some .int else if c = '.' then some .dot
    else if c = 'e' ∨ c = 'E' then some .exponent else none
  | .zero =>
    if c = '.' then some .dot else if c = 'e' ∨ c = 'E' then some .exponent else none
  | .dot => if isDigit c then some .fraction else none
  | .fraction =>
    if isDigit c then some .fraction else if c = 'e' ∨ c = 'E' then some .exponent else none
  | .exponent =>
    if c = '+' ∨ c = '-' then some .exponentSign
    else if isDigit c then some .exponentDigits else none
  | .exponentSign | .exponentDigits => if isDigit c then some .exponentDigits else none
  | _ => none

def IsNumber (literal : List Char) : Prop :=
  ∃ state ∈ [ScanState.int, .zero, .fraction, .exponentDigits],
    literal.foldlM numberStep .beginValue = some state

instance (literal : List Char) : Decidable (IsNumber literal) := by
  unfold IsNumber
  infer_instance

/-- A value as it is read from a text that nests so deep: its numbers are numbers and its maps are
in order. -/
inductive Fits : ℕ → JsonValue → Prop
  | null (depth : ℕ) : Fits depth .null
  | bool (depth : ℕ) (b : Bool) : Fits depth (.bool b)
  | number (depth : ℕ) {literal : String} (isNumber : IsNumber literal.toList) :
      Fits depth (.number literal)
  | string (depth : ℕ) (text : String) : Fits depth (.string text)
  | array {depth : ℕ} {items : List JsonValue} (each : ∀ item ∈ items, Fits depth item) :
      Fits (depth + 1) (.array items)
  | object {depth : ℕ} {members : JsonMap} (ordered : members.Pairwise fun a b => a.1 < b.1)
      (each : ∀ member ∈ members, Fits depth member.2) : Fits (depth + 1) (.object members)

end Json

end Sub2api.Go
