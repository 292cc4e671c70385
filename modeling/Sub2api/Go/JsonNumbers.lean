import Mathlib.Data.Rat.Defs
import Sub2api.Go.JsonDecoded

/-!
# The numbers of a value

`json.Unmarshal` without `UseNumber` reads a number as a `float64`, which `json.Marshal` writes in
its own way. `Floats` is what becomes of a number on this way; `Same` compares values by what their
numbers are.
-/

namespace Sub2api.Go.Json

/-- The number that is written for the `float64` a number is read as; out of range there is
none. -/
structure Floats where
  through : String → Option String
  isNumber : ∀ {literal written : String}, through literal = some written → IsNumber written.toList
  /-- What is written for a `float64` is read as that `float64`. -/
  again : ∀ {literal written : String}, through literal = some written →
    through written = some written

/-- Numbers are written as they are read. -/
def Floats.asRead : Floats where
  through literal := if IsNumber literal.toList then some literal else none
  isNumber := by
    intro literal written through
    split at through
    · rename_i number
      cases through
      exact number
    · cases through
  again := by
    intro literal written through
    split at through
    · rename_i number
      cases through
      exact if_pos number
    · cases through

mutual

/-- The numbers of a value. -/
def numbers : JsonValue → List String
  | .number literal => [literal]
  | .array items => numbersOfItems items
  | .object members => numbersOfMembers members
  | _ => []

def numbersOfItems : List JsonValue → List String
  | [] => []
  | item :: rest => numbers item ++ numbersOfItems rest

def numbersOfMembers : List (String × JsonValue) → List String
  | [] => []
  | (_, value) :: rest => numbers value ++ numbersOfMembers rest

end

mutual

def mapNumbers (f : String → String) : JsonValue → JsonValue
  | .number literal => .number (f literal)
  | .array items => .array (mapItems f items)
  | .object members => .object (mapMembers f members)
  | .null => .null
  | .bool b => .bool b
  | .string text => .string text

def mapItems (f : String → String) : List JsonValue → List JsonValue
  | [] => []
  | item :: rest => mapNumbers f item :: mapItems f rest

def mapMembers (f : String → String) : List (String × JsonValue) → List (String × JsonValue)
  | [] => []
  | (key, value) :: rest => (key, mapNumbers f value) :: mapMembers f rest

end

/-- The number of a literal: its sign, its digits and its exponent. -/
def decimal (literal : List Char) : ℚ :=
  let negative := literal.head? = some '-'
  let unsigned := if negative then literal.tail else literal
  let mantissa := unsigned.takeWhile fun c => c ≠ 'e' ∧ c ≠ 'E'
  let exponent := (unsigned.dropWhile fun c => c ≠ 'e' ∧ c ≠ 'E').tail
  let whole := mantissa.takeWhile isDigit
  let fraction := (mantissa.dropWhile isDigit).tail
  let digits := (whole ++ fraction).foldl (fun n c => 10 * n + (c.toNat - '0'.toNat)) 0
  let shift := (exponent.filter isDigit).foldl (fun n c => 10 * n + (c.toNat - '0'.toNat)) 0
  let scaled : ℚ :=
    if exponent.head? = some '-' then digits / 10 ^ (shift + fraction.length)
    else digits * 10 ^ shift / 10 ^ fraction.length
  if negative then -scaled else scaled

/-- One text for each number. -/
def reduced (literal : String) : String :=
  let number := decimal literal.toList
  toString number.num ++ "/" ++ toString number.den

/-- The same value, numbers compared by what they are. -/
def Same (v w : JsonValue) : Prop := mapNumbers reduced v = mapNumbers reduced w

theorem Same.refl (v : JsonValue) : Same v v := rfl

/-! ### Parts -/

theorem mapItems_eq (f : String → String) (items : List JsonValue) :
    mapItems f items = items.map (mapNumbers f) := by
  induction items with
  | nil => rfl
  | cons item rest ih => rw [mapItems, ih, List.map_cons]

theorem mapMembers_eq (f : String → String) (members : List (String × JsonValue)) :
    mapMembers f members = members.map fun member => (member.1, mapNumbers f member.2) := by
  induction members with
  | nil => rfl
  | cons member rest ih => rw [mapMembers, ih, List.map_cons]

theorem get_mapMembers (f : String → String) (members : JsonMap) (key : String) :
    JsonMap.get (mapMembers f members) key = (JsonMap.get members key).map (mapNumbers f) := by
  unfold JsonMap.get
  induction members with
  | nil => rfl
  | cons member rest ih =>
    obtain ⟨name, value⟩ := member
    rw [mapMembers, List.lookup_cons, List.lookup_cons]
    cases key == name with
    | true => rfl
    | false => exact ih

variable {f : String → String}

theorem fits_mapNumbers {depth : ℕ} {v : JsonValue}
    (isNumber : ∀ literal : String, IsNumber literal.toList → IsNumber (f literal).toList)
    (fits : Fits depth v) : Fits depth (mapNumbers f v) := by
  induction fits with
  | null depth => exact Fits.null depth
  | bool depth b => exact Fits.bool depth b
  | number depth number => exact Fits.number depth (isNumber _ number)
  | string depth text => exact Fits.string depth text
  | array each ih =>
    rw [mapNumbers, mapItems_eq]
    apply Fits.array
    intro item mem
    obtain ⟨old, listed, rfl⟩ := List.mem_map.mp mem
    exact ih old listed
  | object ordered each ih =>
    rw [mapNumbers, mapMembers_eq]
    apply Fits.object
    · exact List.pairwise_map.mpr ordered
    · intro member mem
      obtain ⟨old, listed, rfl⟩ := List.mem_map.mp mem
      exact ih old listed

mutual

theorem numbers_mapNumbers (f : String → String) :
    ∀ v : JsonValue, numbers (mapNumbers f v) = (numbers v).map f
  | .null | .bool _ | .string _ | .number _ => rfl
  | .array items => numbers_mapItems f items
  | .object members => numbers_mapMembers f members

theorem numbers_mapItems (f : String → String) :
    ∀ items : List JsonValue, numbersOfItems (mapItems f items) = (numbersOfItems items).map f
  | [] => rfl
  | item :: rest => by
    rw [mapItems, numbersOfItems, numbersOfItems, numbers_mapNumbers f item,
      numbers_mapItems f rest, List.map_append]

theorem numbers_mapMembers (f : String → String) : ∀ members : List (String × JsonValue),
    numbersOfMembers (mapMembers f members) = (numbersOfMembers members).map f
  | [] => rfl
  | (key, value) :: rest => by
    rw [mapMembers, numbersOfMembers, numbersOfMembers, numbers_mapNumbers f value,
      numbers_mapMembers f rest, List.map_append]

end

mutual

theorem mapNumbers_self :
    ∀ v : JsonValue, (∀ literal ∈ numbers v, f literal = literal) → mapNumbers f v = v
  | .null, _ | .bool _, _ | .string _, _ => rfl
  | .number literal, same => by rw [mapNumbers, same literal (List.mem_singleton_self _)]
  | .array items, same => by rw [mapNumbers, mapItems_self items same]
  | .object members, same => by rw [mapNumbers, mapMembers_self members same]

theorem mapItems_self : ∀ items : List JsonValue,
    (∀ literal ∈ numbersOfItems items, f literal = literal) → mapItems f items = items
  | [], _ => rfl
  | item :: rest, same => by
    rw [mapItems, mapNumbers_self item fun l mem => same l (List.mem_append_left _ mem),
      mapItems_self rest fun l mem => same l (List.mem_append_right _ mem)]

theorem mapMembers_self : ∀ members : List (String × JsonValue),
    (∀ literal ∈ numbersOfMembers members, f literal = literal) → mapMembers f members = members
  | [], _ => rfl
  | (key, value) :: rest, same => by
    rw [mapMembers, mapNumbers_self value fun l mem => same l (List.mem_append_left _ mem),
      mapMembers_self rest fun l mem => same l (List.mem_append_right _ mem)]

end

/-! ### Reading with floats -/

namespace Floats

variable (f : Floats)

def pass (v : JsonValue) : JsonValue := mapNumbers (fun literal => (f.through literal).getD literal) v

/-- Every number is in the range of `float64`. -/
def InRange (v : JsonValue) : Prop := ∀ literal ∈ numbers v, (f.through literal).isSome = true

instance (v : JsonValue) : Decidable (f.InRange v) := by
  unfold InRange
  infer_instance

/-- Every number is the `float64` that it is read as. -/
def Exact (v : JsonValue) : Prop := Same v (f.pass v)

theorem asRead_exact (v : JsonValue) : Floats.asRead.Exact v := by
  have same : Floats.asRead.pass v = v := by
    apply mapNumbers_self
    intro literal _
    unfold asRead
    dsimp only
    split <;> rfl
  unfold Exact
  rw [same]
  exact Same.refl v

theorem through_of_inRange {v : JsonValue} (inRange : f.InRange v) {literal : String}
    (mem : literal ∈ numbers (f.pass v)) : f.through literal = some literal := by
  unfold pass at mem
  rw [numbers_mapNumbers] at mem
  obtain ⟨old, listed, rfl⟩ := List.mem_map.mp mem
  cases through : f.through old with
  | none =>
    have some_ := inRange old listed
    rw [through] at some_
    cases some_
  | some written => exact f.again through

theorem inRange_pass {v : JsonValue} (inRange : f.InRange v) : f.InRange (f.pass v) := by
  intro literal mem
  rw [f.through_of_inRange inRange mem]
  rfl

theorem pass_pass {v : JsonValue} (inRange : f.InRange v) : f.pass (f.pass v) = f.pass v := by
  apply mapNumbers_self
  intro literal mem
  rw [f.through_of_inRange inRange mem]
  rfl

/-- `json.Unmarshal` into an `any`. -/
def unmarshalAny (text : String) : Option JsonValue :=
  match decode text with
  | some v => if f.InRange v then some (f.pass v) else none
  | none => none

def passMap (m : JsonMap) : JsonMap :=
  mapMembers (fun literal => (f.through literal).getD literal) m

/-- `json.Unmarshal` into a `map[string]any`. -/
def unmarshal (body : String) : Option JsonMap :=
  match decodeObject body with
  | some m => if f.InRange (.object m) then some (f.passMap m) else none
  | none => none

theorem unmarshal_of {body : String} {m : JsonMap} (decoded : decodeObject body = some m)
    (inRange : f.InRange (.object m)) : f.unmarshal body = some (f.passMap m) := by
  rw [unmarshal, decoded]
  exact if_pos inRange

theorem unmarshal_cases (body : String) :
    (f.unmarshal body = none ∧ (f.InRange (.object (fields body)) → fields body = [])) ∨
      (∃ m, decodeObject body = some m ∧ f.InRange (.object m) ∧
        f.unmarshal body = some (f.passMap m)) := by
  cases decoded : decodeObject body with
  | none =>
    left
    constructor
    · rw [unmarshal, decoded]
    · intro _
      rw [fields, decoded]
      rfl
  | some m =>
    have fields_ : fields body = m := by rw [fields, decoded]; rfl
    by_cases inRange : f.InRange (.object m)
    · exact Or.inr ⟨m, rfl, inRange, f.unmarshal_of decoded inRange⟩
    · left
      rw [fields_]
      refine ⟨?_, fun inside => absurd inside inRange⟩
      rw [unmarshal, decoded]
      exact if_neg inRange

theorem get_passMap (m : JsonMap) (key : String) :
    (f.passMap m).get key = (m.get key).map f.pass := get_mapMembers _ m key

theorem pass_array (items : List JsonValue) : f.pass (.array items) = .array (items.map f.pass) := by
  unfold pass
  rw [mapNumbers, mapItems_eq]

theorem stringValue_pass (v : Option JsonValue) :
    stringValue (v.map f.pass) = stringValue v := by
  cases v with
  | none => rfl
  | some v => cases v with
    | null | bool | number | string | array | object => rfl

theorem has_passMap (m : JsonMap) (key : String) : (f.passMap m).has key = m.has key := by
  unfold JsonMap.has
  rw [get_passMap, Option.isSome_map]

theorem fits_pass {depth : ℕ} {v : JsonValue} (fits : Fits depth v) : Fits depth (f.pass v) := by
  apply fits_mapNumbers _ fits
  intro literal number
  cases through : f.through literal with
  | none => exact number
  | some written => exact f.isNumber through

end Floats

end Sub2api.Go.Json
