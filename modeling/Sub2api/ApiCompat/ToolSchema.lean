import Sub2api.Go.JsonText

/-!
# Flattening the unions at the root of a tool schema

Anthropic refuses `oneOf`, `anyOf` and `allOf` at the root of a tool's `input_schema`, so the root
is replaced by one object schema. Texts that are equal after `json.Compact` are a parameter of the
section: which of two descriptions of a property stays does not matter for what is proved here.
-/

namespace Sub2api.ApiCompat.ToolSchema

open Go

/-! ### What `json.Unmarshal` reads -/

/-- Into a string; `null` leaves it empty. -/
def stringValue : JsonValue → Option String
  | .string text => some text
  | .null => some ""
  | _ => none

/-- Into a slice of strings. -/
def stringList : JsonValue → Option (List String)
  | .array items => items.mapM stringValue
  | .null => some []
  | _ => none

/-- Into a map; `null` leaves it nil. -/
def objectMap : JsonValue → Option (Option JsonMap)
  | .object members => some (some (.ofMembers members))
  | .null => some none
  | _ => none

theorem stringList_strings (names : List String) :
    stringList (.array (names.map .string)) = some names := by
  change (names.map JsonValue.string).mapM stringValue = some names
  induction names with
  | nil => rfl
  | cons name rest ih => simp [stringValue, ih]

/-! ### The code -/

def anthropicInputSchemaUnionKeywords : List String := ["oneOf", "anyOf", "allOf"]

def containsAnthropicName (names : List String) (target : String) : Bool := names.contains target

def appendAnthropicRequired (required names : List String) : List String :=
  names.foldl
    (fun merged name => if containsAnthropicName merged name then merged else merged ++ [name])
    required

/-- The loop of `intersectAnthropicRequiredLists` over the lists after the first. -/
def intersectFrom (result : List String) : List (List String) → List String
  | [] => result
  | list :: rest =>
    if result.length = 0 then []
    else intersectFrom (result.filter (containsAnthropicName list)) rest

def intersectAnthropicRequiredLists : List (List String) → List String
  | [] => []
  | first :: rest => intersectFrom first rest

def anthropicBranchRequired : Option JsonMap → List String
  | none => []
  | some branch =>
    match branch.get "required" with
    | none => []
    | some raw => (stringList raw).getD []

def intersectAnthropicRequired (branches : List (Option JsonMap)) : List String :=
  intersectAnthropicRequiredLists (branches.map anthropicBranchRequired)

def anthropicSchemaProperties (schema : JsonMap) : JsonMap :=
  match schema.get "properties" with
  | none => []
  | some raw =>
    match objectMap raw with
    | some (some properties) => properties
    | _ => []

def anthropicSchemaBranchIsObject : Option JsonMap → Bool
  | none => false
  | some branch =>
    match branch.get "type" with
    | some raw => stringValue raw = some "object"
    | none => branch.has "properties"

section Flattening

variable (anthropicSchemaJSONEqual : JsonValue → JsonValue → Bool)

/-- One property of a branch goes to those that are there. -/
def mergeProperty (into : JsonMap) (member : String × JsonValue) : JsonMap :=
  match into.get member.1 with
  | none => into.set member.1 member.2
  | some existing =>
    if anthropicSchemaJSONEqual existing member.2 then into
    else into.set member.1 (.object [("anyOf", .array [existing, member.2])])

def mergeAnthropicObjectBranchProperties (into : JsonMap) (branches : List (Option JsonMap)) :
    JsonMap :=
  branches.foldl
    (fun into branch =>
      if anthropicSchemaBranchIsObject branch then
        match branch.bind (·.get "properties") with
        | none => into
        | some raw =>
          match objectMap raw with
          | some (some properties) =>
            properties.foldl (mergeProperty anthropicSchemaJSONEqual) into
          | _ => into
      else into)
    into

/-- What the loop over the union keywords gathers. -/
structure Gathered where
  properties : JsonMap
  intersections : List (List String) := []
  allOfRequired : List String := []

def gather (branchesOf : String → Option (List (Option JsonMap))) (g : Gathered)
    (keyword : String) : Gathered :=
  match branchesOf keyword with
  | none => g
  | some branches =>
    let g := { g with
      properties :=
        mergeAnthropicObjectBranchProperties anthropicSchemaJSONEqual g.properties branches }
    if keyword = "allOf" then
      { g with
        allOfRequired :=
          branches.foldl
            (fun required branch => appendAnthropicRequired required (anthropicBranchRequired branch))
            g.allOfRequired }
    else { g with intersections := g.intersections ++ [intersectAnthropicRequired branches] }

/-- `flattenAnthropicRootUnions`, given the branches of each keyword that decodes. -/
def flattenRoot (schema : JsonMap) (branchesOf : String → Option (List (Option JsonMap))) :
    JsonMap :=
  let present := anthropicInputSchemaUnionKeywords.filter schema.has
  if present.length = 0 then schema
  else
    let g := present.foldl (gather anthropicSchemaJSONEqual branchesOf)
      { properties := anthropicSchemaProperties schema }
    let required :=
      appendAnthropicRequired
        (appendAnthropicRequired (intersectAnthropicRequiredLists g.intersections) g.allOfRequired)
        (anthropicBranchRequired (some schema))
    let schema := present.foldl JsonMap.delete schema
    let schema :=
      if g.properties.length > 0 then schema.set "properties" (.object g.properties) else schema
    if required.length > 0 then schema.set "required" (.array (required.map .string)) else schema

def flattenAnthropicRootUnions (schema : JsonMap) : JsonMap :=
  flattenRoot anthropicSchemaJSONEqual schema fun keyword =>
    match _found : schema.get keyword with
    | some (.array items) =>
      if items.length = 0 then none
      else
        some (items.attach.map fun item =>
          match _branch : item.1 with
          | .object members => some (flattenAnthropicRootUnions (.ofMembers members))
          | _ => none)
    | _ => none
termination_by sizeOf schema
decreasing_by
  have inItems := List.sizeOf_lt_of_mem item.2
  have inSchema := List.sizeOf_lt_of_mem (JsonMap.mem_of_get _found)
  have inBranch := JsonMap.sizeOf_ofMembers_le members
  rw [_branch] at inItems
  simp only [Prod.mk.sizeOf_spec, JsonValue.array.sizeOf_spec, JsonValue.object.sizeOf_spec] at *
  omega

/-- A branch, flattened; `none` stands for what is no object. -/
def flattenBranch : JsonValue → Option JsonMap
  | .object members =>
    some (flattenAnthropicRootUnions anthropicSchemaJSONEqual (.ofMembers members))
  | _ => none

/-- `decodeAnthropicUnionBranches`. -/
def decodeAnthropicUnionBranches : JsonValue → Option (List (Option JsonMap))
  | .array items =>
    if items.length = 0 then none
    else some (items.map (flattenBranch anthropicSchemaJSONEqual))
  | _ => none

theorem flattenAnthropicRootUnions_eq (schema : JsonMap) :
    flattenAnthropicRootUnions anthropicSchemaJSONEqual schema =
      flattenRoot anthropicSchemaJSONEqual schema fun keyword =>
        (schema.get keyword).bind (decodeAnthropicUnionBranches anthropicSchemaJSONEqual) := by
  rw [flattenAnthropicRootUnions]
  congr 1
  funext keyword
  cases found : schema.get keyword with
  | none => rfl
  | some raw =>
    cases raw with
    | array items =>
      change _ = decodeAnthropicUnionBranches anthropicSchemaJSONEqual (.array items)
      unfold decodeAnthropicUnionBranches
      dsimp only
      split
      · rfl
      · rw [Option.some.injEq, ← List.attach_map_val (l := items)]
        apply List.map_congr_left
        intro item _
        obtain ⟨item, mem⟩ := item
        cases item <;> rfl
    | _ => rfl

/-! ### What a schema asks of the keys of an object -/

/-- The keys meet what the root of a schema requires: its own list, one branch of each of `oneOf`
and `anyOf`, and every branch of `allOf`. A branch that is no object asks nothing here. `oneOf` is
read as `anyOf`, so that more sets of keys meet a schema than JSON Schema says. -/
inductive Satisfies (keys : Set String) : JsonMap → Prop
  | root (schema : JsonMap) (choice : String → JsonValue)
      (required : ∀ name ∈ anthropicBranchRequired (some schema), name ∈ keys)
      (chosen : ∀ keyword ∈ ["oneOf", "anyOf"], ∀ items,
        schema.get keyword = some (.array items) → items ≠ [] → choice keyword ∈ items)
      (one : ∀ keyword ∈ ["oneOf", "anyOf"], ∀ items members,
        schema.get keyword = some (.array items) → choice keyword = .object members →
          Satisfies keys (.ofMembers members))
      (all : ∀ items members, schema.get "allOf" = some (.array items) →
        .object members ∈ items → Satisfies keys (.ofMembers members)) :
      Satisfies keys schema

/-- A branch that may be an object: its type is `object`, or it has none. -/
def MayBeObject (branch : JsonMap) : Prop :=
  ∀ raw, branch.get "type" = some raw → stringValue raw = some "object"

/-- The properties that the root of a schema or an object branch of it names. -/
inductive Names : JsonMap → String → Prop
  | own {schema : JsonMap} {name : String} :
      (anthropicSchemaProperties schema).has name = true → Names schema name
  | branch {schema : JsonMap} {name keyword : String} {items : List JsonValue}
      {members : List (String × JsonValue)} :
      keyword ∈ anthropicInputSchemaUnionKeywords → schema.get keyword = some (.array items) →
        .object members ∈ items → MayBeObject (.ofMembers members) →
        Names (.ofMembers members) name → Names schema name

end Flattening

end Sub2api.ApiCompat.ToolSchema
