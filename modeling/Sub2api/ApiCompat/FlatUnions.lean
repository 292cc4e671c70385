import Sub2api.ApiCompat.ToolSchema

/-!
# Flattened unions demand no more than the unions did

The names that are required are met by induction on how the keys meet the schema, the properties are
found by induction on where they are named; the rest is read off the parts of the result.
-/

namespace Sub2api.ApiCompat.ToolSchema

open Go

section Flattening

/-! ### The lists of required names -/

variable {name : String}

theorem mem_appendAnthropicRequired {required names : List String} :
    name ∈ appendAnthropicRequired required names ↔ name ∈ required ∨ name ∈ names := by
  unfold appendAnthropicRequired containsAnthropicName
  induction names generalizing required with
  | nil => simp
  | cons first rest ih =>
    rw [List.foldl_cons, ih]
    split
    · rename_i known
      have mem : first ∈ required := by simpa using known
      grind
    · simp [or_assoc]

theorem mem_intersectFrom {result : List String} {lists : List (List String)}
    (mem : name ∈ intersectFrom result lists) : name ∈ result ∧ ∀ list ∈ lists, name ∈ list := by
  induction lists generalizing result with
  | nil => exact ⟨mem, by simp⟩
  | cons list rest ih =>
    unfold intersectFrom at mem
    split at mem
    · cases mem
    · obtain ⟨kept, others⟩ := ih mem
      obtain ⟨inResult, inList⟩ := List.mem_filter.mp kept
      refine ⟨inResult, ?_⟩
      intro list' mem'
      rcases List.mem_cons.mp mem' with rfl | later
      · simpa [containsAnthropicName] using inList
      · exact others list' later

theorem mem_intersectAnthropicRequiredLists {lists : List (List String)}
    (mem : name ∈ intersectAnthropicRequiredLists lists) :
    lists ≠ [] ∧ ∀ list ∈ lists, name ∈ list := by
  cases lists with
  | nil => cases mem
  | cons first rest =>
    obtain ⟨inFirst, inRest⟩ := mem_intersectFrom mem
    refine ⟨List.cons_ne_nil _ _, ?_⟩
    intro list mem'
    rcases List.mem_cons.mp mem' with rfl | later
    · exact inFirst
    · exact inRest list later

variable {branches : List (Option JsonMap)}

theorem mem_foldl_append {required : List String} :
    name ∈ branches.foldl
        (fun required branch => appendAnthropicRequired required (anthropicBranchRequired branch))
        required ↔
      name ∈ required ∨ ∃ branch ∈ branches, name ∈ anthropicBranchRequired branch := by
  induction branches generalizing required with
  | nil => simp
  | cons branch rest ih =>
    rw [List.foldl_cons, ih, mem_appendAnthropicRequired]
    simp [or_assoc]

/-! ### The result of a schema with unions -/

variable {anthropicSchemaJSONEqual : JsonValue → JsonValue → Bool}

theorem get_foldl_delete (keywords : List String) (schema : JsonMap) (key : String) :
    (keywords.foldl JsonMap.delete schema).get key =
      if key ∈ keywords then none else schema.get key := by
  induction keywords generalizing schema with
  | nil => simp
  | cons keyword rest ih =>
    rw [List.foldl_cons, ih, JsonMap.get_delete]
    by_cases later : key ∈ rest
    · simp [later]
    · by_cases now : key = keyword
      · simp [now]
      · simp [later, now]

variable {branchesOf : String → Option (List (Option JsonMap))}

/-- The parts of a flattened schema, for a schema that has a union at its root. -/
theorem flattenRoot_get {schema : JsonMap}
    (some_ : anthropicInputSchemaUnionKeywords.filter schema.has ≠ []) :
    let present := anthropicInputSchemaUnionKeywords.filter schema.has
    let g := present.foldl (gather anthropicSchemaJSONEqual branchesOf)
      { properties := anthropicSchemaProperties schema }
    let required :=
      appendAnthropicRequired
        (appendAnthropicRequired (intersectAnthropicRequiredLists g.intersections) g.allOfRequired)
        (anthropicBranchRequired (some schema))
    ∀ key, (flattenRoot anthropicSchemaJSONEqual schema branchesOf).get key =
      if key = "required" ∧ required ≠ [] then some (.array (required.map .string))
      else if key = "properties" ∧ g.properties ≠ [] then some (.object g.properties)
      else if key ∈ anthropicInputSchemaUnionKeywords then none else schema.get key := by
  intro present g required key
  have absent : ∀ key, (present.foldl JsonMap.delete schema).get key =
      if key ∈ anthropicInputSchemaUnionKeywords then none else schema.get key := by
    intro key
    rw [get_foldl_delete]
    by_cases union : key ∈ anthropicInputSchemaUnionKeywords
    · by_cases there : schema.has key = true
      · simp [present, union, there]
      · have missing : schema.get key = none := by simpa [JsonMap.has] using there
        simp [present, union, missing]
    · simp [present, union]
  have nonempty : ¬ present.length = 0 := fun none_ => some_ (List.eq_nil_of_length_eq_zero none_)
  unfold flattenRoot
  rw [if_neg nonempty]
  change JsonMap.get
    (if required.length > 0 then
      JsonMap.set
        (if g.properties.length > 0 then
          JsonMap.set (present.foldl JsonMap.delete schema) "properties" (.object g.properties)
        else present.foldl JsonMap.delete schema)
        "required" (.array (required.map .string))
    else
      if g.properties.length > 0 then
        JsonMap.set (present.foldl JsonMap.delete schema) "properties" (.object g.properties)
      else present.foldl JsonMap.delete schema) key = _
  have withProperties : JsonMap.get
      (if g.properties.length > 0 then
        JsonMap.set (present.foldl JsonMap.delete schema) "properties" (.object g.properties)
      else present.foldl JsonMap.delete schema) key =
        if key = "properties" ∧ g.properties ≠ [] then some (.object g.properties)
        else if key ∈ anthropicInputSchemaUnionKeywords then none else schema.get key := by
    by_cases named : g.properties = []
    · simp [named, absent]
    · rw [if_pos (List.length_pos_iff.mpr named), JsonMap.get_set, absent]
      simp [named]
  by_cases asked : required = []
  · have notAsked : ¬ required.length > 0 := by simp [asked]
    rw [if_neg notAsked, withProperties]
    simp [asked]
  · rw [if_pos (List.length_pos_iff.mpr asked), JsonMap.get_set, withProperties]
    simp [asked]

/-- What a flattened schema requires. -/
theorem mem_required_flattenRoot {schema : JsonMap}
    (some_ : anthropicInputSchemaUnionKeywords.filter schema.has ≠ []) :
    let g := (anthropicInputSchemaUnionKeywords.filter schema.has).foldl
      (gather anthropicSchemaJSONEqual branchesOf) { properties := anthropicSchemaProperties schema }
    name ∈ anthropicBranchRequired (some (flattenRoot anthropicSchemaJSONEqual schema branchesOf)) →
      name ∈ intersectAnthropicRequiredLists g.intersections ∨ name ∈ g.allOfRequired ∨
        name ∈ anthropicBranchRequired (some schema) := by
  intro g asked
  unfold anthropicBranchRequired at asked
  dsimp only at asked
  rw [flattenRoot_get some_] at asked
  split_ifs at asked with listed named union
  · dsimp only at asked
    rw [stringList_strings, Option.getD_some, mem_appendAnthropicRequired,
      mem_appendAnthropicRequired, or_assoc] at asked
    exact asked
  · exact absurd named.1 (by decide)
  · exact absurd union (by decide)
  · exact Or.inr (Or.inr asked)

theorem decodeAnthropicUnionBranches_eq_some {raw : JsonValue}
    (decoded : decodeAnthropicUnionBranches anthropicSchemaJSONEqual raw = some branches) :
    ∃ items, raw = .array items ∧ items ≠ [] ∧
      branches = items.map (flattenBranch anthropicSchemaJSONEqual) := by
  unfold decodeAnthropicUnionBranches at decoded
  split at decoded
  · rename_i items
    split at decoded
    · cases decoded
    · rename_i nonempty
      refine ⟨items, rfl, fun none_ => nonempty (by rw [none_]; rfl), ?_⟩
      exact (Option.some.inj decoded).symm
  · cases decoded

/-! ### Nothing more is required -/

/-- What has been gathered asks for no other keys. -/
def Gathered.Asks (keys : Set String) (g : Gathered) : Prop :=
  (∀ list ∈ g.intersections, ∀ name ∈ list, name ∈ keys) ∧ ∀ name ∈ g.allOfRequired, name ∈ keys

/-- A union that decodes: one branch of it asks for no other keys, or of `allOf` every one. -/
def UnionAsks (keys : Set String) (keyword : String) (branches : List (Option JsonMap)) : Prop :=
  if keyword = "allOf" then
    ∀ branch ∈ branches, ∀ name ∈ anthropicBranchRequired branch, name ∈ keys
  else ∃ branch ∈ branches, ∀ name ∈ anthropicBranchRequired branch, name ∈ keys

theorem Gathered.Asks.gather {keys : Set String} {g : Gathered} {keyword : String}
    (asks : g.Asks keys)
    (union : ∀ branches, branchesOf keyword = some branches → UnionAsks keys keyword branches) :
    (ToolSchema.gather anthropicSchemaJSONEqual branchesOf g keyword).Asks keys := by
  unfold ToolSchema.gather
  cases decoded : branchesOf keyword with
  | none => exact asks
  | some branches =>
    have union := union branches decoded
    unfold UnionAsks at union
    by_cases conjunction : keyword = "allOf"
    · rw [if_pos conjunction] at union
      dsimp only
      rw [if_pos conjunction]
      refine ⟨asks.1, ?_⟩
      intro name mem
      rcases mem_foldl_append.mp mem with before | ⟨branch, there, asked⟩
      · exact asks.2 name before
      · exact union branch there name asked
    · rw [if_neg conjunction] at union
      dsimp only
      rw [if_neg conjunction]
      refine ⟨?_, asks.2⟩
      obtain ⟨branch, there, met⟩ := union
      intro list mem name asked
      rcases List.mem_append.mp mem with before | new
      · exact asks.1 list before name asked
      · rw [List.mem_singleton.mp new] at asked
        obtain ⟨-, every⟩ := mem_intersectAnthropicRequiredLists asked
        exact met name (every _ (List.mem_map_of_mem there))

theorem Gathered.Asks.foldl {keys : Set String} {g : Gathered} {keywords : List String}
    (asks : g.Asks keys)
    (union : ∀ keyword ∈ keywords, ∀ branches, branchesOf keyword = some branches →
      UnionAsks keys keyword branches) :
    (keywords.foldl (ToolSchema.gather anthropicSchemaJSONEqual branchesOf) g).Asks keys := by
  induction keywords generalizing g with
  | nil => exact asks
  | cons keyword rest ih =>
    apply ih (asks.gather (union keyword (List.mem_cons_self ..)))
    exact fun keyword' later => union keyword' (List.mem_cons_of_mem _ later)

theorem required_flattened {keys : Set String} {schema : JsonMap}
    (satisfies : Satisfies keys schema) :
    ∀ name ∈ anthropicBranchRequired
      (some (flattenAnthropicRootUnions anthropicSchemaJSONEqual schema)), name ∈ keys := by
  induction satisfies with
  | root schema choice required chosen one all ihOne ihAll =>
    have union : ∀ keyword ∈ anthropicInputSchemaUnionKeywords.filter schema.has, ∀ branches,
        (schema.get keyword).bind (decodeAnthropicUnionBranches anthropicSchemaJSONEqual) =
          some branches → UnionAsks keys keyword branches := by
      intro keyword present branches decoded
      obtain ⟨raw, there, decoded⟩ := Option.bind_eq_some_iff.mp decoded
      obtain ⟨items, rfl, nonempty, rfl⟩ := decodeAnthropicUnionBranches_eq_some decoded
      unfold UnionAsks
      split
      · rename_i conjunction
        subst conjunction
        intro branch mem
        obtain ⟨item, inItems, rfl⟩ := List.mem_map.mp mem
        cases item with
        | object members => exact ihAll items members there inItems
        | _ => exact fun name asked => absurd asked List.not_mem_nil
      · rename_i conjunction
        have disjunction : keyword ∈ ["oneOf", "anyOf"] := by
          have known := List.mem_of_mem_filter present
          simp only [anthropicInputSchemaUnionKeywords, List.mem_cons] at known ⊢
          tauto
        refine ⟨_, List.mem_map_of_mem (chosen keyword disjunction items there nonempty), ?_⟩
        cases branch : choice keyword with
        | object members => exact ihOne keyword disjunction items members there branch
        | _ => exact fun name asked => absurd asked List.not_mem_nil
    intro name asked
    rw [flattenAnthropicRootUnions_eq] at asked
    by_cases none_ : anthropicInputSchemaUnionKeywords.filter schema.has = []
    · unfold flattenRoot at asked
      rw [if_pos (by rw [none_]; rfl)] at asked
      exact required name asked
    · have asks : Gathered.Asks keys { properties := anthropicSchemaProperties schema } :=
        ⟨by simp, by simp⟩
      have asks : Gathered.Asks keys
          ((anthropicInputSchemaUnionKeywords.filter schema.has).foldl
            (gather anthropicSchemaJSONEqual _) _) := asks.foldl union
      rcases mem_required_flattenRoot none_ asked with common | conjunct | own
      · obtain ⟨nonempty, every⟩ := mem_intersectAnthropicRequiredLists common
        obtain ⟨list, there⟩ := List.exists_mem_of_ne_nil _ nonempty
        exact asks.1 list there name (every list there)
      · exact asks.2 name conjunct
      · exact required name own

/-! ### Every property is there -/

theorem mergeProperty_has {into : JsonMap} {member : String × JsonValue}
    (named : into.has name = true ∨ name = member.1) :
    (mergeProperty anthropicSchemaJSONEqual into member).has name = true := by
  unfold mergeProperty
  cases existing : into.get member.1 with
  | none =>
    dsimp only
    rw [JsonMap.has_set, Bool.or_eq_true, decide_eq_true_eq]
    exact named.symm
  | some value =>
    dsimp only
    split
    · rcases named with there | rfl
      · exact there
      · rw [JsonMap.has, existing]
        rfl
    · rw [JsonMap.has_set, Bool.or_eq_true, decide_eq_true_eq]
      exact named.symm

theorem foldl_mergeProperty_has {properties into : JsonMap}
    (named : into.has name = true ∨ properties.has name = true) :
    JsonMap.has (properties.foldl (mergeProperty anthropicSchemaJSONEqual) into) name = true := by
  rw [JsonMap.has_iff (m := properties)] at named
  induction properties generalizing into with
  | nil => exact named.resolve_right (by simp)
  | cons member rest ih =>
    apply ih
    rcases named with there | mem
    · exact Or.inl (mergeProperty_has (Or.inl there))
    · rcases List.mem_cons.mp mem with rfl | later
      · exact Or.inl (mergeProperty_has (Or.inr rfl))
      · exact Or.inr later

/-- What an object branch that has the property contributes. -/
theorem merge_has {into : JsonMap}
    (named : into.has name = true ∨ ∃ branch, some branch ∈ branches ∧
      anthropicSchemaBranchIsObject (some branch) = true ∧
      (anthropicSchemaProperties branch).has name = true) :
    JsonMap.has (mergeAnthropicObjectBranchProperties anthropicSchemaJSONEqual into branches) name =
      true := by
  unfold mergeAnthropicObjectBranchProperties
  induction branches generalizing into with
  | nil => simpa using named
  | cons first rest ih =>
    rw [List.foldl_cons]
    apply ih
    rcases named with there | ⟨branch, mem, object_, has_⟩
    · left
      split
      · split
        · exact there
        · split
          · exact foldl_mergeProperty_has (Or.inl there)
          · exact there
      · exact there
    · rcases List.mem_cons.mp mem with rfl | later
      · left
        rw [if_pos object_]
        unfold anthropicSchemaProperties at has_
        rw [Option.bind_some]
        split at has_
        · cases has_
        · split at has_
          · exact foldl_mergeProperty_has (Or.inr has_)
          · cases has_
      · exact Or.inr ⟨branch, later, object_, has_⟩

theorem gather_has {g : Gathered} {keyword name : String}
    (named : g.properties.has name = true ∨ ∃ branches branch, branchesOf keyword = some branches ∧
      some branch ∈ branches ∧ anthropicSchemaBranchIsObject (some branch) = true ∧
      (anthropicSchemaProperties branch).has name = true) :
    (gather anthropicSchemaJSONEqual branchesOf g keyword).properties.has name = true := by
  unfold gather
  cases decoded : branchesOf keyword with
  | none =>
    rcases named with there | ⟨branches, branch, decoded', -⟩
    · exact there
    · rw [decoded] at decoded'
      cases decoded'
  | some branches =>
    dsimp only
    have merged : JsonMap.has
        (mergeAnthropicObjectBranchProperties anthropicSchemaJSONEqual g.properties branches)
        name = true := by
      apply merge_has
      rcases named with there | ⟨branches', branch, decoded', mem, object_, has_⟩
      · exact Or.inl there
      · rw [decoded] at decoded'
        cases decoded'
        exact Or.inr ⟨branch, mem, object_, has_⟩
    split <;> exact merged

theorem foldl_gather_has {g : Gathered} {keywords : List String}
    (named : g.properties.has name = true ∨ ∃ keyword branches branch, keyword ∈ keywords ∧
      branchesOf keyword = some branches ∧ some branch ∈ branches ∧
      anthropicSchemaBranchIsObject (some branch) = true ∧
      (anthropicSchemaProperties branch).has name = true) :
    (keywords.foldl (gather anthropicSchemaJSONEqual branchesOf) g).properties.has name = true := by
  induction keywords generalizing g with
  | nil => simpa using named
  | cons keyword rest ih =>
    apply ih
    rcases named with there | ⟨keyword', branches, branch, mem, decoded, found⟩
    · exact Or.inl (gather_has (Or.inl there))
    · rcases List.mem_cons.mp mem with rfl | later
      · exact Or.inl (gather_has (Or.inr ⟨branches, branch, decoded, found⟩))
      · exact Or.inr ⟨keyword', branches, branch, later, decoded, found⟩

theorem flattenRoot_has {schema : JsonMap}
    (some_ : anthropicInputSchemaUnionKeywords.filter schema.has ≠ []) :
    let g := (anthropicInputSchemaUnionKeywords.filter schema.has).foldl
      (gather anthropicSchemaJSONEqual branchesOf) { properties := anthropicSchemaProperties schema }
    g.properties.has name = true →
      (anthropicSchemaProperties
        (flattenRoot anthropicSchemaJSONEqual schema branchesOf)).has name = true := by
  intro g named
  have nonempty : g.properties ≠ [] := by
    intro none_
    rw [none_] at named
    cases named
  unfold anthropicSchemaProperties
  rw [flattenRoot_get some_, if_neg (by simp), if_pos ⟨rfl, nonempty⟩]
  exact (JsonMap.has_ofMembers _ _).mpr (JsonMap.has_iff.mp named)

/-- The type of a branch is not touched. -/
theorem flattened_type (schema : JsonMap) :
    (flattenAnthropicRootUnions anthropicSchemaJSONEqual schema).get "type" =
      schema.get "type" := by
  rw [flattenAnthropicRootUnions_eq]
  by_cases none_ : anthropicInputSchemaUnionKeywords.filter schema.has = []
  · unfold flattenRoot
    rw [if_pos (by rw [none_]; rfl)]
  · rw [flattenRoot_get none_]
    simp [anthropicInputSchemaUnionKeywords]

theorem names_flattened {schema : JsonMap} (names : Names schema name) :
    (anthropicSchemaProperties
      (flattenAnthropicRootUnions anthropicSchemaJSONEqual schema)).has name = true := by
  induction names with
  | @own schema name there =>
    rw [flattenAnthropicRootUnions_eq]
    by_cases none_ : anthropicInputSchemaUnionKeywords.filter schema.has = []
    · unfold flattenRoot
      rw [if_pos (by rw [none_]; rfl)]
      exact there
    · exact flattenRoot_has none_ (foldl_gather_has (Or.inl there))
  | @branch schema name keyword items members union found mem mayBe _ ih =>
    have present : keyword ∈ anthropicInputSchemaUnionKeywords.filter schema.has := by
      refine List.mem_filter.mpr ⟨union, ?_⟩
      rw [JsonMap.has, found]
      rfl
    have decoded : decodeAnthropicUnionBranches anthropicSchemaJSONEqual (.array items) =
        some (items.map (flattenBranch anthropicSchemaJSONEqual)) := by
      refine if_neg ?_
      intro none_
      rw [List.eq_nil_of_length_eq_zero none_] at mem
      cases mem
    have object_ : anthropicSchemaBranchIsObject (some
        (flattenAnthropicRootUnions anthropicSchemaJSONEqual (.ofMembers members))) = true := by
      unfold anthropicSchemaBranchIsObject
      dsimp only
      rw [flattened_type]
      split
      · rename_i raw typed
        exact decide_eq_true (mayBe raw typed)
      · unfold anthropicSchemaProperties at ih
        unfold JsonMap.has
        split at ih
        · cases ih
        · rename_i raw there
          rw [there]
          rfl
    have inBranches : some (flattenAnthropicRootUnions anthropicSchemaJSONEqual
        (.ofMembers members)) ∈ items.map (flattenBranch anthropicSchemaJSONEqual) :=
      List.mem_map_of_mem (f := flattenBranch anthropicSchemaJSONEqual) mem
    rw [flattenAnthropicRootUnions_eq]
    apply flattenRoot_has (fun none_ => by rw [none_] at present; cases present)
    apply foldl_gather_has
    right
    refine ⟨keyword, _, _, present, ?_, inBranches, object_, ih⟩
    rw [found]
    exact decoded

/-! ### No union is left -/

theorem flattened_no_union {schema : JsonMap} {keyword : String}
    (union : keyword ∈ anthropicInputSchemaUnionKeywords) :
    (flattenAnthropicRootUnions anthropicSchemaJSONEqual schema).has keyword = false := by
  rw [flattenAnthropicRootUnions_eq]
  by_cases none_ : anthropicInputSchemaUnionKeywords.filter schema.has = []
  · unfold flattenRoot
    rw [if_pos (by rw [none_]; rfl)]
    have absent := List.filter_eq_nil_iff.mp none_ keyword union
    simpa using absent
  · unfold JsonMap.has
    rw [flattenRoot_get none_, if_neg, if_neg, if_pos union]
    · rfl
    · rintro ⟨rfl, -⟩
      exact absurd union (by decide)
    · rintro ⟨rfl, -⟩
      exact absurd union (by decide)

/-- A schema without a union at its root stays. -/
theorem flatten_of_no_union {schema : JsonMap}
    (none_ : ∀ keyword ∈ anthropicInputSchemaUnionKeywords, schema.has keyword = false) :
    flattenAnthropicRootUnions anthropicSchemaJSONEqual schema = schema := by
  rw [flattenAnthropicRootUnions_eq]
  unfold flattenRoot
  have absent : anthropicInputSchemaUnionKeywords.filter schema.has = [] :=
    List.filter_eq_nil_iff.mpr fun keyword union => by simp [none_ keyword union]
  rw [if_pos (by rw [absent]; rfl)]

/-- Flattening the unions at the root of a schema never demands more: keys that meet the schema
have all that the result requires; the properties of the root and of its object branches are in the
result; no union is left at its root; and flattening it again changes nothing. -/
theorem flatten_demands_no_more (anthropicSchemaJSONEqual : JsonValue → JsonValue → Bool)
    (schema : JsonMap) :
    let flat := flattenAnthropicRootUnions anthropicSchemaJSONEqual schema
    (∀ keys : Set String, Satisfies keys schema →
        ∀ name ∈ anthropicBranchRequired (some flat), name ∈ keys) ∧
      (∀ name, Names schema name → (anthropicSchemaProperties flat).has name = true) ∧
      (∀ keyword ∈ anthropicInputSchemaUnionKeywords, flat.has keyword = false) ∧
      flattenAnthropicRootUnions anthropicSchemaJSONEqual flat = flat :=
  ⟨fun _ => required_flattened, fun _ => names_flattened, fun _ => flattened_no_union,
    flatten_of_no_union fun _ => flattened_no_union⟩

namespace Sample

/-- A union of one branch, a string by its type that names a property. -/
def schema : JsonMap :=
  [("oneOf", .array [.object [("type", .string "string"),
    ("properties", .object [("a", .object [])])]])]

end Sample

/-- The property that a branch names is lost when the branch is no object by its type. -/
theorem string_branch_loses :
    (anthropicSchemaProperties (.ofMembers [("type", .string "string"),
        ("properties", .object [("a", .object [])])])).has "a" = true ∧
      (anthropicSchemaProperties
        (flattenAnthropicRootUnions (fun _ _ => false) Sample.schema)).has "a" = false := by
  decide +kernel

end Flattening

end Sub2api.ApiCompat.ToolSchema
