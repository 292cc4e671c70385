import Mathlib.Data.List.Dedup
import Sub2api.ChannelModels.Patterns

/-!
# Looking models up

The channel cache expands the pricing and the mapping of a channel into exact names and prefixes
for each of its groups. `pricingIndex` and `mappingIndex` are the tables of one group and platform
in it; they hold what the conflict checks have compared, so a look-up finds the one pattern that
matches (`lookups_unambiguous`).
-/

namespace Sub2api.ChannelModels

open Go (hasSuffix trimSuffix hasPrefix)

/-! ### Channels -/

/-- `ChannelModelPricing`; `prices` stands for its prices. -/
structure ChannelModelPricing (P : Type) where
  platform : String
  models : List String
  prices : P

/-- A Go map from sources to targets by platform, in the order of an iteration. -/
abbrev ModelMapping := List (String × List (String × String))

structure Channel (P : Type) where
  groupIDs : List ℤ
  modelPricing : List (ChannelModelPricing P)
  modelMapping : ModelMapping

/-! ### Platforms -/

def platformComposite : String := "composite"

def platformIDs : List String :=
  ["anthropic", "openai", "gemini", "antigravity", "grok", "kimi", "zhipu", "deepseek",
    "deepseek_web", "madao", "arena", "minimax", "cursor", "windsurf", "teleagent", "opencode_go",
    "kilo", "typesafe", "command_code", "cline", "doubao", "traework", "workbuddy", "vibex", "zcode",
    "qoder", "systemone", "laya", "jev", "model3d", "v0"]

def isConcretePlatform (id : String) : Bool := id ∈ platformIDs

def compositePrecedenceHead : List String := ["anthropic", "gemini", "openai"]

def compositePrecedencePlatformIDs : List String :=
  compositePrecedenceHead ++ platformIDs.filter (· ∉ compositePrecedenceHead)

def isPlatformPricingMatch (groupPlatform pricingPlatform : String) : Bool :=
  if groupPlatform = platformComposite then isConcretePlatform pricingPlatform
  else groupPlatform == pricingPlatform

def matchingPlatforms (groupPlatform : String) : List String :=
  if groupPlatform = platformComposite then compositePrecedencePlatformIDs else [groupPlatform]

/-! ### Validation -/

inductive ConflictKind where
  | modelPattern
  | mappingPattern

/-- A conflict of two patterns of a platform. -/
structure ConflictError where
  kind : ConflictKind
  first : String
  second : String
  platform : String

def ConflictKind.code : ConflictKind → String
  | .modelPattern => "MODEL_PATTERN_CONFLICT"
  | .mappingPattern => "MAPPING_PATTERN_CONFLICT"

def ConflictKind.label : ConflictKind → String
  | .modelPattern => "model patterns"
  | .mappingPattern => "mapping source patterns"

def ConflictError.message (e : ConflictError) : String :=
  e.kind.label ++ " '" ++ e.first ++ "' and '" ++ e.second ++ "' conflict in platform '" ++
    e.platform ++ "': overlapping match range (model names are matched case-insensitively, so " ++
    "an existing entry already covers all case variants)"

def conflictError (kind : ConflictKind) (platform : String) (entries : List ModelEntry) :
    Option ConflictError :=
  (detectConflicts entries).map fun (a, b) => ⟨kind, a.pattern, b.pattern, platform⟩

variable {P : Type}

/-- The entries of a platform, in the order of the pricing list. -/
def pricingEntries (l : LowerCase) (platform : String) (pricingList : List (ChannelModelPricing P)) :
    List ModelEntry :=
  (pricingList.filter (·.platform == platform)).flatMap fun p =>
    p.models.map (toPricingModelEntry l)

def validateNoConflictingModels (l : LowerCase) (pricingList : List (ChannelModelPricing P)) :
    Option ConflictError :=
  (pricingList.map (·.platform)).dedup.findSome? fun platform =>
    conflictError .modelPattern platform (pricingEntries l platform pricingList)

def validateNoConflictingMappings (l : LowerCase) (mapping : ModelMapping) : Option ConflictError :=
  mapping.findSome? fun (platform, platformMapping) =>
    conflictError .mappingPattern platform (platformMapping.map fun (src, _) => toModelEntry l src)

/-- What `validateChannelConfig` checks of the patterns; it accepts no channel that fails here. -/
def Accepted (l : LowerCase) (ch : Channel P) : Prop :=
  validateNoConflictingModels l ch.modelPricing = none ∧
    validateNoConflictingMappings l ch.modelMapping = none

/-! ### The cache -/

structure ChannelModelKey where
  groupID : ℤ
  platform : String
  model : String
  deriving DecidableEq

structure ChannelGroupPlatformKey where
  groupID : ℤ
  platform : String
  deriving DecidableEq

structure ChannelCache (P : Type) where
  pricingByGroupModel : ChannelModelKey → Option (ChannelModelPricing P) := fun _ => none
  wildcardByGroupPlatform : ChannelGroupPlatformKey → List (String × ChannelModelPricing P) :=
    fun _ => []
  mappingByGroupModel : ChannelModelKey → Option String := fun _ => none
  wildcardMappingByGP : ChannelGroupPlatformKey → List (String × String) := fun _ => []

namespace ChannelCache

def addPricing (l : LowerCase) (gid : ℤ) (pricing : ChannelModelPricing P)
    (cache : ChannelCache P) (model : String) : ChannelCache P :=
  let gpKey : ChannelGroupPlatformKey := ⟨gid, pricing.platform⟩
  if hasSuffix model "*" then
    let stem := normalizeChannelPricingModelName l (trimSuffix model "*")
    { cache with
      wildcardByGroupPlatform := Function.update cache.wildcardByGroupPlatform gpKey
        (cache.wildcardByGroupPlatform gpKey ++ [(stem, pricing)]) }
  else
    let key : ChannelModelKey :=
      ⟨gid, pricing.platform, normalizeChannelPricingModelName l model⟩
    { cache with pricingByGroupModel := Function.update cache.pricingByGroupModel key (some pricing) }

def expandPricing (l : LowerCase) (ch : Channel P) (gid : ℤ) (platform : String)
    (cache : ChannelCache P) : ChannelCache P :=
  ch.modelPricing.foldl (fun cache pricing =>
    if !isPlatformPricingMatch platform pricing.platform then cache
    else pricing.models.foldl (addPricing l gid pricing) cache) cache

def addMapping (l : LowerCase) (gid : ℤ) (platform : String) (cache : ChannelCache P)
    (entry : String × String) : ChannelCache P :=
  let (src, dst) := entry
  let gpKey : ChannelGroupPlatformKey := ⟨gid, platform⟩
  if hasSuffix src "*" then
    { cache with
      wildcardMappingByGP := Function.update cache.wildcardMappingByGP gpKey
        (cache.wildcardMappingByGP gpKey ++ [(l.lower (trimSuffix src "*"), dst)]) }
  else
    let key : ChannelModelKey := ⟨gid, platform, l.lower src⟩
    { cache with mappingByGroupModel := Function.update cache.mappingByGroupModel key (some dst) }

def expandMapping (l : LowerCase) (ch : Channel P) (gid : ℤ) (platform : String)
    (cache : ChannelCache P) : ChannelCache P :=
  (matchingPlatforms platform).foldl (fun cache mappingPlatform =>
    match ch.modelMapping.lookup mappingPlatform with
    | none => cache
    | some platformMapping => platformMapping.foldl (addMapping l gid mappingPlatform) cache) cache

def expandGroup (l : LowerCase) (groupPlatforms : ℤ → String) (ch : Channel P)
    (cache : ChannelCache P) (gid : ℤ) : ChannelCache P :=
  (cache.expandPricing l ch gid (groupPlatforms gid)).expandMapping l ch gid (groupPlatforms gid)

/-- The model tables of `populateChannelCache`. -/
def populate (l : LowerCase) (groupPlatforms : ℤ → String) (channels : List (Channel P)) :
    ChannelCache P :=
  channels.foldl (fun cache ch => ch.groupIDs.foldl (expandGroup l groupPlatforms ch) cache) {}

def matchWildcard (cache : ChannelCache P) (groupID : ℤ) (platform modelLower : String) :
    Option (ChannelModelPricing P) :=
  ((cache.wildcardByGroupPlatform ⟨groupID, platform⟩).find? fun wc =>
    hasPrefix modelLower wc.1).map Prod.snd

def matchWildcardMapping (cache : ChannelCache P) (groupID : ℤ) (platform modelLower : String) :
    String :=
  (((cache.wildcardMappingByGP ⟨groupID, platform⟩).find? fun wc =>
    hasPrefix modelLower wc.1).map Prod.snd).getD ""

end ChannelCache

def lookupPricingAcrossPlatforms (l : LowerCase) (cache : ChannelCache P) (groupID : ℤ)
    (groupPlatform modelLower : String) : Option (ChannelModelPricing P) :=
  let modelLower := normalizeChannelPricingModelName l modelLower
  ((matchingPlatforms groupPlatform).findSome? fun p =>
      cache.pricingByGroupModel ⟨groupID, p, modelLower⟩).or
    ((matchingPlatforms groupPlatform).findSome? fun p => cache.matchWildcard groupID p modelLower)

def lookupMappingAcrossPlatforms (cache : ChannelCache P) (groupID : ℤ)
    (groupPlatform modelLower : String) : String :=
  match (matchingPlatforms groupPlatform).findSome? fun p =>
      cache.mappingByGroupModel ⟨groupID, p, modelLower⟩ with
  | some mapped => mapped
  | none =>
    ((matchingPlatforms groupPlatform).find? fun p =>
      cache.matchWildcardMapping groupID p modelLower != "").elim "" fun p =>
        cache.matchWildcardMapping groupID p modelLower

/-! ### The tables of a group -/

section Tables

variable {l : LowerCase} {cache : ChannelCache P} {ch : Channel P} {gid gid' : ℤ}
  {platform platform' : String}

def ChannelCache.pricingIndex (cache : ChannelCache P) (gid : ℤ) (platform : String) :
    Index (ChannelModelPricing P) where
  exact model := cache.pricingByGroupModel ⟨gid, platform, model⟩
  wildcards := cache.wildcardByGroupPlatform ⟨gid, platform⟩

def ChannelCache.mappingIndex (cache : ChannelCache P) (gid : ℤ) (platform : String) :
    Index String where
  exact model := cache.mappingByGroupModel ⟨gid, platform, model⟩
  wildcards := cache.wildcardMappingByGP ⟨gid, platform⟩

/-- The patterns of a platform with their pricing. -/
def pricingPatterns (l : LowerCase) (platform : String) (pricing : List (ChannelModelPricing P)) :
    List (ModelEntry × ChannelModelPricing P) :=
  (pricing.filter (·.platform == platform)).flatMap fun p =>
    p.models.map fun model => (toPricingModelEntry l model, p)

/-- The source patterns of a platform with their targets. -/
def mappingPatterns (l : LowerCase) (platform : String) (mapping : ModelMapping) :
    List (ModelEntry × String) :=
  ((mapping.lookup platform).getD []).map fun (src, dst) => (toModelEntry l src, dst)

theorem toPricingModelEntry_eq (model : String) : toPricingModelEntry l model =
    if hasSuffix model "*" then
      ⟨model, normalizeChannelPricingModelName l (trimSuffix model "*"), true⟩
    else ⟨model, normalizeChannelPricingModelName l model, false⟩ := by
  unfold toPricingModelEntry splitWildcardSuffix
  cases hasSuffix model "*" <;> rfl

theorem toModelEntry_eq (src : String) : toModelEntry l src =
    if hasSuffix src "*" then ⟨src, l.lower (trimSuffix src "*"), true⟩
    else ⟨src, l.lower src, false⟩ := by
  unfold toModelEntry splitWildcardSuffix
  rw [hasSuffix_star, trimSuffix_star]
  cases hasSuffix src "*" <;> rfl

theorem addPricing_pricingIndex (pricing : ChannelModelPricing P) (model : String) :
    (cache.addPricing l gid pricing model).pricingIndex gid pricing.platform =
      (cache.pricingIndex gid pricing.platform).insert (toPricingModelEntry l model, pricing) := by
  rw [toPricingModelEntry_eq]
  unfold ChannelCache.addPricing
  generalize normalizeChannelPricingModelName l (trimSuffix model "*") = stem
  generalize normalizeChannelPricingModelName l model = name
  cases hasSuffix model "*" with
  | true =>
      simp only [if_true, Index.insert, ChannelCache.pricingIndex, Function.update_self]
  | false =>
      simp only [Bool.false_eq_true, if_false, Index.insert, ChannelCache.pricingIndex,
        Index.mk.injEq, and_true]
      funext other
      by_cases here : other = name
      · rw [here, Function.update_self, Function.update_self]
      · rw [Function.update_of_ne here, Function.update_of_ne]
        exact fun same => here (congrArg ChannelModelKey.model same)

/-- What an update of a Go map leaves alone. -/
theorem update_elsewhere {V : Type} {table : ChannelModelKey → V} {v : V} {name : String}
    (other : gid' ≠ gid ∨ platform' ≠ platform) :
    (fun model => Function.update table ⟨gid, platform, name⟩ v ⟨gid', platform', model⟩) =
      fun model => table ⟨gid', platform', model⟩ := by
  funext model
  apply Function.update_of_ne
  intro same
  cases same
  exact other.elim (fun differ => differ rfl) fun differ => differ rfl

theorem update_wildcards_elsewhere {V : Type} {table : ChannelGroupPlatformKey → V} {v : V}
    (other : gid' ≠ gid ∨ platform' ≠ platform) :
    Function.update table ⟨gid, platform⟩ v ⟨gid', platform'⟩ = table ⟨gid', platform'⟩ := by
  apply Function.update_of_ne
  intro same
  cases same
  exact other.elim (fun differ => differ rfl) fun differ => differ rfl

theorem addPricing_pricingIndex_of_ne (pricing : ChannelModelPricing P) (model : String)
    (other : gid' ≠ gid ∨ platform' ≠ pricing.platform) :
    (cache.addPricing l gid pricing model).pricingIndex gid' platform' =
      cache.pricingIndex gid' platform' := by
  unfold ChannelCache.addPricing
  cases hasSuffix model "*" with
  | true =>
      simp only [if_true, ChannelCache.pricingIndex, update_wildcards_elsewhere other]
  | false =>
      simp only [Bool.false_eq_true, if_false, ChannelCache.pricingIndex, update_elsewhere other]

theorem addPricing_mappingIndex (pricing : ChannelModelPricing P) (model : String) :
    (cache.addPricing l gid pricing model).mappingIndex gid' platform' =
      cache.mappingIndex gid' platform' := by
  unfold ChannelCache.addPricing
  cases hasSuffix model "*" <;> rfl

theorem addMapping_mappingIndex (entry : String × String) :
    (cache.addMapping l gid platform entry).mappingIndex gid platform =
      (cache.mappingIndex gid platform).insert (toModelEntry l entry.1, entry.2) := by
  rw [toModelEntry_eq]
  unfold ChannelCache.addMapping
  dsimp only
  generalize l.lower (trimSuffix entry.1 "*") = stem
  generalize l.lower entry.1 = name
  cases hasSuffix entry.1 "*" with
  | true =>
      simp only [if_true, Index.insert, ChannelCache.mappingIndex, Function.update_self]
  | false =>
      simp only [Bool.false_eq_true, if_false, Index.insert, ChannelCache.mappingIndex,
        Index.mk.injEq, and_true]
      funext other
      by_cases here : other = name
      · rw [here, Function.update_self, Function.update_self]
      · rw [Function.update_of_ne here, Function.update_of_ne]
        exact fun same => here (congrArg ChannelModelKey.model same)

theorem addMapping_mappingIndex_of_ne (entry : String × String)
    (other : gid' ≠ gid ∨ platform' ≠ platform) :
    (cache.addMapping l gid platform entry).mappingIndex gid' platform' =
      cache.mappingIndex gid' platform' := by
  unfold ChannelCache.addMapping
  dsimp only
  cases hasSuffix entry.1 "*" with
  | true =>
      simp only [if_true, ChannelCache.mappingIndex, update_wildcards_elsewhere other]
  | false =>
      simp only [Bool.false_eq_true, if_false, ChannelCache.mappingIndex, update_elsewhere other]

theorem addMapping_pricingIndex (entry : String × String) :
    (cache.addMapping l gid platform entry).pricingIndex gid' platform' =
      cache.pricingIndex gid' platform' := by
  unfold ChannelCache.addMapping
  dsimp only
  cases hasSuffix entry.1 "*" <;> rfl

/-! ### What a channel's groups hold -/

/-- A fold keeps what every step keeps. -/
theorem foldl_keeps {σ α β : Type} (g : σ → β) {f : σ → α → σ} (xs : List α) {s : σ}
    (keeps : ∀ s x, g (f s x) = g s) : g (xs.foldl f s) = g s := by
  induction xs generalizing s with
  | nil => rfl
  | cons x rest ih => rw [List.foldl_cons, ih, keeps]

theorem foldl_addPricing (pricing : ChannelModelPricing P) (models : List String) :
    (models.foldl (ChannelCache.addPricing l gid pricing) cache).pricingIndex gid pricing.platform =
      (models.map fun model => (toPricingModelEntry l model, pricing)).foldl Index.insert
        (cache.pricingIndex gid pricing.platform) := by
  induction models generalizing cache with
  | nil => rfl
  | cons model rest ih => rw [List.foldl_cons, ih, addPricing_pricingIndex, List.map_cons,
      List.foldl_cons]

theorem expandPricing_pricingIndex (concrete : platform ≠ platformComposite) :
    (cache.expandPricing l ch gid platform).pricingIndex gid platform =
      (pricingPatterns l platform ch.modelPricing).foldl Index.insert
        (cache.pricingIndex gid platform) := by
  unfold ChannelCache.expandPricing pricingPatterns
  induction ch.modelPricing generalizing cache with
  | nil => rfl
  | cons pricing rest ih =>
      rw [List.foldl_cons, ih, isPlatformPricingMatch, if_neg concrete]
      by_cases here : platform = pricing.platform
      · subst here
        have kept : (pricing :: rest).filter (·.platform == pricing.platform) =
            pricing :: rest.filter (·.platform == pricing.platform) :=
          List.filter_cons_of_pos (beq_self_eq_true pricing.platform)
        rw [kept, List.flatMap_cons, List.foldl_append, beq_self_eq_true, if_neg (by decide),
          foldl_addPricing]
      · have dropped : (pricing :: rest).filter (·.platform == platform) =
            rest.filter (·.platform == platform) :=
          List.filter_cons_of_neg fun same => here (beq_iff_eq.mp same).symm
        rw [dropped, beq_eq_false_iff_ne.mpr here, if_pos (by decide)]

theorem expandPricing_pricingIndex_of_ne (other : gid' ≠ gid) :
    (cache.expandPricing l ch gid platform).pricingIndex gid' platform' =
      cache.pricingIndex gid' platform' := by
  apply foldl_keeps fun cache : ChannelCache P => cache.pricingIndex gid' platform'
  intro cache pricing
  split
  · rfl
  · exact foldl_keeps (fun cache : ChannelCache P => cache.pricingIndex gid' platform') _ fun _ _ =>
      addPricing_pricingIndex_of_ne _ _ (Or.inl other)

theorem expandPricing_mappingIndex :
    (cache.expandPricing l ch gid platform).mappingIndex gid' platform' =
      cache.mappingIndex gid' platform' := by
  apply foldl_keeps fun cache : ChannelCache P => cache.mappingIndex gid' platform'
  intro cache pricing
  split
  · rfl
  · exact foldl_keeps (fun cache : ChannelCache P => cache.mappingIndex gid' platform') _ fun _ _ =>
      addPricing_mappingIndex _ _

theorem foldl_addMapping (entries : List (String × String)) :
    (entries.foldl (ChannelCache.addMapping l gid platform) cache).mappingIndex gid platform =
      (entries.map fun (src, dst) => (toModelEntry l src, dst)).foldl Index.insert
        (cache.mappingIndex gid platform) := by
  induction entries generalizing cache with
  | nil => rfl
  | cons entry rest ih => rw [List.foldl_cons, ih, addMapping_mappingIndex, List.map_cons,
      List.foldl_cons]

theorem expandMapping_mappingIndex (concrete : platform ≠ platformComposite) :
    (cache.expandMapping l ch gid platform).mappingIndex gid platform =
      (mappingPatterns l platform ch.modelMapping).foldl Index.insert
        (cache.mappingIndex gid platform) := by
  unfold ChannelCache.expandMapping mappingPatterns matchingPlatforms
  rw [if_neg concrete, List.foldl_cons, List.foldl_nil]
  cases ch.modelMapping.lookup platform with
  | none => rfl
  | some entries => exact foldl_addMapping entries

theorem expandMapping_mappingIndex_of_ne (other : gid' ≠ gid) :
    (cache.expandMapping l ch gid platform).mappingIndex gid' platform' =
      cache.mappingIndex gid' platform' := by
  apply foldl_keeps fun cache : ChannelCache P => cache.mappingIndex gid' platform'
  intro cache _
  split
  · rfl
  · exact foldl_keeps (fun cache : ChannelCache P => cache.mappingIndex gid' platform') _ fun _ _ =>
      addMapping_mappingIndex_of_ne _ (Or.inl other)

theorem expandMapping_pricingIndex :
    (cache.expandMapping l ch gid platform).pricingIndex gid' platform' =
      cache.pricingIndex gid' platform' := by
  apply foldl_keeps fun cache : ChannelCache P => cache.pricingIndex gid' platform'
  intro cache _
  split
  · rfl
  · exact foldl_keeps (fun cache : ChannelCache P => cache.pricingIndex gid' platform') _ fun _ _ =>
      addMapping_pricingIndex _

end Tables

/-! ### Every group -/

/-- The table was filled with some of the patterns, each as often as it happened to be. -/
def Filled {V : Type} (patterns : List (ModelEntry × V)) (index : Index V) : Prop :=
  ∃ entries, index = entries.foldl Index.insert {} ∧ entries ⊆ patterns

/-- The table was filled with all of them. -/
def Full {V : Type} (patterns : List (ModelEntry × V)) (index : Index V) : Prop :=
  ∃ entries, index = entries.foldl Index.insert {} ∧ entries ⊆ patterns ∧ patterns ⊆ entries

theorem Filled.insert {V : Type} {patterns : List (ModelEntry × V)} {index : Index V}
    (filled : Filled patterns index) : Full patterns (patterns.foldl Index.insert index) := by
  obtain ⟨entries, rfl, sub⟩ := filled
  refine ⟨entries ++ patterns, (List.foldl_append ..).symm, ?_, List.subset_append_right _ _⟩
  exact List.append_subset.mpr ⟨sub, List.Subset.refl _⟩

theorem Full.filled {V : Type} {patterns : List (ModelEntry × V)} {index : Index V}
    (full : Full patterns index) : Filled patterns index := by
  obtain ⟨entries, same, sub, -⟩ := full
  exact ⟨entries, same, sub⟩

/-- A full table finds the one pattern that matches. -/
theorem Full.lookup_iff {V : Type} {patterns : List (ModelEntry × V)} {index : Index V}
    (full : Full patterns index) (apart : Apart (patterns.map Prod.fst)) (name : String) (v : V) :
    index.lookup name = some v ↔ ∃ entry ∈ patterns, entry.1.matches_ name = true ∧ entry.2 = v := by
  obtain ⟨entries, rfl, sub, all⟩ := full
  rw [Index.lookup_eq_some_iff fun a memA b memB first second =>
    congrArg Prod.snd (apart.eq_of_matches (sub memA) (sub memB) first second)]
  constructor
  · rintro ⟨entry, mem, matched⟩
    exact ⟨entry, sub mem, matched⟩
  · rintro ⟨entry, mem, matched⟩
    exact ⟨entry, all mem, matched⟩

section Populate

variable {l : LowerCase} {groupPlatforms : ℤ → String} {cache : ChannelCache P} {ch : Channel P}
  {gid : ℤ}

/-- The tables of a group on its platform. -/
structure Holds (l : LowerCase) (ch : Channel P) (platform : String)
    (state : ∀ {V : Type}, List (ModelEntry × V) → Index V → Prop) (gid : ℤ)
    (cache : ChannelCache P) : Prop where
  pricing : state (pricingPatterns l platform ch.modelPricing) (cache.pricingIndex gid platform)
  mapping : state (mappingPatterns l platform ch.modelMapping) (cache.mappingIndex gid platform)

theorem expandGroup_full (concrete : groupPlatforms gid ≠ platformComposite)
    (filled : Holds l ch (groupPlatforms gid) Filled gid cache) :
    Holds l ch (groupPlatforms gid) Full gid (cache.expandGroup l groupPlatforms ch gid) := by
  unfold ChannelCache.expandGroup
  constructor
  · rw [expandMapping_pricingIndex, expandPricing_pricingIndex concrete]
    exact filled.pricing.insert
  · rw [expandMapping_mappingIndex concrete, expandPricing_mappingIndex]
    exact filled.mapping.insert

variable (l groupPlatforms cache ch) in
theorem expandGroup_of_ne {gid' : ℤ} (other : gid ≠ gid') (platform : String) :
    (cache.expandGroup l groupPlatforms ch gid').pricingIndex gid platform =
        cache.pricingIndex gid platform ∧
      (cache.expandGroup l groupPlatforms ch gid').mappingIndex gid platform =
        cache.mappingIndex gid platform := by
  unfold ChannelCache.expandGroup
  rw [expandMapping_pricingIndex, expandPricing_pricingIndex_of_ne other,
    expandMapping_mappingIndex_of_ne other, expandPricing_mappingIndex]
  exact ⟨rfl, rfl⟩

variable (l groupPlatforms cache ch) in
theorem expandGroups_of_notMem {groups : List ℤ} (absent : gid ∉ groups) (platform : String) :
    (groups.foldl (ChannelCache.expandGroup l groupPlatforms ch) cache).pricingIndex gid platform =
        cache.pricingIndex gid platform ∧
      (groups.foldl (ChannelCache.expandGroup l groupPlatforms ch) cache).mappingIndex gid platform =
        cache.mappingIndex gid platform := by
  induction groups generalizing cache with
  | nil => exact ⟨rfl, rfl⟩
  | cons gid' rest ih =>
      obtain ⟨pricing, mapping⟩ := ih (cache.expandGroup l groupPlatforms ch gid')
        fun later => absent (List.mem_cons_of_mem _ later)
      obtain ⟨pricing', mapping'⟩ := expandGroup_of_ne l groupPlatforms cache ch
        (fun same : gid = gid' =>
          absent (by rw [same]; exact List.mem_cons_self)) platform
      exact ⟨pricing.trans pricing', mapping.trans mapping'⟩

theorem expandGroups_full {groups : List ℤ} (mem : gid ∈ groups)
    (concrete : groupPlatforms gid ≠ platformComposite)
    (filled : Holds l ch (groupPlatforms gid) Filled gid cache) :
    Holds l ch (groupPlatforms gid) Full gid
      (groups.foldl (ChannelCache.expandGroup l groupPlatforms ch) cache) := by
  induction groups generalizing cache with
  | nil => cases mem
  | cons gid' rest ih =>
      rw [List.foldl_cons]
      by_cases here : gid = gid'
      · subst here
        have full := expandGroup_full concrete filled
        by_cases later : gid ∈ rest
        · exact ih later ⟨full.pricing.filled, full.mapping.filled⟩
        · obtain ⟨pricing, mapping⟩ := expandGroups_of_notMem l groupPlatforms
            (cache.expandGroup l groupPlatforms ch gid) ch later (groupPlatforms gid)
          exact ⟨by rw [pricing]; exact full.pricing, by rw [mapping]; exact full.mapping⟩
      · obtain ⟨pricing, mapping⟩ := expandGroup_of_ne l groupPlatforms cache ch here
          (groupPlatforms gid)
        refine ih ((List.mem_cons.mp mem).resolve_left here) ⟨?_, ?_⟩
        · rw [pricing]
          exact filled.pricing
        · rw [mapping]
          exact filled.mapping

variable (l groupPlatforms cache) in
theorem populate_of_notMem {channels : List (Channel P)}
    (absent : ∀ ch ∈ channels, gid ∉ ch.groupIDs) (platform : String) :
    (channels.foldl (fun cache ch =>
        ch.groupIDs.foldl (ChannelCache.expandGroup l groupPlatforms ch) cache) cache).pricingIndex
          gid platform = cache.pricingIndex gid platform ∧
      (channels.foldl (fun cache ch =>
        ch.groupIDs.foldl (ChannelCache.expandGroup l groupPlatforms ch) cache) cache).mappingIndex
          gid platform = cache.mappingIndex gid platform := by
  induction channels generalizing cache with
  | nil => exact ⟨rfl, rfl⟩
  | cons ch rest ih =>
      obtain ⟨pricing, mapping⟩ := ih
        (ch.groupIDs.foldl (ChannelCache.expandGroup l groupPlatforms ch) cache)
        fun ch later => absent ch (List.mem_cons_of_mem _ later)
      obtain ⟨pricing', mapping'⟩ := expandGroups_of_notMem l groupPlatforms cache ch
        (absent ch List.mem_cons_self) platform
      exact ⟨pricing.trans pricing', mapping.trans mapping'⟩

/-- A group of one channel has the tables of that channel's patterns. -/
theorem populate_full {before after : List (Channel P)} (mem : gid ∈ ch.groupIDs)
    (alone : ∀ other ∈ before ++ after, gid ∉ other.groupIDs)
    (concrete : groupPlatforms gid ≠ platformComposite) :
    Holds l ch (groupPlatforms gid) Full gid
      (ChannelCache.populate l groupPlatforms (before ++ ch :: after)) := by
  unfold ChannelCache.populate
  rw [List.foldl_append, List.foldl_cons]
  obtain ⟨pricing, mapping⟩ := populate_of_notMem l groupPlatforms ({} : ChannelCache P)
    (fun other inside => alone other (List.mem_append_left _ inside))
    (groupPlatforms gid)
  generalize before.foldl _ _ = cache at pricing mapping ⊢
  have empty : Holds l ch (groupPlatforms gid) Filled gid cache := by
    constructor
    · exact ⟨[], pricing, List.nil_subset _⟩
    · exact ⟨[], mapping, List.nil_subset _⟩
  have full := expandGroups_full mem concrete empty
  obtain ⟨pricing', mapping'⟩ := populate_of_notMem l groupPlatforms
    (ch.groupIDs.foldl (ChannelCache.expandGroup l groupPlatforms ch) cache)
    (fun other inside => alone other (List.mem_append_right _ inside)) (groupPlatforms gid)
  exact ⟨by rw [pricing']; exact full.pricing, by rw [mapping']; exact full.mapping⟩

end Populate

/-! ### Look-ups -/

section Lookups

variable {l : LowerCase} {cache : ChannelCache P} {ch : Channel P} {gid : ℤ} {platform : String}

theorem lookupPricing_eq (concrete : platform ≠ platformComposite) (name : String) :
    lookupPricingAcrossPlatforms l cache gid platform name =
      (cache.pricingIndex gid platform).lookup (normalizeChannelPricingModelName l name) := by
  unfold lookupPricingAcrossPlatforms matchingPlatforms
  rw [if_neg concrete]
  simp only [List.findSome?_singleton]
  rfl

theorem lookupMapping_eq (concrete : platform ≠ platformComposite) (name : String) :
    lookupMappingAcrossPlatforms cache gid platform name =
      ((cache.mappingIndex gid platform).lookup name).getD "" := by
  unfold lookupMappingAcrossPlatforms matchingPlatforms
  rw [if_neg concrete]
  simp only [List.findSome?_singleton, List.find?_singleton]
  unfold Index.lookup ChannelCache.mappingIndex
  dsimp only
  cases cache.mappingByGroupModel ⟨gid, platform, name⟩ with
  | some mapped => rfl
  | none =>
      dsimp only
      rw [Option.none_or]
      change _ = cache.matchWildcardMapping gid platform name
      split
      · rfl
      · rename_i empty
        rw [Bool.not_eq_true, bne_eq_false_iff_eq] at empty
        rw [empty]
        rfl

/-- No two patterns that a channel was accepted with conflict on a platform. -/
theorem Accepted.pricing_apart (accepted : Accepted l ch) (platform : String) :
    Apart ((pricingPatterns l platform ch.modelPricing).map Prod.fst) := by
  have same : (pricingPatterns l platform ch.modelPricing).map Prod.fst =
      pricingEntries l platform ch.modelPricing := by
    unfold pricingPatterns pricingEntries
    rw [List.map_flatMap]
    simp only [List.map_map, Function.comp_def]
  rw [same, ← detectConflicts_eq_none_iff]
  by_cases there : platform ∈ ch.modelPricing.map (·.platform)
  · have clear := List.findSome?_eq_none_iff.mp accepted.1 platform (List.mem_dedup.mpr there)
    exact Option.map_eq_none_iff.mp clear
  · have none_ : ch.modelPricing.filter (·.platform == platform) = [] := by
      rw [List.filter_eq_nil_iff]
      intro p mem here
      exact there (List.mem_map.mpr ⟨p, mem, beq_iff_eq.mp here⟩)
    unfold pricingEntries
    rw [none_]
    rfl

theorem Accepted.mapping_apart (accepted : Accepted l ch) (platform : String) :
    Apart ((mappingPatterns l platform ch.modelMapping).map Prod.fst) := by
  unfold mappingPatterns
  cases found : ch.modelMapping.lookup platform with
  | none => exact .nil
  | some entries =>
      obtain ⟨before, after, listed, -⟩ := List.lookup_eq_some_iff.mp found
      have mem : (platform, entries) ∈ ch.modelMapping := by
        rw [listed]
        exact List.mem_append_right _ List.mem_cons_self
      have clear := List.findSome?_eq_none_iff.mp accepted.2 (platform, entries) mem
      have apart := detectConflicts_eq_none_iff.mp (Option.map_eq_none_iff.mp clear)
      rw [Option.getD_some, List.map_map]
      exact apart

/-- The same channel with its pricing list in another order and its mapping iterated in another
one. -/
structure Reordered (ch ch' : Channel P) : Prop where
  groups : ch'.groupIDs = ch.groupIDs
  pricing : ch.modelPricing.Perm ch'.modelPricing
  mapping : ∀ platform, ((ch.modelMapping.lookup platform).getD []).Perm
    ((ch'.modelMapping.lookup platform).getD [])

theorem Reordered.pricingPatterns {ch' : Channel P} (reordered : Reordered ch ch') :
    (pricingPatterns l platform ch.modelPricing).Perm (pricingPatterns l platform ch'.modelPricing) :=
  (reordered.pricing.filter _).flatMap_right _

theorem Reordered.mappingPatterns {ch' : Channel P} (reordered : Reordered ch ch') :
    (mappingPatterns l platform ch.modelMapping).Perm (mappingPatterns l platform ch'.modelMapping) :=
  (reordered.mapping platform).map _

/-- Whether a pricing pattern matches a model name under the normalisation of pricing. -/
def pricingMatches (l : LowerCase) (pattern name : String) : Bool :=
  (toPricingModelEntry l pattern).matches_ (normalizeChannelPricingModelName l name)

/-- Whether a source of the mapping matches a model name, which is only put in lower case. -/
def mappingMatches (l : LowerCase) (pattern name : String) : Bool :=
  (toModelEntry l pattern).matches_ (l.lower name)

end Lookups

/-- **A look-up is unambiguous.** In every cache in which a group belongs to one accepted channel
only, whatever the order of its pricing list and the iteration of its mapping: on a concrete platform
the pricing found is the one entry of the platform with a pattern that matches, and the mapping found
is the target of the one source pattern that matches; an empty target counts as no mapping. -/
theorem lookups_unambiguous (l : LowerCase) (groupPlatforms : ℤ → String)
    (before after : List (Channel P)) (ch ch' : Channel P) (reordered : Reordered ch ch') (gid : ℤ)
    (inGroup : gid ∈ ch.groupIDs) (alone : ∀ other ∈ before ++ after, gid ∉ other.groupIDs)
    (concrete : groupPlatforms gid ≠ platformComposite) (accepted : Accepted l ch) (name : String) :
    let cache := ChannelCache.populate l groupPlatforms (before ++ ch' :: after)
    let platform := groupPlatforms gid
    (∀ p, lookupPricingAcrossPlatforms l cache gid platform name = some p ↔
      p ∈ ch.modelPricing ∧ p.platform = platform ∧
        ∃ pattern ∈ p.models, pricingMatches l pattern name = true) ∧
    ∃ found : Option String,
      lookupMappingAcrossPlatforms cache gid platform (l.lower name) = found.getD "" ∧
      ∀ target, found = some target ↔ ∃ src, (src, target) ∈
          (ch.modelMapping.lookup platform).getD [] ∧ mappingMatches l src name = true := by
  intro cache platform
  have full : Holds l ch' platform Full gid cache :=
    populate_full (reordered.groups ▸ inGroup) alone concrete
  have pricing := full.pricing.lookup_iff
    ((accepted.pricing_apart platform).perm (reordered.pricingPatterns.map _))
    (normalizeChannelPricingModelName l name)
  have mapping := full.mapping.lookup_iff
    ((accepted.mapping_apart platform).perm (reordered.mappingPatterns.map _)) (l.lower name)
  refine ⟨fun p => ?_, (cache.mappingIndex gid platform).lookup (l.lower name),
    lookupMapping_eq concrete _, fun target => ?_⟩
  · rw [lookupPricing_eq concrete, pricing]
    constructor
    · rintro ⟨entry, mem, matched, rfl⟩
      obtain ⟨p, listed, inside⟩ := List.mem_flatMap.mp (reordered.pricingPatterns.mem_iff.mpr mem)
      obtain ⟨listed, onPlatform⟩ := List.mem_filter.mp listed
      obtain ⟨pattern, isPattern, rfl⟩ := List.mem_map.mp inside
      exact ⟨listed, beq_iff_eq.mp onPlatform, pattern, isPattern, matched⟩
    · rintro ⟨listed, onPlatform, pattern, isPattern, matched⟩
      refine ⟨(toPricingModelEntry l pattern, p), ?_, matched, rfl⟩
      apply reordered.pricingPatterns.mem_iff.mp
      refine List.mem_flatMap.mpr ⟨p, List.mem_filter.mpr ⟨listed, beq_iff_eq.mpr onPlatform⟩, ?_⟩
      exact List.mem_map_of_mem isPattern
  · rw [mapping]
    constructor
    · rintro ⟨entry, mem, matched, rfl⟩
      obtain ⟨⟨src, dst⟩, listed, rfl⟩ := List.mem_map.mp (reordered.mappingPatterns.mem_iff.mpr mem)
      exact ⟨src, listed, matched⟩
    · rintro ⟨src, listed, matched⟩
      refine ⟨(toModelEntry l src, target), ?_, matched, rfl⟩
      apply reordered.mappingPatterns.mem_iff.mp
      exact List.mem_map.mpr ⟨(src, target), listed, rfl⟩

namespace Sample

/-- Names that are in lower case already. -/
def lowerCase : LowerCase where
  rune c := c
  star _ := Iff.rfl

/-- Two prices and a mapping with an empty target. -/
def channel : Channel ℕ where
  groupIDs := [7]
  modelPricing := [⟨"openai", ["gpt-5", "o*"], 1⟩, ⟨"openai", ["gpt-4*"], 2⟩]
  modelMapping := [("openai", [("gpt-4", ""), ("o*", "gpt-5")])]

def groupPlatforms : ℤ → String := fun _ => "openai"

theorem accepted : Accepted lowerCase channel := by
  constructor <;> decide +kernel

end Sample

theorem lookups_unambiguous_sample :
    let cache := ChannelCache.populate Sample.lowerCase Sample.groupPlatforms ([] ++ [Sample.channel])
    (∀ p, lookupPricingAcrossPlatforms Sample.lowerCase cache 7 "openai" "gpt-4o" = some p ↔
      p ∈ Sample.channel.modelPricing ∧ p.platform = "openai" ∧
        ∃ pattern ∈ p.models, pricingMatches Sample.lowerCase pattern "gpt-4o" = true) ∧
    ∃ found : Option String,
      lookupMappingAcrossPlatforms cache 7 "openai" (Sample.lowerCase.lower "gpt-4o") =
          found.getD "" ∧
      ∀ target, found = some target ↔ ∃ src, (src, target) ∈
          (Sample.channel.modelMapping.lookup "openai").getD [] ∧
        mappingMatches Sample.lowerCase src "gpt-4o" = true :=
  lookups_unambiguous Sample.lowerCase Sample.groupPlatforms [] [] Sample.channel Sample.channel
    ⟨rfl, List.Perm.refl _, fun _ => List.Perm.refl _⟩ 7 (by decide) (by simp)
    (show "openai" ≠ "composite" by decide) Sample.accepted "gpt-4o"

/-- A source with an empty target matches, and the look-up says that there is no mapping. -/
theorem emptyTarget_unmapped :
    Accepted Sample.lowerCase Sample.channel ∧
      mappingMatches Sample.lowerCase "gpt-4" "gpt-4" = true ∧
      lookupMappingAcrossPlatforms
        (ChannelCache.populate Sample.lowerCase Sample.groupPlatforms [Sample.channel]) 7 "openai"
        (Sample.lowerCase.lower "gpt-4") = "" :=
  ⟨Sample.accepted, by decide +kernel, by decide +kernel⟩

end Sub2api.ChannelModels
