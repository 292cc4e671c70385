import Mathlib.Data.List.Infix
import Mathlib.Data.List.Pairwise
import Sub2api.Go.Strings

/-!
# Model patterns

A pattern is an exact name, or what comes before its trailing star. Two patterns conflict when some
name could match both, so of a list without conflicts at most one pattern matches a name
(`conflicts_of_matches`). `Index` is the look-up table that the cache keeps for such a list, and
`Index.lookup_eq_some_iff` what it finds.
-/

namespace Sub2api.ChannelModels

open Go (hasPrefix hasPrefix_iff hasSuffix trimSuffix trimSpace)

/-! ### Normalising -/

/-- `strings.ToLower`, rune by rune: no other rune than the star becomes one. -/
structure LowerCase where
  rune : Char → Char
  star : ∀ c, rune c = '*' ↔ c = '*'

def LowerCase.lower (l : LowerCase) (s : String) : String := String.ofList (s.toList.map l.rune)

/-- `strings.ReplaceAll(s, ".", "-")`. -/
def dotsToHyphens (s : String) : String :=
  String.ofList (s.toList.map fun c => if c = '.' then '-' else c)

def normalizeChannelPricingModelName (l : LowerCase) (model : String) : String :=
  let model := l.lower (trimSpace model)
  if hasPrefix model "claude-" then dotsToHyphens model else model

def splitWildcardSuffix (pattern : String) : String × Bool :=
  if hasSuffix pattern "*" then (trimSuffix pattern "*", true) else (pattern, false)

theorem hasSuffix_star (l : LowerCase) (s : String) : hasSuffix (l.lower s) "*" = hasSuffix s "*" := by
  unfold hasSuffix LowerCase.lower
  have star : "*".toList = ['*'] := rfl
  rw [star, String.toList_ofList, Bool.eq_iff_iff, List.isSuffixOf_iff_suffix,
    List.isSuffixOf_iff_suffix]
  rcases List.eq_nil_or_concat s.toList with empty | ⟨start, last, ends⟩
  · rw [empty]
    rfl
  · rw [ends, List.concat_eq_append, List.map_append, List.map_singleton]
    have singleton : ∀ (start : List Char) (last : Char),
        ['*'] <:+ start ++ [last] ↔ last = '*' := by
      intro start last
      constructor
      · rintro ⟨before, same⟩
        exact (List.singleton_inj.mp (List.append_inj' same rfl).2).symm
      · rintro rfl
        exact List.suffix_append _ _
    rw [singleton, singleton, l.star]

theorem trimSuffix_star (l : LowerCase) (s : String) :
    trimSuffix (l.lower s) "*" = l.lower (trimSuffix s "*") := by
  unfold trimSuffix
  rw [hasSuffix_star]
  split
  · unfold LowerCase.lower
    simp only [String.toList_ofList, List.length_map, List.map_take]
  · rfl

/-! ### Entries -/

/-- `modelEntry`; `stem` is its prefix, or the name itself. -/
structure ModelEntry where
  pattern : String
  stem : String
  wildcard : Bool

def toModelEntry (l : LowerCase) (pattern : String) : ModelEntry :=
  let (stem, isWild) := splitWildcardSuffix (l.lower pattern)
  ⟨pattern, stem, isWild⟩

def toPricingModelEntry (l : LowerCase) (pattern : String) : ModelEntry :=
  let (stem, isWild) := splitWildcardSuffix pattern
  ⟨pattern, normalizeChannelPricingModelName l stem, isWild⟩

def conflictsBetween (a b : ModelEntry) : Bool :=
  match a.wildcard, b.wildcard with
  | false, false => a.stem == b.stem
  | true, false => hasPrefix b.stem a.stem
  | false, true => hasPrefix a.stem b.stem
  | true, true => hasPrefix a.stem b.stem || hasPrefix b.stem a.stem

/-- Whether a normalised name matches. -/
def ModelEntry.matches_ (e : ModelEntry) (name : String) : Bool :=
  if e.wildcard then hasPrefix name e.stem else name == e.stem

variable {a b e : ModelEntry} {name : String}

/-- Patterns that match one name conflict. -/
theorem conflicts_of_matches (first : a.matches_ name = true) (second : b.matches_ name = true) :
    conflictsBetween a b = true := by
  unfold ModelEntry.matches_ at first second
  unfold conflictsBetween
  cases wildA : a.wildcard with
  | false =>
      rw [wildA, if_neg Bool.false_ne_true, beq_iff_eq] at first
      cases wildB : b.wildcard with
      | false =>
          rw [wildB, if_neg Bool.false_ne_true, beq_iff_eq] at second
          exact beq_iff_eq.mpr (first.symm.trans second)
      | true =>
          rw [wildB, if_pos rfl, first] at second
          exact second
  | true =>
      rw [wildA, if_pos rfl] at first
      cases wildB : b.wildcard with
      | false =>
          rw [wildB, if_neg Bool.false_ne_true, beq_iff_eq] at second
          rw [second] at first
          exact first
      | true =>
          rw [wildB, if_pos rfl] at second
          rw [hasPrefix_iff] at first second
          apply (Bool.or_eq_true _ _).mpr
          rw [hasPrefix_iff, hasPrefix_iff]
          exact (List.prefix_or_prefix_of_prefix first second).symm

theorem conflictsBetween_comm (a b : ModelEntry) : conflictsBetween a b = conflictsBetween b a := by
  unfold conflictsBetween
  cases a.wildcard with
  | false =>
      cases b.wildcard with
      | false => exact Bool.beq_comm
      | true => rfl
  | true =>
      cases b.wildcard with
      | false => rfl
      | true => exact Bool.or_comm _ _

/-! ### Conflicts -/

/-- The first two entries of a list that conflict. -/
def detectConflicts : List ModelEntry → Option (ModelEntry × ModelEntry)
  | [] => none
  | a :: rest =>
    match rest.find? (conflictsBetween a) with
    | some b => some (a, b)
    | none => detectConflicts rest

/-- No two entries conflict. -/
def Apart (entries : List ModelEntry) : Prop :=
  entries.Pairwise fun a b => conflictsBetween a b = false

theorem detectConflicts_eq_none_iff {entries : List ModelEntry} :
    detectConflicts entries = none ↔ Apart entries := by
  induction entries with
  | nil => exact iff_of_true rfl .nil
  | cons a rest ih =>
      rw [Apart, List.pairwise_cons, detectConflicts]
      cases found : rest.find? (conflictsBetween a) with
      | some b =>
          apply iff_of_false nofun
          intro apart
          have conflict := List.find?_some found
          rw [apart.1 b (List.mem_of_find?_eq_some found)] at conflict
          cases conflict
      | none =>
          rw [List.find?_eq_none] at found
          dsimp only
          rw [ih]
          exact (and_iff_right fun b mem => Bool.eq_false_iff.mpr (found b mem)).symm

theorem Apart.perm {entries entries' : List ModelEntry} (apart : Apart entries)
    (same : entries.Perm entries') : Apart entries' :=
  (same.pairwise_iff fun {_ _} free => (conflictsBetween_comm _ _).trans free).mp apart

/-- Of labelled entries without conflicts at most one matches a name. -/
theorem Apart.eq_of_matches {V : Type} {entries : List (ModelEntry × V)}
    (apart : Apart (entries.map Prod.fst)) {a b : ModelEntry × V} (memA : a ∈ entries)
    (memB : b ∈ entries) (first : a.1.matches_ name = true) (second : b.1.matches_ name = true) :
    a = b := by
  by_contra differ
  have symm : Std.Symm fun a b : ModelEntry × V => conflictsBetween a.1 b.1 = false :=
    ⟨fun a b free => (conflictsBetween_comm b.1 a.1).trans free⟩
  have free := (List.pairwise_map.mp apart).forall memA memB differ
  rw [conflicts_of_matches first second] at free
  cases free

/-! ### The look-up table -/

/-- The exact names and the prefixes of one group and platform, with what they stand for. -/
structure Index (V : Type) where
  exact : String → Option V := fun _ => none
  wildcards : List (String × V) := []

namespace Index

variable {V : Type} {v : V}

/-- A later exact entry replaces an earlier one; prefixes are appended. -/
def insert (index : Index V) (entry : ModelEntry × V) : Index V :=
  if entry.1.wildcard then
    { index with wildcards := index.wildcards ++ [(entry.1.stem, entry.2)] }
  else { index with exact := Function.update index.exact entry.1.stem (some entry.2) }

def matchWildcard (index : Index V) (name : String) : Option V :=
  (index.wildcards.find? fun wc => hasPrefix name wc.1).map Prod.snd

def lookup (index : Index V) (name : String) : Option V :=
  (index.exact name).or (index.matchWildcard name)

variable {entries : List (ModelEntry × V)} {index : Index V}

/-- An entry shows what was there, and itself where it matches. -/
theorem lookup_insert_sound (entry : ModelEntry × V)
    (found : (index.insert entry).lookup name = some v) :
    index.lookup name = some v ∨ entry.1.matches_ name = true ∧ entry.2 = v := by
  unfold lookup matchWildcard insert ModelEntry.matches_ at *
  cases wild : entry.1.wildcard with
  | true =>
      rw [wild, if_pos rfl] at found
      rw [if_pos rfl]
      dsimp only at found
      cases exact_ : index.exact name with
      | some w =>
          rw [exact_] at found
          exact Or.inl found
      | none =>
          rw [exact_, Option.none_or, List.find?_append] at found
          rw [Option.none_or]
          cases old : index.wildcards.find? fun wc => hasPrefix name wc.1 with
          | some wc =>
              rw [old] at found
              exact Or.inl found
          | none =>
              rw [old, Option.none_or, List.find?_singleton] at found
              split at found
              · rename_i here
                exact Or.inr ⟨here, Option.some.inj found⟩
              · cases found
  | false =>
      rw [wild, if_neg Bool.false_ne_true] at found
      rw [if_neg Bool.false_ne_true]
      dsimp only at found
      by_cases here : name = entry.1.stem
      · rw [here, Function.update_self] at found
        exact Or.inr ⟨beq_iff_eq.mpr here, Option.some.inj found⟩
      · rw [Function.update_of_ne here] at found
        exact Or.inl found

theorem isSome_lookup_insert (entry : ModelEntry × V)
    (there : entry.1.matches_ name = true ∨ (index.lookup name).isSome = true) :
    ((index.insert entry).lookup name).isSome = true := by
  unfold lookup matchWildcard insert ModelEntry.matches_ at *
  rw [Option.isSome_or, Option.isSome_map] at *
  cases wild : entry.1.wildcard with
  | true =>
      rw [wild, if_pos rfl] at there
      rw [if_pos rfl]
      dsimp only
      rw [List.find?_append, Option.isSome_or, List.find?_singleton]
      rcases there with here | old
      · rw [if_pos here, Option.isSome_some, Bool.or_true, Bool.or_true]
      · rcases (Bool.or_eq_true _ _).mp old with exact_ | prefixed
        · rw [exact_, Bool.true_or]
        · rw [prefixed, Bool.true_or, Bool.or_true]
  | false =>
      rw [wild, if_neg Bool.false_ne_true, beq_iff_eq] at there
      rw [if_neg Bool.false_ne_true]
      dsimp only
      by_cases here : name = entry.1.stem
      · rw [here, Function.update_self, Option.isSome_some, Bool.true_or]
      · rw [Function.update_of_ne here]
        exact there.resolve_left here

theorem lookup_foldl_sound (found : (entries.foldl insert index).lookup name = some v) :
    index.lookup name = some v ∨ ∃ entry ∈ entries, entry.1.matches_ name = true ∧ entry.2 = v := by
  induction entries generalizing index with
  | nil => exact Or.inl found
  | cons entry rest ih =>
      rcases ih found with here | ⟨later, mem, matched⟩
      · rcases lookup_insert_sound entry here with old | new
        · exact Or.inl old
        · exact Or.inr ⟨entry, List.mem_cons_self, new⟩
      · exact Or.inr ⟨later, List.mem_cons_of_mem _ mem, matched⟩

variable (index) in
theorem isSome_lookup_foldl (there : (∃ entry ∈ entries, entry.1.matches_ name = true) ∨
      (index.lookup name).isSome = true) : ((entries.foldl insert index).lookup name).isSome = true := by
  induction entries generalizing index with
  | nil => exact there.resolve_left (by simp)
  | cons entry rest ih =>
      apply ih
      rcases there with ⟨entry', mem, matched⟩ | old
      · rcases List.mem_cons.mp mem with rfl | later
        · exact Or.inr (isSome_lookup_insert _ (Or.inl matched))
        · exact Or.inl ⟨entry', later, matched⟩
      · exact Or.inr (isSome_lookup_insert _ (Or.inr old))

/-- **What a table finds.** Where the entries that match agree it finds what they stand for,
whatever their order, and nothing when none matches. -/
theorem lookup_eq_some_iff (agree : ∀ a ∈ entries, ∀ b ∈ entries, a.1.matches_ name = true →
      b.1.matches_ name = true → a.2 = b.2) :
    (entries.foldl insert {}).lookup name = some v ↔
      ∃ entry ∈ entries, entry.1.matches_ name = true ∧ entry.2 = v := by
  constructor
  · intro found
    exact (lookup_foldl_sound found).resolve_left nofun
  · rintro ⟨entry, mem, matched, rfl⟩
    obtain ⟨v, found⟩ := Option.isSome_iff_exists.mp
      (isSome_lookup_foldl {} (Or.inl ⟨entry, mem, matched⟩))
    obtain ⟨entry', mem', matched', rfl⟩ := (lookup_foldl_sound found).resolve_left nofun
    rw [found, agree entry mem entry' mem' matched matched']

end Index

end Sub2api.ChannelModels
