import Mathlib.Algebra.Order.Group.Int
import Mathlib.Data.List.TakeWhile
import Sub2api.Sessions.DigestStore

/-!
# Find returns the longest saved prefix

The keys of different namespaces differ when no prefix hash contains the bar that ends it. Then what
the cache holds under a key is what was saved under the chain, and cutting segments off goes through
the segment prefixes of a chain from the longest to the shortest.
-/

namespace Sub2api.Sessions

/-! ### Keys -/

/-- A prefix hash that does not contain the separator. The callers pass base64. -/
def NoBar (prefixHash : String) : Prop := '|' ∉ prefixHash.toList

instance (prefixHash : String) : Decidable (NoBar prefixHash) :=
  inferInstanceAs (Decidable (_ ∉ _))

theorem not_mem_repr {c : Char} (sign : c.isDigit = false) (m : ℕ) : c ∉ m.repr.toList := by
  intro mem
  rw [Nat.toList_repr] at mem
  rw [Nat.isDigit_of_mem_toDigits (by omega) (by omega) mem] at sign
  cases sign

theorem colon_not_mem_repr (n : ℤ) : ':' ∉ n.repr.toList := by
  rw [Int.repr_eq_if]
  split
  · exact not_mem_repr rfl _
  · rw [String.toList_append, List.mem_append]
    exact not_or.mpr ⟨by decide, not_mem_repr rfl _⟩

theorem repr_injective {m n : ℤ} (same : m.repr = n.repr) : m = n := by
  have unsigned {k l : ℕ} (same : k.repr.toList = l.repr.toList) : k = l := by
    rw [Nat.toList_repr, Nat.toList_repr] at same
    rw [← Nat.ofDigitChars_ten_toDigits (n := k), same, Nat.ofDigitChars_ten_toDigits]
  have signed (k l : ℕ) : k.repr ≠ "-" ++ l.repr := by
    intro same
    apply not_mem_repr (c := '-') rfl k
    simp [same]
  rw [Int.repr_eq_if, Int.repr_eq_if] at same
  split at same <;> split at same
  · have := unsigned (congrArg _ same)
    omega
  · exact absurd same (signed _ _)
  · exact absurd same.symm (signed _ _)
  · have lists := congrArg String.toList same
    rw [String.toList_append, String.toList_append] at lists
    have := unsigned (List.append_cancel_left lists)
    omega

/-- What ends with a separator that it does not contain is found again before what follows. -/
theorem append_cons_inj {α : Type} {separator : α} {first first' rest rest' : List α}
    (absent : separator ∉ first) (absent' : separator ∉ first')
    (same : first ++ separator :: rest = first' ++ separator :: rest') :
    first = first' ∧ rest = rest' := by
  induction first generalizing first' with
  | nil =>
      cases first' with
      | nil => exact ⟨rfl, (List.cons.inj same).2⟩
      | cons x xs =>
          obtain ⟨head, -⟩ := List.cons.inj same
          exact absurd (head ▸ List.mem_cons_self ..) absent'
  | cons x xs ih =>
      cases first' with
      | nil =>
          obtain ⟨head, -⟩ := List.cons.inj same
          exact absurd (head ▸ List.mem_cons_self ..) absent
      | cons y ys =>
          obtain ⟨rfl, tail⟩ := List.cons.inj same
          obtain ⟨rfl, rest_⟩ := ih (fun mem => absent (List.mem_cons_of_mem _ mem))
            (fun mem => absent' (List.mem_cons_of_mem _ mem)) tail
          exact ⟨rfl, rest_⟩

theorem key_inj {groupID groupID' : ℤ} {prefixHash prefixHash' chain chain' : String}
    (noBar : NoBar prefixHash) (noBar' : NoBar prefixHash') :
    buildNS groupID prefixHash ++ chain = buildNS groupID' prefixHash' ++ chain' ↔
      groupID = groupID' ∧ prefixHash = prefixHash' ∧ chain = chain' := by
  constructor
  · intro same
    have lists := congrArg String.toList same
    simp only [buildNS, String.toList_append, List.append_assoc] at lists
    obtain ⟨group_, rest⟩ := @append_cons_inj Char ':' _ _ _ _ (colon_not_mem_repr _)
      (colon_not_mem_repr _) (by simpa using lists)
    obtain ⟨hash_, chain_⟩ := append_cons_inj noBar noBar' (by simpa using rest)
    exact ⟨repr_injective (String.toList_inj.mp group_), String.toList_inj.mp hash_,
      String.toList_inj.mp chain_⟩
  · rintro ⟨rfl, rfl, rfl⟩
    rfl

/-! ### What the cache holds -/

/-- The namespaces of the saves have no bar in them. -/
def Op.NoBar : Op → Prop
  | .save _ prefixHash _ _ _ => Sessions.NoBar prefixHash
  | _ => True

theorem get_save [GoCache] (cache : Cache) (now now' groupID : ℤ)
    (prefixHash digestChain oldDigestChain key : String) (entry : SessionEntry) :
    GoCache.get (save cache now groupID prefixHash digestChain entry oldDigestChain) now' key =
      if digestChain = "" then GoCache.get cache now' key
      else if oldDigestChain ≠ "" ∧ oldDigestChain ≠ digestChain ∧
          key = buildNS groupID prefixHash ++ oldDigestChain then none
      else if key = buildNS groupID prefixHash ++ digestChain then
        if CacheItem.Expired { entry := entry, expiration := now + digestSessionTTL } now' then none
        else some entry
      else GoCache.get cache now' key := by
  unfold save
  by_cases blank : digestChain = ""
  · rw [if_pos blank, if_pos blank]
  · rw [if_neg blank, if_neg blank]
    dsimp only
    by_cases replaces : oldDigestChain ≠ "" ∧ oldDigestChain ≠ digestChain
    · rw [if_pos replaces, GoCache.get_delete, GoCache.get_set]
      by_cases old : key = buildNS groupID prefixHash ++ oldDigestChain
      · rw [if_pos old, if_pos ⟨replaces.1, replaces.2, old⟩]
      · have kept : ¬ (oldDigestChain ≠ "" ∧ oldDigestChain ≠ digestChain ∧
            key = buildNS groupID prefixHash ++ oldDigestChain) := fun all => old all.2.2
        rw [if_neg old, if_neg kept]
    · have kept : ¬ (oldDigestChain ≠ "" ∧ oldDigestChain ≠ digestChain ∧
          key = buildNS groupID prefixHash ++ oldDigestChain) :=
        fun all => replaces ⟨all.1, all.2.1⟩
      rw [if_neg replaces, GoCache.get_set, if_neg kept]

theorem live_save (earlier : List (ℤ × Op)) (now now' groupID groupID' : ℤ)
    (prefixHash prefixHash' digestChain oldDigestChain chain : String) (entry : SessionEntry) :
    live ((now, .save groupID' prefixHash' digestChain entry oldDigestChain) :: earlier) now'
        groupID prefixHash chain =
      if digestChain ≠ "" ∧ groupID' = groupID ∧ prefixHash' = prefixHash then
        if digestChain = chain then
          if CacheItem.Expired { entry := entry, expiration := now + digestSessionTTL } now' then none
          else some entry
        else if oldDigestChain ≠ "" ∧ oldDigestChain = chain then none
        else live earlier now' groupID prefixHash chain
      else live earlier now' groupID prefixHash chain := by
  unfold live
  conv_lhs => unfold lastSaved
  by_cases own : digestChain ≠ "" ∧ groupID' = groupID ∧ prefixHash' = prefixHash
  · rw [if_pos own, if_pos own]
    by_cases saved : digestChain = chain
    · rw [if_pos saved, if_pos saved]
    · rw [if_neg saved, if_neg saved]
      by_cases deleted : oldDigestChain ≠ "" ∧ oldDigestChain = chain
      · rw [if_pos deleted, if_pos deleted]
      · rw [if_neg deleted, if_neg deleted]
  · rw [if_neg own, if_neg own]

theorem get_cacheAfter [GoCache] {past : List (ℤ × Op)} {now groupID : ℤ} {prefixHash chain : String}
    (noBar : NoBar prefixHash) (bars : ∀ turn ∈ past, turn.2.NoBar)
    (before : ∀ turn ∈ past, turn.1 ≤ now) :
    GoCache.get (cacheAfter past) now (buildNS groupID prefixHash ++ chain) =
      live past now groupID prefixHash chain := by
  induction past with
  | nil => exact GoCache.get_new _ _
  | cons turn earlier ih =>
      obtain ⟨time, op⟩ := turn
      have past_ := ih (fun turn mem => bars turn (List.mem_cons_of_mem _ mem))
        (fun turn mem => before turn (List.mem_cons_of_mem _ mem))
      have noBar' := bars (time, op) (List.mem_cons_self ..)
      cases op with
      | find groupID' prefixHash' digestChain => exact past_
      | deleteExpired =>
          change GoCache.get (GoCache.deleteExpired _ time) now _ = _
          rw [GoCache.get_deleteExpired _ (before (time, .deleteExpired) (List.mem_cons_self ..))]
          exact past_
      | save groupID' prefixHash' digestChain entry oldDigestChain =>
          have own : ∀ chain', (buildNS groupID prefixHash ++ chain =
              buildNS groupID' prefixHash' ++ chain') ↔
              groupID' = groupID ∧ prefixHash' = prefixHash ∧ chain' = chain := by
            intro chain'
            rw [key_inj noBar noBar', eq_comm, @eq_comm _ prefixHash, @eq_comm _ chain]
          change GoCache.get (save (cacheAfter earlier) time groupID' prefixHash' digestChain entry
            oldDigestChain) now _ = _
          rw [get_save, live_save, past_]
          simp only [own]
          by_cases blank : digestChain = ""
          · simp [blank]
          · by_cases same : groupID' = groupID ∧ prefixHash' = prefixHash
            · obtain ⟨rfl, rfl⟩ := same
              by_cases saved : digestChain = chain
              · subst saved
                simp [blank]
              · by_cases deleted : oldDigestChain = chain
                · subst deleted
                  simp [blank, saved, Ne.symm saved]
                · simp [blank, saved, deleted]
            · grind

/-! ### Cutting segments off -/

theorem IsSegmentPrefix.length_le {start chain : String} (ahead : IsSegmentPrefix start chain) :
    start.toList.length ≤ chain.toList.length := by
  rcases ahead with rfl | ⟨rest, rfl⟩
  · exact Nat.le_refl _
  · simp only [String.toList_append, List.length_append]
    omega

theorem IsSegmentPrefix.trans {a b c : String} (first : IsSegmentPrefix a b)
    (second : IsSegmentPrefix b c) : IsSegmentPrefix a c := by
  rcases first with rfl | ⟨rest, rfl⟩
  · exact second
  · right
    rcases second with rfl | ⟨rest', rfl⟩
    · exact ⟨rest, rfl⟩
    · exact ⟨rest ++ "-" ++ rest', by simp only [String.append_assoc]⟩

theorem isSegmentPrefix_iff {start chain : String} :
    IsSegmentPrefix start chain ↔
      start = chain ∨ ∃ rest : List Char, chain.toList = start.toList ++ '-' :: rest := by
  unfold IsSegmentPrefix
  apply or_congr_right
  constructor
  · rintro ⟨rest, rfl⟩
    exact ⟨rest.toList, by simp [String.toList_append]⟩
  · rintro ⟨rest, same⟩
    refine ⟨String.ofList rest, String.toList_inj.mp ?_⟩
    simp [String.toList_append, same]

/-- Cutting the last segment off gives the longest proper segment prefix. -/
theorem cutSegment_spec (chain : String) :
    match cutSegment chain with
    | none => ∀ start, IsSegmentPrefix start chain → start = chain
    | some shorter => IsSegmentPrefix shorter chain ∧
        ∀ start, IsSegmentPrefix start chain → start = chain ∨ IsSegmentPrefix start shorter := by
  have parts := List.takeWhile_append_dropWhile (p := fun c => decide (c ≠ '-'))
    (l := chain.toList.reverse)
  have free : '-' ∉ chain.toList.reverse.takeWhile fun c => decide (c ≠ '-') := by
    intro mem
    simpa using List.mem_takeWhile_imp mem
  unfold cutSegment
  split
  · rename_i dropped
    split at dropped
    · rename_i all
      rw [all, List.append_nil] at parts
      intro start ahead
      rcases isSegmentPrefix_iff.mp ahead with rfl | ⟨rest, same⟩
      · rfl
      · rw [parts, List.mem_reverse, same] at free
        simp at free
    · cases dropped
  · rename_i shorter dropped
    split at dropped
    · cases dropped
    · rename_i dash rest rest_
      cases dropped
      have dash_ : dash = '-' := by
        have head := List.head?_dropWhile_not (fun c => decide (c ≠ '-')) chain.toList.reverse
        rw [rest_] at head
        simpa using head
      subst dash_
      rw [rest_] at parts
      generalize (chain.toList.reverse.takeWhile fun c => decide (c ≠ '-')) = last at parts free
      have whole : chain.toList = rest.reverse ++ '-' :: last.reverse := by
        have reversed := congrArg List.reverse parts.symm
        simpa using reversed
      refine ⟨isSegmentPrefix_iff.mpr (Or.inr ⟨_, by simpa using whole⟩), ?_⟩
      intro start ahead
      rcases isSegmentPrefix_iff.mp ahead with rfl | ⟨tail, same⟩
      · exact Or.inl rfl
      · right
        rw [isSegmentPrefix_iff, String.toList_ofList]
        rw [whole] at same
        rcases List.append_eq_append_iff.mp same with ⟨more, start_, tail_⟩ | ⟨more, rest_, last_⟩
        · cases more with
          | nil =>
              left
              apply String.toList_inj.mp
              simpa using start_
          | cons c more =>
              -- The segment that was cut off would contain the separator.
              exfalso
              obtain ⟨rfl, last_⟩ := List.cons.inj tail_
              apply free
              rw [← List.mem_reverse, last_]
              simp
        · cases more with
          | nil =>
              left
              apply String.toList_inj.mp
              simpa using rest_.symm
          | cons c more =>
              obtain ⟨rfl, -⟩ := List.cons.inj last_
              exact Or.inr ⟨more, rest_⟩

/-- The loop of `Find` goes through the segment prefixes from the longest to the shortest. -/
theorem findFrom_longest [GoCache] (cache : Cache) (now : ℤ) (ns chain : String) :
    FindsLongest (fun chain => GoCache.get cache now (ns ++ chain)) chain
      (findFrom cache now ns chain) := by
  fun_induction findFrom cache now ns chain with
  | case1 chain entry found =>
      refine ⟨Or.inl rfl, found, ?_⟩
      intro start ahead longer
      exact absurd ahead.length_le (by omega)
  | case2 chain missing cut =>
      have spec := cutSegment_spec chain
      rw [cut] at spec
      intro start ahead
      rw [spec start ahead]
      exact missing
  | case3 chain missing shorter cut ih =>
      have spec := cutSegment_spec chain
      rw [cut] at spec
      obtain ⟨ahead, others⟩ := spec
      cases result : findFrom cache now ns shorter with
      | none =>
          rw [result] at ih
          intro start start_
          rcases others start start_ with rfl | start_
          · exact missing
          · exact ih start start_
      | some found =>
          obtain ⟨entry, matched⟩ := found
          rw [result] at ih
          obtain ⟨matched_, held, longest⟩ := ih
          refine ⟨matched_.trans ahead, held, ?_⟩
          intro start start_ longer
          rcases others start start_ with rfl | start_
          · exact missing
          · exact longest start start_ longer

/-- Nothing is saved under the empty chain. -/
theorem live_empty (past : List (ℤ × Op)) (now groupID : ℤ) (prefixHash : String) :
    live past now groupID prefixHash "" = none := by
  induction past with
  | nil => rfl
  | cons turn earlier ih =>
      obtain ⟨time, op⟩ := turn
      cases op with
      | save groupID' prefixHash' digestChain entry oldDigestChain =>
          rw [live_save]
          by_cases own : digestChain ≠ "" ∧ groupID' = groupID ∧ prefixHash' = prefixHash
          · rw [if_pos own, if_neg own.1, if_neg (fun old => old.1 old.2)]
            exact ih
          · rw [if_neg own]
            exact ih
      | find => exact ih
      | deleteExpired => exact ih

/-- `Find` returns the longest chain that is saved in the namespace. -/
theorem find_longest [GoCache] {past : List (ℤ × Op)} {now groupID : ℤ} {prefixHash : String}
    (noBar : NoBar prefixHash) (bars : ∀ turn ∈ past, turn.2.NoBar)
    (before : ∀ turn ∈ past, turn.1 ≤ now) (chain : String) :
    FindsLongest (live past now groupID prefixHash) chain
      (find (cacheAfter past) now groupID prefixHash chain) := by
  have held : (fun chain => GoCache.get (cacheAfter past) now
      (buildNS groupID prefixHash ++ chain)) = live past now groupID prefixHash :=
    funext fun chain => get_cacheAfter noBar bars before
  unfold find
  by_cases blank : chain = ""
  · subst blank
    rw [if_pos rfl]
    intro start ahead
    have short := ahead.length_le
    have empty_ : start = "" := by
      apply String.toList_inj.mp
      simpa using short
    rw [empty_]
    exact live_empty past now groupID prefixHash
  · rw [if_neg blank, ← held]
    exact findFrom_longest _ _ _ _

end Sub2api.Sessions
