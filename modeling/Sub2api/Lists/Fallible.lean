import Mathlib.Data.List.Forall2

/-!
# Lists of fallible calls

`mapM` succeeds exactly when every call does, and its results are in the order of the calls.
-/

namespace Lists

variable {α β ε : Type} {R : α → β → Prop} {as : List α} {bs : List β}

theorem right_of_forall₂ (pairs : List.Forall₂ R as bs) {b : β} (member : b ∈ bs) :
    ∃ a ∈ as, R a b := by
  induction pairs with
  | nil => cases member
  | cons pair _ ih =>
    rcases List.mem_cons.mp member with rfl | later
    · exact ⟨_, List.mem_cons_self, pair⟩
    · obtain ⟨a, inRest, related⟩ := ih later
      exact ⟨a, List.mem_cons_of_mem _ inRest, related⟩

theorem left_of_forall₂ (pairs : List.Forall₂ R as bs) {a : α} (member : a ∈ as) :
    ∃ b ∈ bs, R a b :=
  right_of_forall₂ (R := flip R) pairs.flip member

variable {f : α → Except ε β}

theorem mapM_ok : as.mapM f = .ok bs ↔ List.Forall₂ (fun a b => f a = .ok b) as bs := by
  induction as generalizing bs with
  | nil =>
    rw [List.forall₂_nil_left_iff]
    exact ⟨fun ok => (Except.ok.inj ok).symm, fun empty => empty ▸ rfl⟩
  | cons a rest ih =>
    rw [List.mapM_cons, List.forall₂_cons_left_iff]
    cases first : f a with
    | error failure =>
      refine ⟨fun ok => ?_, fun ⟨_, _, same, _⟩ => ?_⟩
      · cases ok
      · cases same
    | ok b =>
      cases later : rest.mapM f with
      | error failure =>
        refine ⟨fun ok => ?_, fun ⟨_, _, _, pairs, _⟩ => ?_⟩
        · cases ok
        · cases later.symm.trans (ih.mpr pairs)
      | ok more =>
        refine ⟨fun ok => ⟨b, more, rfl, ih.mp later, (Except.ok.inj ok).symm⟩, ?_⟩
        rintro ⟨b', more', same, pairs, rfl⟩
        cases same
        cases later.symm.trans (ih.mpr pairs)
        rfl

theorem exists_mapM_ok : (∃ bs, as.mapM f = .ok bs) ↔ ∀ a ∈ as, ∃ b, f a = .ok b := by
  simp only [mapM_ok]
  induction as with
  | nil => simp
  | cons a rest ih =>
    rw [List.forall_mem_cons, ← ih]
    constructor
    · rintro ⟨_, pairs⟩
      obtain ⟨b, more, first, later, rfl⟩ := List.forall₂_cons_left_iff.mp pairs
      exact ⟨⟨b, first⟩, more, later⟩
    · rintro ⟨⟨b, first⟩, more, later⟩
      exact ⟨b :: more, .cons first later⟩

end Lists
