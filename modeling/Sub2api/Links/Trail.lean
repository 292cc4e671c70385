import Mathlib.Data.Finset.Card

/-!
# Trails

Nodes are found under keys, and each leads to at most one further key. The trail from a link visits
the nodes in order until a node leads nowhere, a key has no node, or a key was seen before. Over a
finite set of keys there is a trail from every link (`Trail.exists_of_finite`).
-/

namespace Links

variable {κ ν : Type*} [DecidableEq κ]

/-- Why a trail goes no further. -/
inductive Stop (κ : Type*) where
  | ends
  | dangles (key : κ)
  | closes (key : κ)
  deriving DecidableEq

/-- The nodes visited from a link on without the keys seen so far, and why the trail stops. -/
inductive Trail (node : κ → Option ν) (next : ν → Option κ) :
    Finset κ → Option κ → List ν → Stop κ → Prop where
  | ends {seen : Finset κ} : Trail node next seen none [] .ends
  | closes {seen : Finset κ} {key : κ} (mem : key ∈ seen) :
      Trail node next seen (some key) [] (.closes key)
  | dangles {seen : Finset κ} {key : κ} (fresh : key ∉ seen) (missing : node key = none) :
      Trail node next seen (some key) [] (.dangles key)
  | visits {seen : Finset κ} {key : κ} {v : ν} {path : List ν} {stop : Stop κ} (fresh : key ∉ seen)
      (found : node key = some v) (rest : Trail node next (insert key seen) (next v) path stop) :
      Trail node next seen (some key) (v :: path) stop

namespace Trail

variable {node : κ → Option ν} {next : ν → Option κ} {seen : Finset κ} {link : Option κ}
  {path path' : List ν} {stop stop' : Stop κ}

/-- Over a finite set of keys every link has a trail, at most as long as the keys not seen. -/
theorem exists_of_finite {keys : Finset κ} (finite : ∀ key v, node key = some v → key ∈ keys)
    (seen : Finset κ) (link : Option κ) :
    ∃ path stop, Trail node next seen link path stop ∧ path.length ≤ (keys \ seen).card := by
  induction left : (keys \ seen).card generalizing seen link with
  | zero =>
      cases link with
      | none => exact ⟨[], .ends, .ends, le_rfl⟩
      | some key =>
          by_cases mem : key ∈ seen
          · exact ⟨[], .closes key, .closes mem, le_rfl⟩
          · refine ⟨[], .dangles key, .dangles mem ?_, le_rfl⟩
            cases found : node key with
            | none => rfl
            | some v =>
                have unseen : key ∈ keys \ seen := Finset.mem_sdiff.mpr ⟨finite key v found, mem⟩
                rw [Finset.card_eq_zero.mp left] at unseen
                exact absurd unseen (Finset.notMem_empty key)
  | succ n ih =>
      cases link with
      | none => exact ⟨[], .ends, .ends, Nat.zero_le _⟩
      | some key =>
          by_cases mem : key ∈ seen
          · exact ⟨[], .closes key, .closes mem, Nat.zero_le _⟩
          · cases found : node key with
            | none => exact ⟨[], .dangles key, .dangles mem found, Nat.zero_le _⟩
            | some v =>
                have fewer : (keys \ insert key seen).card = n := by
                  have unseen : key ∈ keys \ seen := Finset.mem_sdiff.mpr ⟨finite key v found, mem⟩
                  have removed := Finset.card_erase_of_mem unseen
                  rw [← Finset.sdiff_insert] at removed
                  omega
                obtain ⟨path, stop, rest, short⟩ := ih (insert key seen) (next v) fewer
                exact ⟨v :: path, stop, .visits mem found rest, Nat.succ_le_succ short⟩

/-- The nodes on a trail are found under keys not seen before it. -/
theorem found_of_mem (trail : Trail node next seen link path stop) {v : ν} (mem : v ∈ path) :
    ∃ key, key ∉ seen ∧ node key = some v := by
  induction trail with
  | ends => cases mem
  | closes _ => cases mem
  | dangles _ _ => cases mem
  | visits fresh found _ ih =>
      rcases List.mem_cons.mp mem with rfl | later
      · exact ⟨_, fresh, found⟩
      · obtain ⟨key, unseen, here⟩ := ih later
        exact ⟨key, fun old => unseen (Finset.mem_insert_of_mem old), here⟩

/-- A trail cut short leaves a link of its last node, or the first link, unfollowed. -/
theorem isSome_of_cut (trail : Trail node next seen link path stop) (cut : stop ≠ .ends) :
    (path.getLast?.elim link next).isSome := by
  induction trail with
  | ends => exact absurd rfl cut
  | closes _ => rfl
  | dangles _ _ => rfl
  | @visits _ _ v path _ _ _ _ ih =>
      have later := ih cut
      rw [List.getLast?_cons]
      cases last : path.getLast? with
      | none =>
          rw [last] at later
          exact later
      | some _ =>
          rw [last] at later
          exact later

theorem path_eq_nil (trail : Trail node next seen none path stop) : path = [] ∧ stop = .ends := by
  cases trail
  exact ⟨rfl, rfl⟩

end Trail

end Links
