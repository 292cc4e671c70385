import Mathlib.Data.List.Induction
import Sub2api.Billing.InflightCache

/-!
# In-flight reservations over time

`State.Inv` relates the keys to the history: what is alive of both is the same, and the keys live
long enough. Every script keeps it, and so does waiting.
-/

namespace Sub2api.Billing.Inflight

open Redis
open Significant

variable {α : Type}

/-! ### The history -/

section History

variable {s : State α} {now t ttl : ℤ}

/-- The keys hold what is alive of the history, for long enough. -/
structure State.Inv (ttl : ℤ) (s : State α) (now : ℤ) : Prop where
  stored : ∃ (stored : List (Reservation α)) (until_ : ℤ),
    s.keys.Holds now stored ∧ s.keys.Until now stored until_ ∧
      (live now stored).Perm (live now s.ledger) ∧
      (∀ r ∈ stored, r.expireAt ≤ now + ttlMs ttl) ∧ ∀ r ∈ stored, r.expireAt ≤ until_
  distinct : (s.ledger.map Reservation.requestID).Nodup

theorem ttlMs_pos (ttl : ℤ) : 0 < ttlMs ttl := by
  unfold ttlMs
  split <;> omega

theorem mem_live {ledger : List (Reservation α)} {r : Reservation α} :
    r ∈ live now ledger ↔ r ∈ ledger ∧ now < r.expireAt := by
  unfold live
  rw [List.mem_filter, Reservation.live, decide_eq_true_eq]

/-- What is alive later was alive before. -/
theorem live_live (passes : now ≤ t) (ledger : List (Reservation α)) :
    live t (live now ledger) = live t ledger := by
  unfold live
  rw [List.filter_filter]
  apply List.filter_congr
  intro r _
  simp only [Reservation.live, ← Bool.decide_and]
  apply decide_eq_decide.mpr
  omega

theorem live_append (first second : List (Reservation α)) :
    live now (first ++ second) = live now first ++ live now second := List.filter_append ..

theorem State.Inv.later (inv : s.Inv ttl now) (passes : now ≤ t) : s.Inv ttl t := by
  obtain ⟨⟨stored, until_, holds, ttl_, same, soon, covered⟩, distinct⟩ := inv
  refine ⟨?_, distinct⟩
  have alive : (live t stored).Perm (live t s.ledger) := by
    rw [← live_live passes stored, ← live_live passes s.ledger]
    exact same.filter _
  rcases holds.later ttl_ passes with ⟨holds', ttl'⟩ | ⟨holds', gone⟩
  · refine ⟨stored, until_, holds', ttl', alive, ?_, covered⟩
    intro r here
    have le := soon r here
    omega
  · refine ⟨[], until_, holds', until_nil, ?_, by simp, by simp⟩
    have dead : live t stored = [] := by
      rcases gone with rfl | gone
      · rfl
      · rw [live, List.filter_eq_nil_iff]
        intro r here
        have le := covered r here
        simp only [Reservation.live, decide_eq_true_eq, not_lt]
        omega
    rw [dead] at alive
    exact alive

theorem inv_initial (ttl now : ℤ) : State.Inv ttl ({} : State α) now where
  stored := ⟨[], now, holds_nil rfl rfl, until_nil, List.Perm.refl _, by simp, by simp⟩
  distinct := List.nodup_nil

variable [DecidableEq α]

theorem live_not (member : α) (ledger : List (Reservation α)) :
    live now (ledger.filter (Reservation.not member)) =
      (live now ledger).filter (Reservation.not member) := by
  unfold live
  rw [List.filter_filter, List.filter_filter]
  simp only [Bool.and_comm]

theorem renewed_requestID (member : α) (r : Reservation α) :
    (r.renewed now ttl member).requestID = r.requestID := by
  unfold Reservation.renewed
  split <;> rfl

theorem renewed_live (positive : 0 < ttl) (member : α) (r : Reservation α) :
    (r.renewed now ttl member).live now = r.live now := by
  unfold Reservation.renewed
  split
  · rename_i renews
    rw [renews.2]
    exact decide_eq_true (by dsimp only; omega)
  · rfl

theorem live_renewed (positive : 0 < ttl) (member : α) (ledger : List (Reservation α)) :
    live now (ledger.map (Reservation.renewed now ttl member)) =
      (live now ledger).map (Reservation.renewed now ttl member) := by
  unfold live
  rw [List.filter_map]
  congr 1
  apply List.filter_congr
  intro r _
  exact renewed_live positive member r

theorem map_renewed_of_dead {ledger : List (Reservation α)} {member : α}
    (dead : ∀ r ∈ ledger, r.requestID = member → r.live now = false) :
    ledger.map (Reservation.renewed now ttl member) = ledger := by
  conv_rhs => rw [← List.map_id ledger]
  apply List.map_congr_left
  intro r here
  unfold Reservation.renewed
  rw [if_neg]
  · rfl
  · rintro ⟨same, alive⟩
    rw [dead r here same] at alive
    cases alive

theorem State.Inv.reserve (inv : s.Inv ttl now) (hvals : Listing ℚ) (member : α)
    (amount balance : ℚ) : (s.call ttl ⟨.reserve member amount balance, now, hvals⟩).Inv ttl now := by
  obtain ⟨⟨stored, until_, holds, ttl_, same, soon, covered⟩, distinct⟩ := inv
  have positive := ttlMs_pos ttl
  unfold State.call
  dsimp only
  split
  · rename_i allowed
    obtain ⟨entered, ttl'⟩ := reserve_holds holds ttl_ positive.le hvals member amount balance allowed
    refine ⟨⟨_, _, entered, ttl', ?_, ?_, ?_⟩, ?_⟩
    · rw [live_append, live_append, live_not, live_not, live_live le_rfl]
      exact (same.filter _).append_right _
    · intro r here
      rcases List.mem_append.mp here with here | here
      · exact soon r (mem_live.mp (List.mem_filter.mp here).1).1
      · rw [List.mem_singleton.mp here]
    · intro r here
      rcases List.mem_append.mp here with here | here
      · exact soon r (mem_live.mp (List.mem_filter.mp here).1).1
      · rw [List.mem_singleton.mp here]
    · rw [List.map_append, List.nodup_append]
      refine ⟨distinct.sublist (List.filter_sublist.map _), List.nodup_singleton _, ?_⟩
      rintro id old id' new rfl
      obtain ⟨r, here, rfl⟩ := List.mem_map.mp old
      rw [List.map_singleton, List.mem_singleton] at new
      have other := (List.mem_filter.mp here).2
      simp [Reservation.not, new] at other
  · rename_i refused
    rw [Bool.not_eq_true] at refused
    obtain ⟨kept, ttl'⟩ := reserve_refused_holds holds ttl_ hvals member amount balance refused
    refine ⟨⟨_, until_, kept, ttl', ?_, ?_, ?_⟩, distinct⟩
    · rw [live_live le_rfl]
      exact same
    · intro r here
      exact soon r (mem_live.mp here).1
    · intro r here
      exact covered r (mem_live.mp here).1

theorem State.Inv.release (inv : s.Inv ttl now) (hvals : Listing ℚ) (member : α) :
    (s.call ttl ⟨.release member, now, hvals⟩).Inv ttl now := by
  obtain ⟨⟨stored, until_, holds, ttl_, same, soon, covered⟩, distinct⟩ := inv
  obtain ⟨removed, ttl'⟩ := remove_holds holds ttl_ member
  refine ⟨⟨_, until_, removed, ttl', ?_, ?_, ?_⟩, ?_⟩
  · change (live now _).Perm (live now (s.ledger.filter _))
    rw [live_not, live_not]
    exact same.filter _
  · intro r here
    exact soon r (List.mem_filter.mp here).1
  · intro r here
    exact covered r (List.mem_filter.mp here).1
  · exact distinct.sublist (List.filter_sublist.map _)

theorem State.Inv.renew (inv : s.Inv ttl now) (hvals : Listing ℚ) (member : α) :
    (s.call ttl ⟨.renew member, now, hvals⟩).Inv ttl now := by
  obtain ⟨⟨stored, until_, holds, ttl_, same, soon, covered⟩, distinct⟩ := inv
  have positive := ttlMs_pos ttl
  have distinct' : ((s.ledger.map (Reservation.renewed now (ttlMs ttl) member)).map
      Reservation.requestID).Nodup := by
    rw [List.map_map]
    have ids : Reservation.requestID ∘ Reservation.renewed now (ttlMs ttl) member =
        Reservation.requestID := by
      funext r
      exact renewed_requestID member r
    rwa [ids]
  rcases renew_cases holds ttl_ positive.le member with
    ⟨-, dead, stored', holds', ttl', alive, among⟩ | ⟨r, here, id, alive, -, holds', until', le, ahead, ttl'⟩
  · refine ⟨⟨stored', until_, holds', ttl', ?_, ?_, ?_⟩, distinct'⟩
    · change (live now stored').Perm (live now (s.ledger.map _))
      rw [alive, live_renewed positive, map_renewed_of_dead]
      · exact same
      · intro r here
        exact dead r (mem_live.mp (same.mem_iff.mpr here)).1
    · intro r here
      exact soon r (among r here)
    · intro r here
      exact covered r (among r here)
  · refine ⟨⟨_, until', holds', ttl', ?_, ?_, ?_⟩, distinct'⟩
    · change (live now (_ ++ _)).Perm (live now (s.ledger.map _))
      have aliveDistinct : ((live now stored).map Reservation.requestID).Nodup :=
        holds.distinct.sublist (List.filter_sublist.map _)
      have isAlive : r ∈ live now stored := List.mem_filter.mpr ⟨here, alive⟩
      have parts := (perm_of_mem aliveDistinct isAlive id).map
        (Reservation.renewed now (ttlMs ttl) member)
      have others : ((live now stored).filter (Reservation.not member)).map
          (Reservation.renewed now (ttlMs ttl) member) =
            (live now stored).filter (Reservation.not member) := by
        apply map_renewed_of_dead
        intro r here same
        have other := (List.mem_filter.mp here).2
        simp [Reservation.not, same] at other
      have this : r.renewed now (ttlMs ttl) member = { r with expireAt := now + ttlMs ttl } :=
        if_pos ⟨id, alive⟩
      have fresh : live now [({ r with expireAt := now + ttlMs ttl } : Reservation α)] =
          [{ r with expireAt := now + ttlMs ttl }] := by
        apply List.filter_eq_self.mpr
        intro r' here'
        rw [List.mem_singleton.mp here']
        exact decide_eq_true (by dsimp only; omega)
      rw [List.map_append, others, List.map_singleton, this] at parts
      rw [live_append, live_not, fresh, live_renewed positive]
      exact parts.symm.trans (same.map _)
    · intro r' here'
      rcases List.mem_append.mp here' with here' | here'
      · exact soon r' (List.mem_filter.mp here').1
      · rw [List.mem_singleton.mp here']
    · intro r' here'
      rcases List.mem_append.mp here' with here' | here'
      · exact (covered r' (List.mem_filter.mp here').1).trans le
      · rw [List.mem_singleton.mp here']
        exact ahead

theorem State.Inv.call (inv : s.Inv ttl now) (call : Call α) (passes : now ≤ call.now) :
    (s.call ttl call).Inv ttl call.now := by
  obtain ⟨script, t, hvals⟩ := call
  have inv := inv.later passes
  cases script with
  | reserve member amount balance => exact inv.reserve hvals member amount balance
  | renew member => exact inv.renew hvals member
  | release member => exact inv.release hvals member

/-- Times do not go back, and this one is the latest. -/
def Ordered (calls : List (Call α)) (now : ℤ) : Prop :=
  calls.Pairwise (fun a b => a.now ≤ b.now) ∧ ∀ call ∈ calls, call.now ≤ now

theorem State.Inv.run {calls : List (Call α)} (ordered : Ordered calls now) :
    (State.run ttl {} calls).Inv ttl now := by
  induction calls using List.reverseRecOn generalizing now with
  | nil => exact inv_initial ttl now
  | append_singleton calls call ih =>
    obtain ⟨sorted, latest⟩ := ordered
    have parts := List.pairwise_append.mp sorted
    have before : Ordered calls call.now :=
      ⟨parts.1, fun other here => parts.2.2 other here call (List.mem_singleton_self call)⟩
    have step : State.run ttl {} (calls ++ [call]) = (State.run ttl {} calls).call ttl call := by
      unfold State.run
      rw [List.foldl_append]
      rfl
    rw [step]
    have passes : call.now ≤ now :=
      latest call (List.mem_append_right _ (List.mem_singleton_self call))
    exact ((ih before).call call le_rfl).later passes

/-- What the scripts answer at a time: a reservation by the live amounts, in some order. -/
structure State.Answers (ttl : ℤ) (s : State α) (now : ℤ) : Prop where
  reserved : ∀ hvals member amount balance,
    ∃ listed, listed.Perm ((live now s.ledger).map Reservation.amount) ∧
      (s.keys.reserve now (ttlMs ttl) hvals member amount balance).2.inflightSum =
        doubleSum listed ∧
      ((s.keys.reserve now (ttlMs ttl) hvals member amount balance).2.allowed = true ↔
        live now s.ledger = [] ∨ amount ≤ double (balance - doubleSum listed))
  renewed : ∀ member, (s.keys.renew now (ttlMs ttl) member).2 = true ↔
    ∃ r ∈ live now s.ledger, r.requestID = member

/-- What the keys hold from a script to the next one. -/
structure State.Consistent (s : State α) (now : ℤ) : Prop where
  sameIDs : ∀ t, now ≤ t → ∀ id, id ∈ (s.keys.expiry.content t).entries.map Prod.fst ↔
    id ∈ (s.keys.amounts.content t).entries.map Prod.fst
  members : ∀ t, now ≤ t → ∀ id expireAt, t < expireAt →
    ((id, expireAt) ∈ (s.keys.expiry.content t).entries ↔
      ∃ r ∈ s.ledger, r.requestID = id ∧ r.expireAt = expireAt)
  amounts : ∀ t, now ≤ t → ∀ r ∈ live t s.ledger,
    (r.requestID, r.amount) ∈ (s.keys.amounts.content t).entries
  outlive : ∀ r ∈ live now s.ledger, ∃ until_,
    s.keys.expiry.expireAt = some until_ ∧ s.keys.amounts.expireAt = some until_ ∧
      r.expireAt ≤ until_

theorem State.Inv.answers (inv : s.Inv ttl now) : s.Answers ttl now := by
  obtain ⟨⟨stored, until_, holds, ttl_, same, -, -⟩, -⟩ := inv
  have none_ : live now stored = [] ↔ live now s.ledger = [] := by
    constructor
    · intro nil
      rw [nil] at same
      exact same.symm.eq_nil
    · intro nil
      rw [nil] at same
      exact same.eq_nil
  constructor
  · intro hvals member amount balance
    obtain ⟨listed, perm, reply⟩ := reserve_reply holds ttl_ hvals member amount balance
    refine ⟨listed, perm.trans (same.map _), by rw [reply], ?_⟩
    rw [reply]
    by_cases nil : live now s.ledger = []
    · simp [nil, none_.mpr nil]
    · have some_ : live now stored ≠ [] := fun h => nil (none_.mp h)
      simp [nil, some_]
  · intro member
    rcases renew_cases holds ttl_ (ttlMs_pos ttl).le member with
      ⟨refused, dead, -⟩ | ⟨r, here, id, alive, renewed, -⟩
    · rw [refused]
      constructor
      · intro impossible
        cases impossible
      · rintro ⟨r, here, id⟩
        have there := mem_live.mp (same.mem_iff.mpr here)
        have notAlive := dead r there.1 id
        rw [Reservation.live, decide_eq_false_iff_not] at notAlive
        exact absurd there.2 notAlive
    · rw [renewed]
      refine ⟨fun _ => ⟨r, ?_, id⟩, fun _ => rfl⟩
      exact same.mem_iff.mp (List.mem_filter.mpr ⟨here, alive⟩)

omit [DecidableEq α] in
theorem State.Inv.consistent (inv : s.Inv ttl now) : s.Consistent now := by
  constructor
  · intro t passes id
    obtain ⟨⟨stored, until_, holds, -⟩, -⟩ := inv.later passes
    rw [(holds.expiry.map Prod.fst).mem_iff, (holds.amounts.map Prod.fst).mem_iff]
    simp only [List.map_map, Function.comp_def]
  · intro t passes id expireAt ahead
    obtain ⟨⟨stored, until_, holds, -, same, -⟩, -⟩ := inv.later passes
    rw [holds.mem_expiry]
    constructor
    · rintro ⟨r, here, rfl, rfl⟩
      exact ⟨r, (mem_live.mp (same.mem_iff.mp (mem_live.mpr ⟨here, ahead⟩))).1, rfl, rfl⟩
    · rintro ⟨r, here, rfl, rfl⟩
      exact ⟨r, (mem_live.mp (same.mem_iff.mpr (mem_live.mpr ⟨here, ahead⟩))).1, rfl, rfl⟩
  · intro t passes r here
    obtain ⟨⟨stored, until_, holds, -, same, -⟩, -⟩ := inv.later passes
    have there := (mem_live.mp (same.mem_iff.mpr here)).1
    exact holds.amounts.mem_iff.mpr (List.mem_map.mpr ⟨r, there, rfl⟩)
  · intro r here
    obtain ⟨⟨stored, until_, holds, ttl_, same, -, covered⟩, -⟩ := inv
    have there := (mem_live.mp (same.mem_iff.mpr here)).1
    have some_ : stored ≠ [] := List.ne_nil_of_mem there
    exact ⟨until_, ttl_.expiry some_, ttl_.amounts some_, covered r there⟩

end History

end Sub2api.Billing.Inflight
