import Mathlib.Data.List.Induction
import Sub2api.ModelPool.Circuit

/-!
# The circuit is a breaker

`Sound` ties the fields to the history, and `Lasts` the time to live to the fields. Every script
keeps both, whoever runs it and however late.
-/

namespace Sub2api.ModelPool

/-- A client has a lease that has not run out. -/
def History.Holds (history : History) (now : ℤ) (token : String) : Prop :=
  ∃ until_, history.leases token = some until_ ∧ now < until_

/-- What the fields say of the history. -/
structure Sound (h : Fields) (history : History) (now : ℤ) : Prop where
  held : ∀ token until_, history.leases token = some until_ → now < until_ →
    h.probeOwner = some token ∧ h.probeUntil = some until_
  blocked : now < history.blockedUntil → h.blockedUntil = some history.blockedUntil
  opened : ∀ b, h.blockedUntil = some b → 0 < b
  probing : ∀ owner, h.probeOwner = some owner → ∃ b, h.blockedUntil = some b ∧ b ≤ now
  paired : h.probeOwner = none → h.probeUntil = none
  counted : ∀ w, h.windowStart = some w → ∃ n, h.failureCount = some n ∧ 1 ≤ n

/-- Fields that are not needed after a time: the block and the lease are over, and where nothing is
blocked, so is the window of the failures that were counted. -/
structure Lasts (h : Fields) (expireAt : ℤ) : Prop where
  blocked : ∀ b, h.blockedUntil = some b → b ≤ expireAt
  probe : ∀ until_, h.probeUntil = some until_ → until_ ≤ expireAt
  window : h.blockedUntil = none → ∀ w, h.windowStart = some w →
    w + openAIModelPoolCircuitWindow ≤ expireAt

structure Inv (s : State) (now : ℤ) : Prop where
  sound : Sound s.key.fields s.history now
  lasts : ∀ expireAt, s.key.expireAt = some expireAt → Lasts s.key.fields expireAt

variable {h : Fields} {history : History} {s : State} {now : ℤ}

theorem inv_empty (start : 0 ≤ now) : Inv {} now where
  sound := {
    held := fun _ _ none_ => nomatch none_
    blocked := fun early => by
      change now < 0 at early
      omega
    opened := fun _ none_ => nomatch none_
    probing := fun _ none_ => nomatch none_
    paired := fun _ => rfl
    counted := fun _ none_ => nomatch none_ }
  lasts := fun _ none_ => nomatch none_

theorem Inv.later (inv : Inv s now) {later : ℤ} (passes : now ≤ later) : Inv s later where
  sound := {
    held := fun token until_ lease open_ =>
      inv.sound.held token until_ lease (by omega)
    blocked := fun early => inv.sound.blocked (by omega)
    opened := inv.sound.opened
    probing := fun owner some_ => by
      obtain ⟨b, b_, over_⟩ := inv.sound.probing owner some_
      exact ⟨b, b_, by omega⟩
    paired := inv.sound.paired
    counted := inv.sound.counted }
  lasts := inv.lasts

/-- What is read from the key is sound, too: it has not expired while it matters. -/
theorem Inv.content (inv : Inv s now) : Sound (s.key.content now) s.history now := by
  unfold CircuitKey.content
  split
  · rename_i gone
    obtain ⟨expireAt, at_, before⟩ := (Option.any_eq_true _ _).mp gone
    have before := of_decide_eq_true before
    have lasts := inv.lasts expireAt at_
    constructor
    · intro token until_ lease open_
      have := lasts.probe until_ (inv.sound.held token until_ lease open_).2
      omega
    · intro early
      have := lasts.blocked _ (inv.sound.blocked early)
      omega
    · exact fun _ none_ => nomatch none_
    · exact fun _ none_ => nomatch none_
    · exact fun _ => rfl
    · exact fun _ none_ => nomatch none_
  · exact inv.sound

theorem inv_write {ttl : ℤ} (sound : Sound h history now) (lasts : Lasts h (now + ttl)) :
    Inv ⟨.write h now ttl, history⟩ now := by
  unfold CircuitKey.write
  split
  · rename_i empty
    subst empty
    exact ⟨sound, fun _ none_ => nomatch none_⟩
  · constructor
    · exact sound
    · intro expireAt at_
      cases at_
      exact lasts

/-- Ending or not having a lease is no loss. -/
theorem Sound.release (sound : Sound h history now) (token : String) :
    Sound h (history.lease token none) now where
  held other until_ lease open_ := by
    unfold History.lease at lease
    dsimp only at lease
    rw [Function.update_apply] at lease
    split at lease
    · cases lease
    · exact sound.held other until_ lease open_
  blocked := sound.blocked
  opened := sound.opened
  probing := sound.probing
  paired := sound.paired
  counted := sound.counted

theorem Inv.release (inv : Inv s now) (token : String) :
    Inv ⟨s.key, s.history.lease token none⟩ now := ⟨inv.sound.release token, inv.lasts⟩

/-- The only lease that has not run out is that of the owner in the fields. -/
theorem Sound.holder (sound : Sound h history now) {token owner : String} {until_ : ℤ}
    (lease : history.leases token = some until_) (open_ : now < until_)
    (owner_ : h.probeOwner = some owner) : token = owner := by
  have own := (sound.held token until_ lease open_).1
  rw [owner_, Option.some.injEq] at own
  exact own.symm

/-! ### The scripts -/

variable {token : String}

theorem acquire_inv (inv : Inv s now) :
    Inv ⟨(checkAndClaim token now s.key).1,
      s.record ⟨.acquire, token, now⟩⟩ now := by
  have sound := inv.content
  unfold State.record checkAndClaim
  dsimp only
  by_cases closed : (s.key.content now).blockedUntil.getD 0 = 0
  · rw [if_pos closed]
    exact inv
  · rw [if_neg closed]
    by_cases early : now < (s.key.content now).blockedUntil.getD 0
    · rw [if_pos early]
      exact inv
    · rw [if_neg early]
      split
      · exact inv
      · rename_i free
        rw [if_pos rfl]
        obtain ⟨b, b_⟩ : ∃ b, (s.key.content now).blockedUntil = some b := by
          cases b_ : (s.key.content now).blockedUntil with
          | none =>
              rw [b_] at closed
              exact absurd rfl closed
          | some b => exact ⟨b, rfl⟩
        rw [b_, Option.getD_some] at early
        apply inv_write
        · constructor
          · intro other until_ lease open_
            unfold History.lease at lease
            dsimp only at lease ⊢
            rw [Function.update_apply] at lease
            split at lease
            · rename_i same
              cases lease
              exact ⟨by rw [same], rfl⟩
            · obtain ⟨owner_, until__⟩ := sound.held other until_ lease open_
              exact absurd ⟨by rw [owner_]; rfl, by rw [until__]; exact open_⟩ free
          · exact sound.blocked
          · exact sound.opened
          · intro _ _
            exact ⟨b, b_, by omega⟩
          · exact fun none_ => nomatch none_
          · exact sound.counted
        · constructor
          · intro b' b'_
            dsimp only at b'_
            rw [b_, Option.some.injEq] at b'_
            unfold openAIModelPoolCircuitProbeLease openAIModelPoolCircuitRetention
            omega
          · intro until_ at_
            cases at_
            unfold openAIModelPoolCircuitProbeLease openAIModelPoolCircuitRetention
            omega
          · intro none_
            dsimp only at none_
            rw [b_] at none_
            cases none_

/-- A trip, from fields in which nobody else has a lease. -/
theorem trip_inv (start : 0 ≤ now)
    (blocked : h.blockedUntil = some (now + openAIModelPoolCircuitCooldown))
    (owner : h.probeOwner = none) (until_ : h.probeUntil = none)
    (counted : ∀ w, h.windowStart = some w → ∃ n, h.failureCount = some n ∧ 1 ≤ n)
    (alone : ∀ other until_, history.leases other = some until_ → now < until_ → other = token) :
    Inv ⟨.write h now (openAIModelPoolCircuitCooldown + openAIModelPoolCircuitRetention),
      { history.lease token none with
        blockedUntil := now + openAIModelPoolCircuitCooldown }⟩ now := by
  have cooldown : openAIModelPoolCircuitCooldown = 60000 := rfl
  have retention : openAIModelPoolCircuitRetention = 1800000 := rfl
  apply inv_write
  · constructor
    · intro other until_ lease open_
      unfold History.lease at lease
      dsimp only at lease
      rw [Function.update_apply] at lease
      split at lease
      · cases lease
      · rename_i differ
        exact absurd (alone other until_ lease open_) differ
    · exact fun _ => blocked
    · intro b b_
      rw [blocked] at b_
      cases b_
      omega
    · intro other some_
      rw [owner] at some_
      cases some_
    · exact fun _ => until_
    · exact counted
  · constructor
    · intro b b_
      rw [blocked] at b_
      cases b_
      omega
    · intro other at_
      rw [until_] at at_
      cases at_
    · intro none_
      rw [blocked] at none_
      cases none_

/-- What a failure can do: nothing, trip the circuit as the owner of the probe or as the second in a
window, or be the first in a window. -/
theorem recordExhaustion_cases (failureClass : FailureClass) (token : String) (now : ℤ)
    (key : CircuitKey) :
    let h := key.content now
    recordExhaustion failureClass token now key = (key, false) ∨
      (h.probeOwner = some token ∧ now < h.probeUntil.getD 0 ∧
        recordExhaustion failureClass token now key =
          (.write
              { h with
                failureClass := some failureClass
                failureCount := some 2
                windowStart := some now
                blockedUntil := some (now + openAIModelPoolCircuitCooldown)
                probeOwner := none
                probeUntil := none }
              now (openAIModelPoolCircuitCooldown + openAIModelPoolCircuitRetention),
            true)) ∨
      (h.probeOwner = none ∧ ¬ h.blockedUntil.getD 0 > 0 ∧
        ∃ windowStart failureCount,
          (2 ≤ failureCount ∧ recordExhaustion failureClass token now key =
            (.write
                { h with
                  failureClass := some failureClass
                  failureCount := some failureCount
                  windowStart := some windowStart
                  blockedUntil := some (now + openAIModelPoolCircuitCooldown) }
                now (openAIModelPoolCircuitCooldown + openAIModelPoolCircuitRetention),
              true)) ∨
          ((windowOver failureClass now h ∧ windowStart = now ∧ failureCount = 1 ∨
              ¬ windowOver failureClass now h ∧ h.failureCount.getD 0 < 1) ∧
            recordExhaustion failureClass token now key =
              (.write
                  { h with
                    failureClass := some failureClass
                    failureCount := some failureCount
                    windowStart := some windowStart }
                  now openAIModelPoolCircuitWindow,
                false))) := by
  unfold recordExhaustion
  dsimp only
  split
  · rename_i owner owner_
    split
    · exact Or.inl rfl
    · rename_i own
      rw [not_or, not_or, not_not] at own
      obtain ⟨-, rfl, early⟩ := own
      exact Or.inr (Or.inl ⟨owner_, by omega, rfl⟩)
  · rename_i nobody
    split
    · exact Or.inl rfl
    · rename_i closed
      refine Or.inr (Or.inr ⟨nobody, closed,
        if windowOver failureClass now (key.content now) then now
          else (key.content now).windowStart.getD 0,
        (if windowOver failureClass now (key.content now) then 0
          else (key.content now).failureCount.getD 0) + 1, ?_⟩)
      by_cases reached : (if windowOver failureClass now (key.content now) then 0
          else (key.content now).failureCount.getD 0) + 1 ≥ 2
      · exact Or.inl ⟨reached, if_pos reached⟩
      · refine Or.inr ⟨?_, if_neg reached⟩
        by_cases begins : windowOver failureClass now (key.content now)
        · rw [if_pos begins, if_pos begins]
          exact Or.inl ⟨begins, rfl, rfl⟩
        · rw [if_neg begins] at reached
          exact Or.inr ⟨begins, by omega⟩

theorem failure_inv {failureClass : FailureClass} (start : 0 ≤ now) (inv : Inv s now) :
    Inv ⟨(recordExhaustion failureClass token now s.key).1,
      s.record ⟨.failure failureClass, token, now⟩⟩ now := by
  have sound := inv.content
  unfold State.record
  dsimp only
  rcases recordExhaustion_cases failureClass token now s.key with
    same | ⟨owner, -, tripped⟩ | ⟨nobody, closed, windowStart, failureCount, counts⟩
  · rw [same]
    exact inv.release token
  · rw [tripped]
    dsimp only
    rw [if_pos rfl]
    apply trip_inv start rfl rfl rfl
    · intro w _
      exact ⟨2, rfl, by omega⟩
    · exact fun other until_ lease runs => sound.holder lease runs owner
  · have alone : ∀ other until_, s.history.leases other = some until_ → ¬ now < until_ := by
      intro other until_ lease runs
      rw [(sound.held other until_ lease runs).1] at nobody
      cases nobody
    have unblocked : (s.key.content now).blockedUntil = none := by
      cases b_ : (s.key.content now).blockedUntil with
      | none => rfl
      | some b =>
          have positive := sound.opened b b_
          rw [b_, Option.getD_some] at closed
          omega
    rcases counts with ⟨reached, tripped⟩ | ⟨window, first⟩
    · rw [tripped]
      dsimp only
      rw [if_pos rfl]
      refine trip_inv start ?_ ?_ ?_ ?_ ?_
      · rfl
      · exact nobody
      · exact sound.paired nobody
      · intro w _
        exact ⟨failureCount, rfl, by omega⟩
      · exact fun other until_ lease runs => absurd runs (alone other until_ lease)
    · rw [first]
      dsimp only
      rw [if_neg Bool.false_ne_true]
      -- The count is only below two when a window begins.
      have begins : windowStart = now ∧ failureCount = 1 := by
        rcases window with ⟨-, begins⟩ | ⟨continues, few⟩
        · exact begins
        · exfalso
          apply continues
          cases w_ : (s.key.content now).windowStart with
          | none =>
              unfold windowOver
              rw [w_]
              exact Or.inl rfl
          | some w =>
              obtain ⟨n, n_, least⟩ := sound.counted w w_
              rw [n_, Option.getD_some] at few
              omega
      obtain ⟨rfl, rfl⟩ := begins
      apply inv_write
      · apply Sound.release
        constructor
        · exact fun other until_ lease runs => absurd runs (alone other until_ lease)
        · exact sound.blocked
        · exact sound.opened
        · exact sound.probing
        · exact sound.paired
        · intro w _
          exact ⟨1, rfl, Int.le_refl _⟩
      · constructor
        · intro b b_
          dsimp only at b_
          rw [unblocked] at b_
          cases b_
        · intro until_ at_
          dsimp only at at_
          rw [sound.paired nobody] at at_
          cases at_
        · intro _ w w_
          cases w_
          exact Int.le_refl _

theorem success_inv (start : 0 ≤ now) (inv : Inv s now) :
    Inv ⟨(clearSuccess token now s.key).1, s.record ⟨.success, token, now⟩⟩ now := by
  have sound := inv.content
  unfold State.record
  dsimp only
  unfold clearSuccess
  dsimp only
  split
  · exact inv.release token
  · rename_i accepted
    have alone : ∀ other until_, (s.history.lease token none).leases other = some until_ →
        ¬ now < until_ := by
      intro other until_ lease runs
      unfold History.lease at lease
      dsimp only at lease
      rw [Function.update_apply] at lease
      split at lease
      · cases lease
      · rename_i differ
        have owner_ := (sound.held other until_ lease runs).1
        apply accepted
        rw [owner_]
        refine ⟨rfl, fun same => differ ?_⟩
        cases same
        rfl
    have cleared : ∀ history : History, history.leases = (s.history.lease token none).leases →
        ¬ now < history.blockedUntil → Inv ⟨{}, history⟩ now := by
      intro history leases over_
      constructor
      · constructor
        · intro other until_ lease runs
          rw [leases] at lease
          exact absurd runs (alone other until_ lease)
        · exact fun early => absurd early over_
        · exact fun _ none_ => nomatch none_
        · exact fun _ none_ => nomatch none_
        · exact fun _ => rfl
        · exact fun _ none_ => nomatch none_
      · exact fun _ none_ => nomatch none_
    dsimp only
    split
    · apply cleared
      · rfl
      · change ¬ now < 0
        omega
    · rename_i empty
      apply cleared
      · rfl
      · intro early
        have blocked := sound.blocked early
        have none_ : s.key.content now = {} := by simpa using empty
        rw [none_] at blocked
        cases blocked

theorem release_inv (inv : Inv s now) :
    Inv ⟨(releaseProbe token now s.key).1, s.record ⟨.release, token, now⟩⟩ now := by
  have sound := inv.content
  unfold State.record
  dsimp only
  unfold releaseProbe
  dsimp only
  split
  · exact inv.release token
  · rename_i own
    rw [not_not] at own
    obtain ⟨b, b_, over_⟩ := sound.probing token own
    apply inv_write
    · constructor
      · intro other until_ lease runs
        unfold History.lease at lease
        dsimp only at lease
        rw [Function.update_apply] at lease
        split at lease
        · cases lease
        · rename_i differ
          exact absurd (sound.holder lease runs own) differ
      · exact sound.blocked
      · exact sound.opened
      · exact fun _ none_ => nomatch none_
      · exact fun _ => rfl
      · exact sound.counted
    · constructor
      · intro b' b'_
        dsimp only at b'_
        rw [b_] at b'_
        cases b'_
        unfold openAIModelPoolCircuitRetention
        omega
      · exact fun _ none_ => nomatch none_
      · intro none_
        dsimp only at none_
        rw [b_] at none_
        cases none_

theorem renew_inv (inv : Inv s now) :
    Inv ⟨(renewProbe token now s.key).1, s.record ⟨.renew, token, now⟩⟩ now := by
  have sound := inv.content
  unfold State.record renewProbe
  dsimp only
  split
  · exact inv
  · rename_i own
    rw [not_not] at own
    obtain ⟨b, b_, over_⟩ := sound.probing token own
    split
    · exact inv
    · rw [if_pos rfl]
      apply inv_write
      · constructor
        · intro other until_ lease runs
          unfold History.lease at lease
          dsimp only at lease ⊢
          rw [Function.update_apply] at lease
          split at lease
          · rename_i same
            cases lease
            exact ⟨same ▸ own, rfl⟩
          · rename_i differ
            exact absurd (sound.holder lease runs own) differ
        · exact sound.blocked
        · exact sound.opened
        · exact sound.probing
        · intro none_
          dsimp only at none_
          rw [own] at none_
          cases none_
        · exact sound.counted
      · constructor
        · intro b' b'_
          dsimp only at b'_
          rw [b_] at b'_
          cases b'_
          unfold openAIModelPoolCircuitProbeLease openAIModelPoolCircuitRetention
          omega
        · intro until_ at_
          cases at_
          unfold openAIModelPoolCircuitProbeLease openAIModelPoolCircuitRetention
          omega
        · intro none_
          dsimp only at none_
          rw [b_] at none_
          cases none_

theorem step_inv {call : Call} (start : 0 ≤ call.now) (inv : Inv s call.now) :
    Inv (s.step call) call.now := by
  obtain ⟨op, token, now⟩ := call
  cases op with
  | acquire => exact acquire_inv inv
  | failure failureClass => exact failure_inv start inv
  | success => exact success_inv start inv
  | release => exact release_inv inv
  | renew => exact renew_inv inv

end Sub2api.ModelPool
