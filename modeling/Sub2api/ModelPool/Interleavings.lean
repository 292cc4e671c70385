import Sub2api.ModelPool.Breaker

/-!
# Interleavings of clients

A run is any list of scripts at times that do not go back. In half-open state a recorded probe shuts
out everybody else; only its own owner may be late, and then only with a success.
-/

namespace Sub2api.ModelPool

variable {s : State} {call : Call}

def Op.outcome : Op → Bool
  | .failure _ | .success => true
  | _ => false

/-- What a breaker promises of a call. -/
structure Correct (s : State) (call : Call) : Prop where
  /-- There is one lease that has not run out, at most. -/
  single : ∀ later, call.now ≤ later → ∀ token token',
    (s.step call).history.Holds later token → (s.step call).history.Holds later token' →
      token = token'
  /-- Nobody else changes anything while the probe has its lease. -/
  leased : ∀ owner until_, (s.key.content call.now).probeOwner = some owner →
    (s.key.content call.now).probeUntil = some until_ → call.now < until_ → call.token ≠ owner →
      call.apply s.key = s.key
  /-- No outcome of anybody else changes anything while a probe is recorded. -/
  recorded : ∀ owner, (s.key.content call.now).probeOwner = some owner → call.token ≠ owner →
    call.op.outcome = true → call.apply s.key = s.key
  /-- A failure changes nothing after the lease, nor before there is a probe. -/
  failure : ∀ failureClass, call.op = .failure failureClass →
    0 < (s.key.content call.now).blockedUntil.getD 0 →
      (∀ until_, (s.key.content call.now).probeUntil = some until_ → until_ ≤ call.now) →
        call.apply s.key = s.key
  /-- A success of the owner clears the circuit, however late, and so does any without a probe. -/
  success : call.op = .success →
    (∀ owner, (s.key.content call.now).probeOwner = some owner → call.token = owner) →
      call.apply s.key = {}
  /-- Nobody is admitted while the last trip blocks. -/
  blocked : call.op = .acquire → call.now < s.history.blockedUntil →
    (checkAndClaim call.token call.now s.key).2.allowed = false
  /-- The key does not expire while its fields are needed. -/
  lasts : ∀ expireAt, (s.step call).key.expireAt = some expireAt →
    Lasts (s.step call).key.fields expireAt

theorem Inv.single {now : ℤ} (inv : Inv s now) {later : ℤ} (passes : now ≤ later)
    {token token' : String} (holds : s.history.Holds later token)
    (holds' : s.history.Holds later token') : token = token' := by
  obtain ⟨until_, lease, runs⟩ := holds
  obtain ⟨until_', lease', runs'⟩ := holds'
  have runs : now < until_ := by omega
  have runs' : now < until_' := by omega
  exact inv.sound.holder lease runs (inv.sound.held token' until_' lease' runs').1

theorem recorded_unchanged {owner : String}
    (owner_ : (s.key.content call.now).probeOwner = some owner) (other : call.token ≠ owner)
    (outcome : call.op.outcome = true) : call.apply s.key = s.key := by
  obtain ⟨op, token, now⟩ := call
  cases op with
  | failure failureClass =>
      rcases recordExhaustion_cases failureClass token now s.key with
        same | ⟨own, -, -⟩ | ⟨nobody, -, -⟩
      · exact congrArg Prod.fst same
      · rw [own, Option.some.injEq] at owner_
        exact absurd owner_ other
      · rw [nobody] at owner_
        cases owner_
  | success =>
      have refused : (s.key.content now).probeOwner.isSome ∧
          (s.key.content now).probeOwner ≠ some token := by
        rw [owner_]
        refine ⟨rfl, fun same => other ?_⟩
        cases same
        rfl
      change (clearSuccess token now s.key).1 = s.key
      unfold clearSuccess
      dsimp only
      rw [if_pos refused]
  | _ => cases outcome

theorem leased_unchanged {owner : String} {until_ : ℤ}
    (owner_ : (s.key.content call.now).probeOwner = some owner)
    (at_ : (s.key.content call.now).probeUntil = some until_) (runs : call.now < until_)
    (other : call.token ≠ owner) : call.apply s.key = s.key := by
  obtain ⟨op, token, now⟩ := call
  have notOwner : (s.key.content now).probeOwner ≠ some token := by
    rw [owner_]
    intro same
    cases same
    exact other rfl
  cases op with
  | acquire =>
      change (checkAndClaim token now s.key).1 = s.key
      unfold checkAndClaim
      dsimp only
      split
      · rfl
      · split
        · rfl
        · have taken : (s.key.content now).probeOwner.isSome ∧
              now < (s.key.content now).probeUntil.getD 0 := by
            rw [owner_, at_]
            exact ⟨rfl, runs⟩
          rw [if_pos taken]
  | failure failureClass => exact recorded_unchanged owner_ other rfl
  | success => exact recorded_unchanged owner_ other rfl
  | release =>
      change (releaseProbe token now s.key).1 = s.key
      unfold releaseProbe
      dsimp only
      rw [if_pos notOwner]
  | renew =>
      change (renewProbe token now s.key).1 = s.key
      unfold renewProbe
      dsimp only
      rw [if_pos notOwner]

theorem failure_unchanged {failureClass : FailureClass} (sound : Sound (s.key.content call.now)
      s.history call.now) (op : call.op = .failure failureClass)
    (blocked : 0 < (s.key.content call.now).blockedUntil.getD 0)
    (over_ : ∀ until_, (s.key.content call.now).probeUntil = some until_ → until_ ≤ call.now)
    (start : 0 ≤ call.now) : call.apply s.key = s.key := by
  obtain ⟨op', token, now⟩ := call
  dsimp only at op
  subst op
  rcases recordExhaustion_cases failureClass token now s.key with
    same | ⟨-, early, -⟩ | ⟨-, closed, -⟩
  · exact congrArg Prod.fst same
  · exfalso
    dsimp only at over_ start
    cases at_ : (s.key.content now).probeUntil with
    | none =>
        rw [at_, Option.getD_none] at early
        omega
    | some until_ =>
        rw [at_, Option.getD_some] at early
        have := over_ until_ at_
        omega
  · exact absurd blocked closed

theorem success_clears (op : call.op = .success)
    (own : ∀ owner, (s.key.content call.now).probeOwner = some owner → call.token = owner) :
    call.apply s.key = {} := by
  obtain ⟨op', token, now⟩ := call
  dsimp only at op
  subst op
  change (clearSuccess token now s.key).1 = {}
  unfold clearSuccess
  dsimp only
  rw [if_neg]
  rintro ⟨some_, differ⟩
  obtain ⟨owner, owner_⟩ := Option.isSome_iff_exists.mp some_
  apply differ
  have same : token = owner := own owner owner_
  rw [owner_, same]

theorem step_correct (start : 0 ≤ call.now) (inv : Inv s call.now) : Correct s call where
  single _ passes _ _ holds holds' := (step_inv start inv).single passes holds holds'
  leased _ _ owner_ at_ runs other := leased_unchanged owner_ at_ runs other
  recorded _ owner_ other outcome := recorded_unchanged owner_ other outcome
  failure _ op blocked over_ := failure_unchanged inv.content op blocked over_ start
  success op own := success_clears op own
  blocked _ early := by
    have blocked := inv.content.blocked early
    unfold checkAndClaim
    dsimp only
    rw [blocked, Option.getD_some, if_neg (by omega), if_pos early]
  lasts := (step_inv start inv).lasts

theorem run_inv {calls : List Call} {now : ℤ} (start : ∀ call ∈ calls, 0 ≤ call.now)
    (order : calls.Pairwise fun first second => first.now ≤ second.now) (begin_ : 0 ≤ now)
    (after : ∀ call ∈ calls, call.now ≤ now) : Inv (run calls) now := by
  induction calls using List.reverseRecOn generalizing now with
  | nil => exact inv_empty begin_
  | append_singleton calls call ih =>
      obtain ⟨order_, -, last⟩ := List.pairwise_append.mp order
      have positive := start call (by simp)
      have inv := ih (fun call' mem => start call' (by simp [mem])) order_ positive
        (fun call' mem => last call' mem call (List.mem_singleton_self call))
      have same : run (calls ++ [call]) = (run calls).step call := by
        unfold run
        rw [List.foldl_append]
        rfl
      rw [same]
      exact (step_inv positive inv).later (after call (by simp))

/-- The circuit is a breaker in every run. -/
theorem circuit_is_breaker (calls : List Call) (start : ∀ call ∈ calls, 0 ≤ call.now)
    (order : calls.Pairwise fun first second => first.now ≤ second.now)
    (earlier : List Call) (call : Call) (later : List Call)
    (same : calls = earlier ++ call :: later) : Correct (run earlier) call := by
  subst same
  obtain ⟨order_, -, last⟩ := List.pairwise_append.mp order
  have positive := start call (by simp)
  apply step_correct positive
  apply run_inv (fun call' mem => start call' (by simp [mem])) order_ positive
  exact fun call' mem => last call' mem call (List.mem_cons_self ..)

namespace Sample

/-- Two failures, and the probe after the cooldown. -/
def tripped : List Call :=
  [⟨.failure .server, "", 1000⟩, ⟨.failure .server, "", 2000⟩, ⟨.acquire, "a", 62000⟩]

end Sample

/-- The probe fails in time and everybody waits for another minute. -/
theorem circuit_is_breaker_sample :
    Correct (run (Sample.tripped ++ [⟨.failure .overload, "a", 70000⟩]))
      ⟨.acquire, "b", 129999⟩ :=
  circuit_is_breaker (Sample.tripped ++ [⟨.failure .overload, "a", 70000⟩, ⟨.acquire, "b", 129999⟩])
    (by decide) (by decide) _ _ [] rfl

/-- When the cooldown is over only a client with a lease that has not run out changes anything by its
outcome. -/
def OnlyLeaseOwner (s : State) (call : Call) : Prop :=
  0 < (s.key.content call.now).blockedUntil.getD 0 →
    (s.key.content call.now).blockedUntil.getD 0 ≤ call.now → call.op.outcome = true →
      ¬ s.history.Holds call.now call.token → call.apply s.key = s.key

/-- A probe that succeeds when its lease has run out still clears the circuit. -/
theorem late_success_clears : ¬ OnlyLeaseOwner (run Sample.tripped) ⟨.success, "a", 92000⟩ := by
  intro only
  have changed := only (by decide) (by decide) rfl (by
    rintro ⟨until_, lease, runs⟩
    have ends : (run Sample.tripped).history.leases "a" = some 92000 := by decide
    rw [ends, Option.some.injEq] at lease
    dsimp only at runs
    omega)
  revert changed
  decide

end Sub2api.ModelPool
