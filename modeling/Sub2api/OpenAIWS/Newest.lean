import Sub2api.OpenAIWS.Preemption

/-!
# The newest connection survives

`Moved` lists what a turn can do; `Identified` is the invariant of every run (a registry's entry is
its connection's, and no two connections of a server share a generation), `Ordered` that of a run in
which no call replaces the owner of the key. Under it the owner is never preempted, and every other
connection either is or is still its server's entry and has not checked the owner since.
-/

namespace Sub2api.OpenAIWS

open Interleave

/-! ### The turns -/

/-- The call has registered. -/
def Caller.begun : Caller → Bool
  | .calling => false
  | .claimed _ => false
  | _ => true

def Caller.closing : Caller → Bool
  | .stopped => true
  | .removed => true
  | .cleaned => true
  | _ => false

/-- The call has returned, so the watcher runs. -/
def Caller.done : Caller → Bool
  | .returned _ => true
  | .stopped => true
  | .removed => true
  | .cleaned => true
  | _ => false

/-- What one turn of a connection can do. -/
inductive Moved (c : Connection) (s : Shared) : Move → Connection → Shared → Prop where
  | claim (others : ℕ) (calling : c.caller = .calling) :
      Moved c s (.proceed others) { c with caller := .claimed s.owner } (s.claim c.conn).2
  | register (previous : Option ℕ) (others : ℕ) (claimed : c.caller = .claimed previous) :
      Moved c s (.proceed others)
        { c with
          generation := (s.registry c.server).next + others + 1
          caller := .registered (s.registry c.server).active (previous.any (· ≠ c.conn)) }
        (s.setRegistry c.server
          { next := (s.registry c.server).next + others + 1
            active := some { generation := (s.registry c.server).next + others + 1,
                             conn := c.conn } })
  | first (others : ℕ) (remote : Bool) (alone : c.caller = .registered none remote) :
      Moved c s (.proceed others)
        { c with caller := .returned (remote || false), watcher := .waiting } s
  | cancel (others : ℕ) (previous : Entry) (remote : Bool)
      (replaced : c.caller = .registered (some previous) remote) :
      Moved c s (.proceed others) { c with caller := .returned (remote || true), watcher := .waiting }
        (s.preempt previous.conn)
  | stop (preemptedPrevious : Bool) (returned : c.caller = .returned preemptedPrevious) :
      Moved c s .cleanup { c with caller := .stopped } s
  | remove (others : ℕ) (stopped : c.caller = .stopped) :
      Moved c s (.proceed others) { c with caller := .removed }
        (s.setRegistry c.server ((s.registry c.server).cleanup c.generation))
  | release (others : ℕ) (removed : c.caller = .removed) :
      Moved c s (.proceed others) { c with caller := .cleaned } (s.compareAndDelete c.conn)
  | owned (waiting : c.watcher = .waiting) (owner : s.owner = some c.conn) :
      Moved c s .watch c (s.compareAndRefresh c.conn).2
  | lose (waiting : c.watcher = .waiting) (owner : s.owner ≠ some c.conn) :
      Moved c s .watch { c with watcher := .lost } (s.compareAndRefresh c.conn).2
  | yield (lost : c.watcher = .lost) :
      Moved c s .watch { c with watcher := .ended } (s.preempt c.conn)

theorem step_moved {move : Move} {c c' : Connection} {s s' : Shared}
    (moved : step move c s = some (c', s')) : Moved c s move c' s' := by
  cases move with
  | proceed others =>
      cases caller : c.caller with
      | calling =>
          simp only [step, caller, Option.some.injEq, Prod.mk.injEq] at moved
          obtain ⟨rfl, rfl⟩ := moved
          exact .claim others caller
      | claimed previous =>
          simp only [step, caller, Option.some.injEq, Prod.mk.injEq] at moved
          obtain ⟨rfl, rfl⟩ := moved
          exact .register previous others caller
      | registered replaced remote =>
          simp only [step, caller, Option.some.injEq, Prod.mk.injEq] at moved
          obtain ⟨rfl, rfl⟩ := moved
          cases replaced with
          | none => exact .first others remote caller
          | some previous => exact .cancel others previous remote caller
      | returned preemptedPrevious => simp [step, caller] at moved
      | stopped =>
          simp only [step, caller, Option.some.injEq, Prod.mk.injEq] at moved
          obtain ⟨rfl, rfl⟩ := moved
          exact .remove others caller
      | removed =>
          simp only [step, caller, Option.some.injEq, Prod.mk.injEq] at moved
          obtain ⟨rfl, rfl⟩ := moved
          exact .release others caller
      | cleaned => simp [step, caller] at moved
  | cleanup =>
      cases caller : c.caller with
      | returned preemptedPrevious =>
          simp only [step, caller, Option.some.injEq, Prod.mk.injEq] at moved
          obtain ⟨rfl, rfl⟩ := moved
          exact .stop preemptedPrevious caller
      | calling => simp [step, caller] at moved
      | claimed previous => simp [step, caller] at moved
      | registered replaced remote => simp [step, caller] at moved
      | stopped => simp [step, caller] at moved
      | removed => simp [step, caller] at moved
      | cleaned => simp [step, caller] at moved
  | watch =>
      cases watcher : c.watcher with
      | off => simp [step, watcher] at moved
      | ended => simp [step, watcher] at moved
      | lost =>
          simp only [step, watcher, Option.some.injEq, Prod.mk.injEq] at moved
          obtain ⟨rfl, rfl⟩ := moved
          exact .yield watcher
      | waiting =>
          by_cases owner : s.owner = some c.conn
          · have owned : (s.compareAndRefresh c.conn).1 = true := by
              simp [Shared.compareAndRefresh, owner]
            simp only [step, watcher, owned, if_true, Option.some.injEq, Prod.mk.injEq] at moved
            obtain ⟨rfl, rfl⟩ := moved
            have same : { c with watcher := .waiting } = c := by
              rw [← watcher]
            rw [same]
            exact .owned watcher owner
          · have owned : (s.compareAndRefresh c.conn).1 = false := by
              simp [Shared.compareAndRefresh, owner]
            simp only [step, watcher, owned, Option.some.injEq, Prod.mk.injEq] at moved
            obtain ⟨rfl, rfl⟩ := moved
            exact .lose watcher owner

/-! ### Entries and generations -/

/-- What holds in every run. -/
structure Identified (server : ℕ → ℕ) (c : Pool ℕ Connection Shared) : Prop where
  named : ∀ i, (c.threads i).conn = i
  home : ∀ i, (c.threads i).server = server i
  entry : ∀ k e, (c.shared.registry k).active = some e → server e.conn = k ∧
    (c.threads e.conn).caller.begun = true ∧ (c.threads e.conn).generation = e.generation
  bounded : ∀ i, (c.threads i).caller.begun = true →
    (c.threads i).generation ≤ (c.shared.registry (server i)).next
  distinct : ∀ i j, (c.threads i).caller.begun = true → (c.threads j).caller.begun = true →
    server i = server j → (c.threads i).generation = (c.threads j).generation → i = j

theorem identified_start (server : ℕ → ℕ) : Identified server (start server) where
  named _ := rfl
  home _ := rfl
  entry := by
    intro k e active
    cases active
  bounded := by
    intro i begun
    cases begun
  distinct := by
    intro i j begun
    cases begun

theorem Registry.cleanup_cases (r : Registry) (generation : ℕ) :
    r.cleanup generation = r ∨
      ∃ e, r.active = some e ∧ e.generation = generation ∧
        r.cleanup generation = { r with active := none } := by
  unfold Registry.cleanup
  split
  · rename_i current active
    split
    · rename_i own
      exact Or.inr ⟨current, active, own, rfl⟩
    · exact Or.inl rfl
  · exact Or.inl rfl

variable {c : Pool ℕ Connection Shared} {server : ℕ → ℕ}

/-- A turn that leaves the registries, the generations and who has begun alone. -/
theorem Identified.kept (inv : Identified server c) {i : ℕ} {p : Connection} {s : Shared}
    (named : p.conn = (c.threads i).conn) (home : p.server = (c.threads i).server)
    (generation : p.generation = (c.threads i).generation)
    (begun : p.caller.begun = (c.threads i).caller.begun)
    (next : ∀ k, (s.registry k).next = (c.shared.registry k).next)
    (active : ∀ k e, (s.registry k).active = some e → (c.shared.registry k).active = some e) :
    Identified server { shared := s, threads := Function.update c.threads i p } := by
  have same : ∀ j, ((Function.update c.threads i p) j).conn = (c.threads j).conn ∧
      ((Function.update c.threads i p) j).server = (c.threads j).server ∧
      ((Function.update c.threads i p) j).generation = (c.threads j).generation ∧
      ((Function.update c.threads i p) j).caller.begun = (c.threads j).caller.begun := by
    intro j
    by_cases own : j = i
    · subst own
      simp [named, home, generation, begun]
    · simp [Function.update_of_ne own]
  constructor
  · intro j
    exact (same j).1.trans (inv.named j)
  · intro j
    exact (same j).2.1.trans (inv.home j)
  · intro k e isActive
    obtain ⟨home, isBegun, own⟩ := inv.entry k e (active k e isActive)
    exact ⟨home, (same _).2.2.2.trans isBegun, (same _).2.2.1.trans own⟩
  · intro j isBegun
    dsimp only at isBegun ⊢
    rw [(same j).2.2.1, next]
    exact inv.bounded j ((same j).2.2.2.symm.trans isBegun)
  · intro j k isBegun isBegun' home' alike
    dsimp only at isBegun isBegun' alike
    apply inv.distinct j k ((same j).2.2.2.symm.trans isBegun) ((same k).2.2.2.symm.trans isBegun')
      home'
    rw [← (same j).2.2.1, ← (same k).2.2.1]
    exact alike

theorem Identified.register (inv : Identified server c) (i others : ℕ) (replaced : Option Entry)
    (remote : Bool) :
    Identified server
      { shared := c.shared.setRegistry (c.threads i).server
          { next := (c.shared.registry (c.threads i).server).next + others + 1
            active := some
              { generation := (c.shared.registry (c.threads i).server).next + others + 1,
                conn := (c.threads i).conn } }
        threads := Function.update c.threads i
          { c.threads i with
            generation := (c.shared.registry (c.threads i).server).next + others + 1
            caller := .registered replaced remote } } := by
  have fresh : ∀ j, j ≠ i → (c.threads j).caller.begun = true → server j = server i →
      (c.threads j).generation ≠ (c.shared.registry (server i)).next + others + 1 := by
    intro j _ isBegun home
    have bounded := inv.bounded j isBegun
    rw [home] at bounded
    omega
  rw [inv.home, inv.named]
  constructor
  · intro j
    by_cases own : j = i
    · subst own
      simp [inv.named]
    · simp [Function.update_of_ne own, inv.named]
  · intro j
    by_cases own : j = i
    · subst own
      simp [inv.home]
    · simp [Function.update_of_ne own, inv.home]
  · intro k e active
    by_cases here : k = server i
    · subst here
      simp only [Shared.setRegistry, Function.update_self, Option.some.injEq] at active
      subst active
      simp [Caller.begun]
    · simp only [Shared.setRegistry, Function.update_of_ne here] at active
      obtain ⟨home, isBegun, generation⟩ := inv.entry k e active
      have other : e.conn ≠ i := by
        intro same
        exact here (home.symm.trans (congrArg server same))
      simp only [Function.update_of_ne other]
      exact ⟨home, isBegun, generation⟩
  · intro j isBegun
    by_cases own : j = i
    · subst own
      simp [Shared.setRegistry]
    · simp only [Function.update_of_ne own] at isBegun ⊢
      have bounded := inv.bounded j isBegun
      by_cases here : server j = server i
      · rw [here] at bounded ⊢
        simp only [Shared.setRegistry, Function.update_self]
        omega
      · simp only [Shared.setRegistry, Function.update_of_ne here]
        exact bounded
  · intro j k isBegun isBegun' home alike
    by_cases own : j = i
    · by_cases own' : k = i
      · exact own.trans own'.symm
      · subst own
        simp only [Function.update_self, Function.update_of_ne own'] at alike isBegun'
        exact absurd alike.symm (fresh k own' isBegun' home.symm)
    · by_cases own' : k = i
      · subst own'
        simp only [Function.update_self, Function.update_of_ne own] at alike isBegun
        exact absurd alike (fresh j own isBegun home)
      · simp only [Function.update_of_ne own, Function.update_of_ne own'] at alike isBegun isBegun'
        exact inv.distinct j k isBegun isBegun' home alike

theorem Shared.compareAndDelete_registry (s : Shared) (expected : ℕ) :
    (s.compareAndDelete expected).registry = s.registry := by
  unfold Shared.compareAndDelete
  split <;> rfl

theorem identified_step {i : ℕ} {p : Connection} {s : Shared} {move : Move}
    (inv : Identified server c) (moved : Moved (c.threads i) c.shared move p s) :
    Identified server { shared := s, threads := Function.update c.threads i p } := by
  cases moved with
  | claim others calling => exact inv.kept rfl rfl rfl (by rw [calling]; rfl) (fun _ => rfl) fun _ _ => id
  | register previous others claimed => exact inv.register i others _ _
  | first others remote alone => exact inv.kept rfl rfl rfl (by rw [alone]; rfl) (fun _ => rfl) fun _ _ => id
  | cancel others previous remote replaced =>
      exact inv.kept rfl rfl rfl (by rw [replaced]; rfl) (fun _ => rfl) fun _ _ => id
  | stop preemptedPrevious returned =>
      exact inv.kept rfl rfl rfl (by rw [returned]; rfl) (fun _ => rfl) fun _ _ => id
  | remove others stopped =>
      have cleaned := (c.shared.registry (c.threads i).server).cleanup_cases (c.threads i).generation
      refine inv.kept rfl rfl rfl (by rw [stopped]; rfl) ?_ ?_
      · intro k
        by_cases here : k = (c.threads i).server
        · subst here
          simp only [Shared.setRegistry, Function.update_self]
          rcases cleaned with same | ⟨_, _, _, same⟩
          · rw [same]
          · rw [same]
        · simp [Shared.setRegistry, Function.update_of_ne here]
      · intro k e
        by_cases here : k = (c.threads i).server
        · subst here
          simp only [Shared.setRegistry, Function.update_self]
          rcases cleaned with same | ⟨_, _, _, same⟩
          · rw [same]
            exact id
          · rw [same]
            intro impossible
            cases impossible
        · simp [Shared.setRegistry, Function.update_of_ne here]
  | release others removed =>
      refine inv.kept rfl rfl rfl (by rw [removed]; rfl) ?_ ?_
      · intro k
        rw [Shared.compareAndDelete_registry]
      · intro k e
        rw [Shared.compareAndDelete_registry]
        exact id
  | owned waiting owner => exact inv.kept rfl rfl rfl rfl (fun _ => rfl) fun _ _ => id
  | lose waiting owner => exact inv.kept rfl rfl rfl rfl (fun _ => rfl) fun _ _ => id
  | yield lost => exact inv.kept rfl rfl rfl rfl (fun _ => rfl) fun _ _ => id

/-! ### Cleanups -/

/-- The entry a cleanup takes away is its own connection's. -/
theorem Identified.own_entry (inv : Identified server c) {i : ℕ} {e : Entry}
    (begun : (c.threads i).caller.begun = true)
    (active : (c.shared.registry (server i)).active = some e)
    (generation : e.generation = (c.threads i).generation) : e.conn = i := by
  obtain ⟨home, isBegun, own⟩ := inv.entry _ _ active
  exact inv.distinct e.conn i isBegun begun home (own.trans generation)

/-- A cleanup leaves the entries of other connections. -/
theorem Identified.cleanup_keeps (inv : Identified server c) {i other : ℕ} {e : Entry}
    (begun : (c.threads i).caller.begun = true)
    (active : (c.shared.registry (server other)).active = some e) (own : e.conn = other)
    (isOther : other ≠ i) :
    ((c.shared.setRegistry (server i) ((c.shared.registry (server i)).cleanup
      (c.threads i).generation)).registry (server other)).active = some e := by
  by_cases here : server other = server i
  · rw [here] at active ⊢
    simp only [Shared.setRegistry, Function.update_self]
    rcases (c.shared.registry (server i)).cleanup_cases (c.threads i).generation with
      same | ⟨current, isCurrent, generation, _⟩
    · rw [same]
      exact active
    · have mine := inv.own_entry begun isCurrent generation
      rw [active] at isCurrent
      cases isCurrent
      exact absurd (own.symm.trans mine) isOther
  · simp only [Shared.setRegistry, Function.update_of_ne here]
    exact active

theorem cleanup_safe (inv : Identified server c) (i : ℕ) (move : Move) :
    CleanupSafe c i move := by
  intro cleaning other isOther
  rcases Pool.advance_cases step i move c with same | ⟨p, s, stepped, next⟩
  · rw [same]
    exact ⟨id, id⟩
  · rw [next]
    have moved := step_moved stepped
    have home : ((Function.update c.threads i p) other).server = (c.threads other).server := by
      rw [Function.update_of_ne isOther]
    -- Only the removal touches a registry, and only the release the owner.
    have registered : (∀ e, (c.shared.registry (server other)).active = some e → e.conn = other →
          (s.registry (server other)).active = some e) →
        Registered c other →
        Registered { shared := s, threads := Function.update c.threads i p } other := by
      rintro stays ⟨e, active, own⟩
      refine ⟨e, ?_, own⟩
      dsimp only
      rw [home, inv.home]
      rw [inv.home] at active
      exact stays e active own
    cases moved with
    | claim others calling =>
        rw [calling] at cleaning
        rcases cleaning with impossible | impossible | called
        · cases impossible
        · cases impossible
        · cases called
    | register previous others claimed =>
        rw [claimed] at cleaning
        rcases cleaning with impossible | impossible | called
        · cases impossible
        · cases impossible
        · cases called
    | first others remote alone => exact ⟨registered fun e active _ => active, id⟩
    | cancel others previous remote replaced => exact ⟨registered fun e active _ => active, id⟩
    | stop preemptedPrevious returned => exact ⟨registered fun e active _ => active, id⟩
    | remove others stopped =>
        refine ⟨registered ?_, id⟩
        intro e active own
        have begun : (c.threads i).caller.begun = true := by rw [stopped]; rfl
        rw [inv.home]
        exact inv.cleanup_keeps begun active own isOther
    | release others removed =>
        constructor
        · apply registered
          intro e active _
          rw [Shared.compareAndDelete_registry]
          exact active
        · intro owner
          dsimp only
          unfold Shared.compareAndDelete
          rw [if_neg]
          · exact owner
          · rw [inv.named, owner]
            intro same
            exact isOther (Option.some.inj same)
    | owned waiting owner => exact ⟨registered fun e active _ => active, id⟩
    | lose waiting owner => exact ⟨registered fun e active _ => active, id⟩
    | yield lost => exact ⟨registered fun e active _ => active, id⟩

/-! ### The owner -/

/-- What holds where no call replaces the owner of the key and only preempted connections close. -/
structure Ordered (server : ℕ → ℕ) (c : Pool ℕ Connection Shared) : Prop where
  identified : Identified server c
  owner : 0 < c.shared.claims → ∃ i, c.shared.owner = some i ∧ (c.threads i).caller ≠ .calling
  started : ∀ i, (c.threads i).caller ≠ .calling → 0 < c.shared.claims
  replaced : ∀ i e remote, (c.threads i).caller = .registered (some e) remote →
    c.shared.owner ≠ some e.conn ∧ (c.threads e.conn).caller.begun = true
  preempted : ∀ i, c.shared.preempted i = true →
    c.shared.owner ≠ some i ∧ (c.threads i).caller.begun = true
  lost : ∀ i, (c.threads i).watcher = .lost → c.shared.owner ≠ some i
  watching : ∀ i, (c.threads i).watcher ≠ .off → (c.threads i).caller.done = true
  unwatched : ∀ i, (c.threads i).watcher = .off → c.shared.checked i = 0
  checked_le : ∀ i, c.shared.checked i ≤ c.shared.claims
  closing : ∀ i, (c.threads i).caller.closing = true → c.shared.preempted i = true
  placed : ∀ i, (c.threads i).caller.begun = true →
    (∃ e, (c.shared.registry (server i)).active = some e ∧ e.conn = i) ∨
      c.shared.preempted i = true ∨
      ∃ j e remote, (c.threads j).caller = .registered (some e) remote ∧ e.conn = i
  checked : ∀ i, (c.threads i).watcher ≠ .off → c.shared.checked i = c.shared.claims →
    c.shared.owner = some i ∨ (c.threads i).watcher = .lost ∨ c.shared.preempted i = true

theorem Caller.done_begun {caller : Caller} (done : caller.done = true) : caller.begun = true := by
  cases caller <;> first | rfl | cases done

attribute [local grind =] Caller.begun Caller.done Caller.closing

attribute [local grind →] Caller.done_begun

section Turns

variable {server : ℕ → ℕ} {c : Pool ℕ Connection Shared} {i : ℕ}

/-- The new owner has no entry, no watcher and was never preempted. -/
theorem Ordered.claim (inv : Ordered server c) (others : ℕ)
    (calling : (c.threads i).caller = .calling) :
    Ordered server
      { shared := (c.shared.claim (c.threads i).conn).2
        threads := Function.update c.threads i
          { c.threads i with caller := .claimed c.shared.owner } } := by
  have identified := identified_step inv.identified (.claim others calling)
  obtain ⟨old, owner, started, replaced, preempted, lost, watching, unwatched, checked_le, closing,
    placed, checked⟩ := inv
  have named := old.named i
  have notBegun : ∀ j, (c.threads j).caller.begun = true → j ≠ i := by
    rintro j begun rfl
    rw [calling] at begun
    cases begun
  refine ⟨identified, ?_, ?_, ?_, ?_, ?_, ?_, ?_, ?_, ?_, ?_, ?_⟩
  all_goals simp only [Shared.claim, named, Function.update_apply]
  all_goals grind

/-- The replaced entry waits to be cancelled; it is not the owner's. -/
theorem Ordered.register (inv : Ordered server c) (others : ℕ) {previous : Option ℕ}
    (claimed : (c.threads i).caller = .claimed previous)
    (inOrder : ∀ e, (c.shared.registry (server i)).active = some e →
      c.shared.owner ≠ some e.conn) :
    Ordered server
      { shared := c.shared.setRegistry (c.threads i).server
          { next := (c.shared.registry (c.threads i).server).next + others + 1
            active := some
              { generation := (c.shared.registry (c.threads i).server).next + others + 1
                conn := (c.threads i).conn } }
        threads := Function.update c.threads i
          { c.threads i with
            generation := (c.shared.registry (c.threads i).server).next + others + 1
            caller := .registered (c.shared.registry (c.threads i).server).active
              (previous.any (· ≠ (c.threads i).conn)) } } := by
  have identified := identified_step inv.identified (.register previous others claimed)
  obtain ⟨old, owner, started, replaced, preempted, lost, watching, unwatched, checked_le, closing,
    placed, checked⟩ := inv
  have named := old.named i
  have home := old.home i
  have entries := old.entry
  refine ⟨identified, ?_, ?_, ?_, ?_, ?_, ?_, ?_, ?_, ?_, ?_, ?_⟩
  all_goals simp only [Shared.setRegistry, named, home, Function.update_apply]
  all_goals grind

theorem Ordered.first (inv : Ordered server c) (others : ℕ) {remote : Bool}
    (alone : (c.threads i).caller = .registered none remote) :
    Ordered server
      { shared := c.shared
        threads := Function.update c.threads i
          { c.threads i with caller := .returned (remote || false), watcher := .waiting } } := by
  have identified := identified_step inv.identified (.first others remote alone)
  obtain ⟨old, owner, started, replaced, preempted, lost, watching, unwatched, checked_le, closing,
    placed, checked⟩ := inv
  refine ⟨identified, ?_, ?_, ?_, ?_, ?_, ?_, ?_, ?_, ?_, ?_, ?_⟩
  all_goals simp only [Function.update_apply]
  all_goals grind

theorem Ordered.cancel (inv : Ordered server c) (others : ℕ) {previous : Entry}
    {remote : Bool} (isReplaced : (c.threads i).caller = .registered (some previous) remote) :
    Ordered server
      { shared := c.shared.preempt previous.conn
        threads := Function.update c.threads i
          { c.threads i with caller := .returned (remote || true), watcher := .waiting } } := by
  have identified := identified_step inv.identified (.cancel others previous remote isReplaced)
  obtain ⟨old, owner, started, replaced, preempted, lost, watching, unwatched, checked_le, closing,
    placed, checked⟩ := inv
  have notOwner := replaced i previous remote isReplaced
  refine ⟨identified, ?_, ?_, ?_, ?_, ?_, ?_, ?_, ?_, ?_, ?_, ?_⟩
  all_goals simp only [Shared.preempt, Function.update_apply]
  all_goals grind

theorem Ordered.stop (inv : Ordered server c) {preemptedPrevious : Bool}
    (returned : (c.threads i).caller = .returned preemptedPrevious)
    (isPreempted : c.shared.preempted i = true) :
    Ordered server
      { shared := c.shared
        threads := Function.update c.threads i
          { c.threads i with caller := .stopped } } := by
  have identified := identified_step inv.identified (.stop preemptedPrevious returned)
  obtain ⟨old, owner, started, replaced, preempted, lost, watching, unwatched, checked_le, closing,
    placed, checked⟩ := inv
  refine ⟨identified, ?_, ?_, ?_, ?_, ?_, ?_, ?_, ?_, ?_, ?_, ?_⟩
  all_goals simp only [Function.update_apply]
  all_goals grind

/-- Whoever loses its entry in a removal is preempted already. -/
theorem Ordered.remove (inv : Ordered server c) (others : ℕ)
    (stopped : (c.threads i).caller = .stopped) :
    Ordered server
      { shared := c.shared.setRegistry (c.threads i).server
          ((c.shared.registry (c.threads i).server).cleanup (c.threads i).generation)
        threads := Function.update c.threads i
          { c.threads i with caller := .removed } } := by
  have identified := identified_step inv.identified (.remove others stopped)
  obtain ⟨old, owner, started, replaced, preempted, lost, watching, unwatched, checked_le, closing,
    placed, checked⟩ := inv
  have home := old.home i
  have isPreempted := closing i (by rw [stopped]; rfl)
  have begun : (c.threads i).caller.begun = true := by rw [stopped]; rfl
  dsimp only at identified ⊢
  rw [home] at identified ⊢
  refine ⟨identified, ?_, ?_, ?_, ?_, ?_, ?_, ?_, ?_, ?_, ?_, ?_⟩
  case refine_10 =>
    intro j isBegun
    simp only [Function.update_apply] at isBegun ⊢
    by_cases own : j = i
    · exact Or.inr (Or.inl (own ▸ isPreempted))
    · rw [if_neg own] at isBegun
      rcases placed j isBegun with ⟨e, active, isOwn⟩ | isPreempted | ⟨k, e, remote, waits, isOwn⟩
      · exact Or.inl ⟨e, old.cleanup_keeps begun active isOwn own, isOwn⟩
      · exact Or.inr (Or.inl isPreempted)
      · grind
  all_goals simp only [Shared.setRegistry, Function.update_apply]
  all_goals grind

theorem Ordered.release (inv : Ordered server c) (others : ℕ)
    (removed : (c.threads i).caller = .removed) :
    Ordered server
      { shared := c.shared.compareAndDelete (c.threads i).conn
        threads := Function.update c.threads i
          { c.threads i with caller := .cleaned } } := by
  have identified := identified_step inv.identified (.release others removed)
  obtain ⟨old, owner, started, replaced, preempted, lost, watching, unwatched, checked_le, closing,
    placed, checked⟩ := inv
  have named := old.named i
  have isPreempted := closing i (by rw [removed]; rfl)
  have same : c.shared.compareAndDelete (c.threads i).conn = c.shared := by
    rw [named]
    exact if_neg (preempted i isPreempted).1
  rw [same] at identified ⊢
  refine ⟨identified, ?_, ?_, ?_, ?_, ?_, ?_, ?_, ?_, ?_, ?_, ?_⟩
  all_goals simp only [Function.update_apply]
  all_goals grind

theorem Ordered.owned (inv : Ordered server c) (waiting : (c.threads i).watcher = .waiting)
    (isOwner : c.shared.owner = some (c.threads i).conn) :
    Ordered server
      { shared := (c.shared.compareAndRefresh (c.threads i).conn).2
        threads := Function.update c.threads i
          (c.threads i) } := by
  have identified := identified_step inv.identified (.owned waiting isOwner)
  obtain ⟨old, owner, started, replaced, preempted, lost, watching, unwatched, checked_le, closing,
    placed, checked⟩ := inv
  have named := old.named i
  refine ⟨identified, ?_, ?_, ?_, ?_, ?_, ?_, ?_, ?_, ?_, ?_, ?_⟩
  all_goals simp only [Shared.compareAndRefresh, named, Function.update_apply]
  all_goals grind

theorem Ordered.lose (inv : Ordered server c) (waiting : (c.threads i).watcher = .waiting)
    (notOwner : c.shared.owner ≠ some (c.threads i).conn) :
    Ordered server
      { shared := (c.shared.compareAndRefresh (c.threads i).conn).2
        threads := Function.update c.threads i
          { c.threads i with watcher := .lost } } := by
  have identified := identified_step inv.identified (.lose waiting notOwner)
  obtain ⟨old, owner, started, replaced, preempted, lost, watching, unwatched, checked_le, closing,
    placed, checked⟩ := inv
  have named := old.named i
  refine ⟨identified, ?_, ?_, ?_, ?_, ?_, ?_, ?_, ?_, ?_, ?_, ?_⟩
  all_goals simp only [Shared.compareAndRefresh, named, Function.update_apply]
  all_goals grind

theorem Ordered.yield (inv : Ordered server c) (isLost : (c.threads i).watcher = .lost) :
    Ordered server
      { shared := c.shared.preempt (c.threads i).conn
        threads := Function.update c.threads i
          { c.threads i with watcher := .ended } } := by
  have identified := identified_step inv.identified (.yield isLost)
  obtain ⟨old, owner, started, replaced, preempted, lost, watching, unwatched, checked_le, closing,
    placed, checked⟩ := inv
  have named := old.named i
  have notOwner := lost i isLost
  refine ⟨identified, ?_, ?_, ?_, ?_, ?_, ?_, ?_, ?_, ?_, ?_, ?_⟩
  all_goals simp only [Shared.preempt, named, Function.update_apply]
  all_goals grind

/-- What one turn keeps: a registration may not replace the owner, and a cleanup may only be called
for a preempted connection. -/
theorem ordered_step {p : Connection} {s : Shared} {move : Move} (inv : Ordered server c)
    (moved : Moved (c.threads i) c.shared move p s)
    (order : ∀ others previous, move = .proceed others → (c.threads i).caller = .claimed previous →
      ∀ e, (c.shared.registry (server i)).active = some e → c.shared.owner ≠ some e.conn)
    (closes : move = .cleanup → c.shared.preempted i = true) :
    Ordered server { shared := s, threads := Function.update c.threads i p } := by
  cases moved with
  | claim others calling => exact inv.claim others calling
  | register previous others claimed =>
      exact inv.register others claimed (order others previous rfl claimed)
  | first others remote alone => exact inv.first others alone
  | cancel others previous remote isReplaced => exact inv.cancel others isReplaced
  | stop preemptedPrevious returned => exact inv.stop returned (closes rfl)
  | remove others stopped => exact inv.remove others stopped
  | release others removed => exact inv.release others removed
  | owned waiting isOwner => exact inv.owned waiting isOwner
  | lose waiting notOwner => exact inv.lose waiting notOwner
  | yield isLost => exact inv.yield isLost

end Turns

theorem ordered_start (server : ℕ → ℕ) : Ordered server (start server) where
  identified := identified_start server
  owner none_claimed := absurd none_claimed (Nat.lt_irrefl 0)
  started _ made := absurd rfl made
  replaced _ _ _ waits := by cases waits
  preempted _ isPreempted := by cases isPreempted
  lost _ isLost := by cases isLost
  watching _ watched := absurd rfl watched
  unwatched _ _ := rfl
  checked_le _ := Nat.zero_le _
  closing _ closes := by cases closes
  placed _ begun := by cases begun
  checked _ watched := absurd rfl watched

theorem ordered_run {schedule : List (ℕ × Move)}
    (closes : Pool.Throughout step ClosesPreempted schedule (start server))
    (order : Pool.Throughout step RegistersInOrder schedule (start server)) :
    Ordered server (run server schedule) := by
  refine Pool.run_invariant_throughout step (Ordered server) _ ?_ schedule (ordered_start server)
    (closes.and order)
  rintro c i move p s inv ⟨closing, inOrder⟩ stepped
  apply ordered_step inv (step_moved stepped)
  · intro others previous proceeds claimed e active
    rw [← inv.identified.home] at active
    exact inOrder others previous proceeds claimed e active
  · exact closing

/-- The owner survives, and who else is registered has found out that it is not the owner. -/
theorem Ordered.oneSurvivor (inv : Ordered server c) (ownersChecked : OwnersChecked c) :
    OneSurvivor c := by
  rintro returned ⟨k, made⟩
  have claimed := inv.started k made
  obtain ⟨owner, owns, ownerMade⟩ := inv.owner claimed
  refine ⟨owner, ⟨ownerMade, ?_⟩, ?_⟩
  · by_contra isPreempted
    exact (inv.preempted owner (by simpa using isPreempted)).1 owns
  · rintro j ⟨jMade, notPreempted⟩
    by_contra other
    have notOwner : c.shared.owner ≠ some j := by
      rw [owns]
      intro same
      exact other (Option.some.inj same).symm
    have begun : (c.threads j).caller.begun = true := by
      have isReturned := returned j
      cases caller : (c.threads j).caller with
      | calling => exact absurd caller jMade
      | claimed previous =>
          rw [caller] at isReturned
          cases isReturned
      | registered previous remote => rfl
      | returned preemptedPrevious => rfl
      | stopped => rfl
      | removed => rfl
      | cleaned => rfl
    rcases inv.placed j begun with ⟨e, active, own⟩ | isPreempted | ⟨i, e, remote, waits, _⟩
    · rw [← inv.identified.home] at active
      obtain ⟨sinceClaim, notLost⟩ := ownersChecked j ⟨e, active, own⟩ notOwner
      have watched : (c.threads j).watcher ≠ .off := by
        intro off
        have unchecked := inv.unwatched j off
        omega
      rcases inv.checked j watched sinceClaim with owns' | isLost | isPreempted
      · exact notOwner owns'
      · exact notLost isLost
      · rw [notPreempted] at isPreempted
        cases isPreempted
    · rw [notPreempted] at isPreempted
      cases isPreempted
    · have isReturned := returned i
      rw [waits] at isReturned
      cases isReturned

/-- **Preemption keeps the newest connection.** In every run a cleanup leaves the registration and
the ownership of every other connection alone. And where only preempted connections close and no
call replaces the connection that owns the key, exactly one connection is not preempted once all
calls have returned and the other servers' entries have checked the owner. -/
theorem newest_survives (server : ℕ → ℕ) (schedule : List (ℕ × Move)) :
    Pool.Throughout step CleanupSafe schedule (start server) ∧
    (Pool.Throughout step ClosesPreempted schedule (start server) →
      Pool.Throughout step RegistersInOrder schedule (start server) →
      OwnersChecked (run server schedule) → OneSurvivor (run server schedule)) := by
  constructor
  · exact Pool.throughout_of_invariant step (Identified server) _
      (fun c i e p s inv stepped => identified_step inv (step_moved stepped))
      (fun c i e inv => cleanup_safe inv i e) schedule (identified_start server)
  · intro closes order checked
    exact (ordered_run closes order).oneSurvivor checked

/-! ### Two calls that pass each other -/

namespace Sample

def oneServer (_ : ℕ) : ℕ := 0

def proceeds (i times : ℕ) : List (ℕ × Move) := List.replicate times (i, .proceed 0)

/-- The first call claims, the second claims and registers, then the first registers; the first
connection's watcher finds the second one's token. -/
def crossed : List (ℕ × Move) :=
  proceeds 0 1 ++ proceeds 1 3 ++ proceeds 0 2 ++ [(0, .watch), (0, .watch)]

/-- One call after the other, and an owner check of the first connection. -/
def inTurn : List (ℕ × Move) :=
  proceeds 0 3 ++ proceeds 1 3 ++ [(0, .watch), (0, .watch)]

end Sample

instance (c : Pool ℕ Connection Shared) (i : ℕ) (move : Move) :
    Decidable (ClosesPreempted c i move) :=
  inferInstanceAs (Decidable (_ → _))

/-- In a run of the first two connections the others' calls are not made. -/
theorem calling_of_two {schedule : List (ℕ × Move)}
    (two : ∀ turn ∈ schedule, turn.1 = 0 ∨ turn.1 = 1) {i : ℕ} (first : i ≠ 0) (second : i ≠ 1) :
    ((run server schedule).threads i).caller = .calling := by
  unfold run
  rw [Pool.run_threads]
  · rfl
  · intro turn listed same
    rcases two turn listed with zero | one
    · exact first (same.symm.trans zero)
    · exact second (same.symm.trans one)

/-- On one server, only the connection of the entry needs an owner check. -/
theorem ownersChecked_oneServer {schedule : List (ℕ × Move)} {conn : ℕ}
    (entry : ((run Sample.oneServer schedule).shared.registry 0).active.map (·.conn) = some conn)
    (checked : (run Sample.oneServer schedule).shared.owner ≠ some conn →
      (run Sample.oneServer schedule).shared.checked conn =
          (run Sample.oneServer schedule).shared.claims ∧
        ((run Sample.oneServer schedule).threads conn).watcher ≠ .lost) :
    OwnersChecked (run Sample.oneServer schedule) := by
  have inv : Identified Sample.oneServer (run Sample.oneServer schedule) :=
    Pool.run_invariant step _
      (fun c i e p s inv stepped => identified_step inv (step_moved stepped)) schedule
      (identified_start _)
  rintro i ⟨e, active, own⟩ notOwner
  rw [inv.home] at active
  have zero : Sample.oneServer i = 0 := rfl
  rw [zero] at active
  rw [active] at entry
  have same : e.conn = conn := Option.some.inj entry
  rw [← own, same] at notOwner ⊢
  exact checked notOwner

theorem newest_survives_inTurn : OneSurvivor (run Sample.oneServer Sample.inTurn) := by
  apply (newest_survives Sample.oneServer Sample.inTurn).2
  · simp [Sample.inTurn, Sample.proceeds, Pool.Throughout, ClosesPreempted, List.replicate]
  · simp [Sample.inTurn, Sample.proceeds, Pool.Throughout, RegistersInOrder, List.replicate,
      Pool.advance, step, start, Sample.oneServer, Shared.claim, Shared.setRegistry,
      Registry.begin, Shared.compareAndRefresh, Function.update]
  · apply @ownersChecked_oneServer _ 1
    · decide +kernel
    · intro notOwner
      exact absurd (by decide +kernel) notOwner

/-- The two connections preempt each other, and none is left. -/
theorem crossed_none_survives :
    ∃ server schedule, Pool.Throughout step ClosesPreempted schedule (start server) ∧
      OwnersChecked (run server schedule) ∧ ¬ OneSurvivor (run server schedule) := by
  refine ⟨Sample.oneServer, Sample.crossed, ?_, ?_, ?_⟩
  · simp [Sample.crossed, Sample.proceeds, Pool.Throughout, ClosesPreempted, List.replicate]
  · apply @ownersChecked_oneServer _ 0
    · decide +kernel
    · intro _
      decide +kernel
  · intro one
    have two : ∀ turn ∈ Sample.crossed, turn.1 = 0 ∨ turn.1 = 1 := by decide +kernel
    obtain ⟨i, ⟨made, notPreempted⟩, _⟩ := one
      (by
        intro i
        by_cases first : i = 0
        · subst first
          decide +kernel
        · by_cases second : i = 1
          · subst second
            decide +kernel
          · rw [calling_of_two two first second]
            rfl)
      ⟨0, by decide +kernel⟩
    by_cases first : i = 0
    · subst first
      revert notPreempted
      decide +kernel
    · by_cases second : i = 1
      · subst second
        revert notPreempted
        decide +kernel
      · exact made (calling_of_two two first second)

end Sub2api.OpenAIWS
