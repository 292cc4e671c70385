import Sub2api.Redis.Key

/-!
# The sessions of an account

A sorted set holds the sessions of an account with the second in which each was last active, and
four scripts run on it, each atomically and by the clock of Redis. Durations are nanoseconds, the
clock counts milliseconds. Window costs, and `int` of a `float64` that is not exact any more, are
left out.
-/

namespace Sub2api.SessionLimit

open Redis

/-- `int(d.Seconds())`. -/
def seconds (d : ℤ) : ℤ := d.tdiv 1000000000

/-- `sessionLimitCache`. -/
structure Cache where
  defaultIdleTimeout : ℤ

/-- `NewSessionLimitCache`. -/
def newSessionLimitCache (defaultIdleTimeoutMinutes : ℤ) : Cache where
  defaultIdleTimeout :=
    (if defaultIdleTimeoutMinutes ≤ 0 then 5 else defaultIdleTimeoutMinutes) * 60000000000

/-! ### The scripts -/

/-- The first number of `TIME`. -/
def timeOf (clock : ℤ) : ℤ := clock / 1000

/-- `ZREMRANGEBYSCORE` of the sessions that have been idle for so long. -/
def prune (idleTimeout clock : ℤ) (key : Key String) : Key String :=
  key.update clock (SortedSet.removeUpTo (timeOf clock - idleTimeout))

/-- `ZADD` and `EXPIRE`. -/
def touch (idleTimeout : ℤ) (sessionUUID : String) (clock : ℤ) (key : Key String) : Key String :=
  (key.update clock (SortedSet.add sessionUUID (timeOf clock))).expire clock
    ((idleTimeout + 60) * 1000)

def registerSessionScript (maxSessions idleTimeout : ℤ) (sessionUUID : String) (clock : ℤ)
    (key : Key String) : Key String × Bool :=
  let key := prune idleTimeout clock key
  if ((key.content clock).score sessionUUID).isSome then
    (touch idleTimeout sessionUUID clock key, true)
  else if ((key.content clock).card : ℤ) < maxSessions then
    (touch idleTimeout sessionUUID clock key, true)
  else (key, false)

def refreshSessionScript (idleTimeout : ℤ) (sessionUUID : String) (clock : ℤ)
    (key : Key String) : Key String :=
  if ((key.content clock).score sessionUUID).isSome then touch idleTimeout sessionUUID clock key
  else key

def getActiveSessionCountScript (idleTimeout clock : ℤ) (key : Key String) : Key String × ℕ :=
  let key := prune idleTimeout clock key
  (key, (key.content clock).card)

/-! ### The calls -/

/-- A command or script at a time of the clock; what became of it decides whether it took effect and
whether there is an answer. -/
structure Env where
  clock : ℤ
  outcome : Outcome := .done

def Env.effect {α : Type} (env : Env) (before after : α) : α :=
  if env.outcome = .failed then before else after

def Env.answer {α : Type} (env : Env) (result : α) : Option α :=
  if env.outcome = .done then some result else none

/-- What a call returns, and whether it also returns an error. -/
structure Reply (α : Type) where
  value : α
  err : Bool

namespace Cache

variable (c : Cache)

/-- The idle timeout that `RegisterSession` and `RefreshSession` send. -/
def idleTimeoutSeconds (idleTimeout : ℤ) : ℤ :=
  if seconds idleTimeout ≤ 0 then seconds c.defaultIdleTimeout else seconds idleTimeout

/-- Without an answer the session is allowed. -/
def registerSession (sessionUUID : String) (maxSessions idleTimeout : ℤ) (env : Env)
    (key : Key String) : Key String × Reply Bool :=
  if sessionUUID = "" ∨ maxSessions ≤ 0 then (key, ⟨true, false⟩)
  else
    let (key', allowed) :=
      registerSessionScript maxSessions (c.idleTimeoutSeconds idleTimeout) sessionUUID env.clock key
    (env.effect key key',
      match env.answer allowed with
      | none => ⟨true, true⟩
      | some allowed => ⟨allowed, false⟩)

def unregisterSession (sessionUUID : String) (env : Env) (key : Key String) : Key String :=
  if sessionUUID = "" then key
  else env.effect key (key.update env.clock (SortedSet.remove sessionUUID))

def refreshSession (sessionUUID : String) (idleTimeout : ℤ) (env : Env) (key : Key String) :
    Key String :=
  if sessionUUID = "" then key
  else
    env.effect key
      (refreshSessionScript (c.idleTimeoutSeconds idleTimeout) sessionUUID env.clock key)

def getActiveSessionCount (env : Env) (key : Key String) : Key String × Reply ℕ :=
  let (key', count) :=
    getActiveSessionCountScript (seconds c.defaultIdleTimeout) env.clock key
  (env.effect key key',
    match env.answer count with
    | none => ⟨0, true⟩
    | some count => ⟨count, false⟩)

/-- The timeout for one account of a batch, whose map may have one for it. -/
def batchIdleTimeout (idleTimeout : Option ℤ) : ℤ :=
  match idleTimeout with
  | some t => if t > 0 then t else c.defaultIdleTimeout
  | none => c.defaultIdleTimeout

/-- One account of a batch; it is not in the result when its script failed. -/
def getActiveSessionCountBatch (idleTimeout : Option ℤ) (env : Env) (key : Key String) :
    Key String × Option ℕ :=
  let (key', count) :=
    getActiveSessionCountScript (seconds (c.batchIdleTimeout idleTimeout)) env.clock key
  (env.effect key key', env.answer count)

end Cache

/-! ### Runs -/

/-- The limit of an account, which its calls are made with. -/
structure Account where
  maxSessions : ℤ
  idleTimeout : ℤ

inductive Op where
  | register (sessionUUID : String)
  | unregister (sessionUUID : String)
  | refresh (sessionUUID : String)
  | count
  | countBatch (idleTimeout : Option ℤ)
  | isActive (sessionUUID : String)

structure Call where
  op : Op
  env : Env

/-- The key after a call. -/
def Call.apply (call : Call) (c : Cache) (account : Account) (key : Key String) : Key String :=
  match call.op with
  | .register sessionUUID =>
      (c.registerSession sessionUUID account.maxSessions account.idleTimeout call.env key).1
  | .unregister sessionUUID => Cache.unregisterSession sessionUUID call.env key
  | .refresh sessionUUID => c.refreshSession sessionUUID account.idleTimeout call.env key
  | .count => (c.getActiveSessionCount call.env key).1
  | .countBatch idleTimeout => (c.getActiveSessionCountBatch idleTimeout call.env key).1
  | .isActive _ => key

end Sub2api.SessionLimit

/-!
### The limit and the timeouts of queries

`History` says in which second a session was last admitted or refreshed, until it is unregistered. A
session is active while it has not been idle for the timeout of its account. The key has all active
sessions as long as no query prunes it with a timeout that one of them has been idle for, and then
the limit holds.
-/

namespace Sub2api.SessionLimit

open Redis

abbrev History := String → Option ℤ

structure State where
  key : Key String := {}
  lastSeen : History := fun _ => none

section Runs

variable (c : Cache) (account : Account)

/-- The idle timeout of the account, in seconds. -/
def timeout : ℤ := c.idleTimeoutSeconds account.idleTimeout

/-- A session is active under the account's idle timeout. -/
def History.Active (h : History) (clock : ℤ) (session : String) : Prop :=
  ((h session).any fun time => timeOf clock - timeout c account < time) = true

instance (h : History) (clock : ℤ) (session : String) :
    Decidable (h.Active c account clock session) := by
  unfold History.Active
  infer_instance

/-- What a call does to the history. A refresh counts for an active session, and for one that the
key still has. -/
def State.seen (s : State) (call : Call) : History :=
  if call.env.outcome = .failed then s.lastSeen
  else
    match call.op with
    | .register session =>
        if session ≠ "" ∧ 0 < account.maxSessions ∧
            (registerSessionScript account.maxSessions (timeout c account) session call.env.clock
              s.key).2 = true then
          Function.update s.lastSeen session (some (timeOf call.env.clock))
        else s.lastSeen
    | .unregister session =>
        if session = "" then s.lastSeen else Function.update s.lastSeen session none
    | .refresh session =>
        if session ≠ "" ∧ (s.lastSeen.Active c account call.env.clock session ∨
            session ∈ (s.key.content call.env.clock).members) then
          Function.update s.lastSeen session (some (timeOf call.env.clock))
        else s.lastSeen
    | _ => s.lastSeen

def State.step (s : State) (call : Call) : State where
  key := call.apply c account s.key
  lastSeen := s.seen c account call

def run (calls : List Call) : State := calls.foldl (State.step c account) {}

/-- What the limit promises of a call. -/
structure Correct (s : State) (call : Call) : Prop where
  cap : ∀ later, call.env.clock ≤ later → ∀ sessions : Finset String,
    (∀ session ∈ sessions, (s.step c account call).lastSeen.Active c account later session) →
      (sessions.card : ℤ) ≤ account.maxSessions
  admitted : ∀ session, call.op = .register session →
    s.lastSeen.Active c account call.env.clock session →
      (c.registerSession session account.maxSessions account.idleTimeout call.env
        s.key).2.value = true
  kept : (∀ session, call.op ≠ .unregister session) → ∀ session,
    s.lastSeen.Active c account call.env.clock session →
      session ∈ (s.key.content call.env.clock).members →
        session ∈ ((s.step c account call).key.content call.env.clock).members

def LimitHolds (calls : List Call) : Prop :=
  ∀ earlier call later, calls = earlier ++ call :: later →
    Correct c account (run c account earlier) call

/-- The timeout that a call counts sessions with. -/
def Call.queries (call : Call) : Option ℤ :=
  if call.env.outcome = .failed then none
  else
    match call.op with
    | .count => some (seconds c.defaultIdleTimeout)
    | .countBatch idleTimeout => some (seconds (c.batchIdleTimeout idleTimeout))
    | _ => none

/-- No active session has been idle for so long. -/
def Patient (h : History) (idleTimeout clock : ℤ) : Prop :=
  ∀ session time, h session = some time → h.Active c account clock session →
    timeOf clock - idleTimeout < time

/-- No call counts with a timeout that an active session has been idle for. -/
def AlwaysPatient (calls : List Call) : Prop :=
  ∀ earlier call later, calls = earlier ++ call :: later → ∀ queried,
    call.queries c = some queried →
      Patient c account (run c account earlier).lastSeen queried call.env.clock

end Runs

variable {c : Cache} {account : Account} {h : History} {key : Key String} {clock : ℤ}
  {session : String}

theorem active_iff : h.Active c account clock session ↔
    ∃ time, h session = some time ∧ timeOf clock - timeout c account < time := by
  unfold History.Active
  rw [Option.any_eq_true]
  constructor
  · rintro ⟨time, at_, recent⟩
    exact ⟨time, at_, of_decide_eq_true recent⟩
  · rintro ⟨time, at_, recent⟩
    exact ⟨time, at_, decide_eq_true recent⟩

theorem timeOf_mono {later : ℤ} (passes : clock ≤ later) : timeOf clock ≤ timeOf later :=
  Int.ediv_le_ediv (by omega) passes

theorem active_before {later : ℤ} (passes : clock ≤ later)
    (active : h.Active c account later session) : h.Active c account clock session := by
  obtain ⟨time, at_, recent⟩ := active_iff.mp active
  have := timeOf_mono passes
  exact active_iff.mpr ⟨time, at_, by omega⟩

/-! ### The invariant -/

/-- What the key and the history agree on. -/
structure Agree (c : Cache) (account : Account) (h : History) (key : Key String) (clock : ℤ) :
    Prop where
  card : (key.set.card : ℤ) ≤ account.maxSessions
  past : ∀ session time, h session = some time → time ≤ timeOf clock
  known : ∀ session time, key.set.score session = some time → h session = some time
  stored : ∀ session, h.Active c account clock session → key.set.score session = h session
  alive : ∀ expireAt, key.expireAt = some expireAt → ∀ session time, h session = some time →
    1000 * (time + timeout c account + 60) ≤ expireAt

theorem agree_empty (limited : 0 < account.maxSessions) :
    Agree c account (fun _ => none) {} clock where
  card := by
    change (0 : ℤ) ≤ _
    omega
  past _ _ none_ := by cases none_
  known _ _ none_ := by cases none_
  stored _ active := by
    obtain ⟨time, none_, -⟩ := active_iff.mp active
    cases none_
  alive _ none_ := by cases none_

theorem Agree.later {later : ℤ} (agree : Agree c account h key clock) (passes : clock ≤ later) :
    Agree c account h key later where
  card := agree.card
  past session time at_ := Int.le_trans (agree.past session time at_) (timeOf_mono passes)
  known := agree.known
  stored session active := agree.stored session (active_before passes active)
  alive := agree.alive

/-- The key has not expired while a session is active. -/
theorem Agree.content (agree : Agree c account h key clock)
    (active : h.Active c account clock session) : key.content clock = key.set := by
  obtain ⟨time, at_, recent⟩ := active_iff.mp active
  have alive : key.expired clock = false := by
    unfold Key.expired
    cases expiry : key.expireAt with
    | none => rfl
    | some expireAt =>
        have late := agree.alive expireAt expiry session time at_
        have second : timeOf clock = clock / 1000 := rfl
        apply decide_eq_false
        omega
  unfold Key.content
  rw [alive]
  rfl

theorem Agree.score (agree : Agree c account h key clock)
    (active : h.Active c account clock session) :
    (key.content clock).score session = h session := by
  rw [agree.content active]
  exact agree.stored session active

theorem Agree.known_content (agree : Agree c account h key clock) {time : ℤ}
    (at_ : (key.content clock).score session = some time) : h session = some time := by
  unfold Key.content at at_
  split at at_
  · cases at_
  · exact agree.known session time at_

theorem Agree.card_content (agree : Agree c account h key clock)
    (limited : 0 < account.maxSessions) :
    ((key.content clock).card : ℤ) ≤ account.maxSessions := by
  unfold Key.content
  split
  · change (0 : ℤ) ≤ _
    omega
  · exact agree.card

/-- A command that keeps the active sessions. -/
theorem Agree.update {h' : History} (agree : Agree c account h key clock)
    {f : SortedSet String → SortedSet String}
    (fewer : ∀ session time, h' session = some time → h session = some time)
    (card : ((f (key.content clock)).card : ℤ) ≤ account.maxSessions)
    (known : ∀ session time, (f (key.content clock)).score session = some time →
      h' session = some time)
    (stored : ∀ session, h'.Active c account clock session →
      (f (key.content clock)).score session = h' session) :
    Agree c account h' (key.update clock f) clock where
  card := card
  past session time at_ := agree.past session time (fewer session time at_)
  known := known
  stored := stored
  alive expireAt expiry session time at_ := by
    unfold Key.update at expiry
    dsimp only at expiry
    split at expiry
    · cases expiry
    · exact agree.alive expireAt expiry session time (fewer session time at_)

theorem content_prune (idleTimeout : ℤ) : (prune idleTimeout clock key).content clock =
    (key.content clock).removeUpTo (timeOf clock - idleTimeout) := Key.content_update _

theorem Agree.prune (agree : Agree c account h key clock) (limited : 0 < account.maxSessions)
    {idleTimeout : ℤ} (patient : Patient c account h idleTimeout clock) :
    Agree c account h (prune idleTimeout clock key) clock := by
  apply agree.update
  · exact fun _ _ at_ => at_
  · have fewer : ((key.content clock).removeUpTo (timeOf clock - idleTimeout)).card ≤
        (key.content clock).card := List.length_filter_le ..
    have := agree.card_content limited
    omega
  · intro session time at_
    rw [SortedSet.score_removeUpTo, Option.filter_eq_some_iff] at at_
    exact agree.known_content at_.1
  · intro session active
    obtain ⟨time, at_, -⟩ := active_iff.mp active
    rw [SortedSet.score_removeUpTo, agree.score active, at_, Option.filter_eq_some_iff]
    exact ⟨rfl, decide_eq_true (patient session time at_ active)⟩

theorem patient_timeout : Patient c account h (timeout c account) clock := by
  intro session time at_ active
  obtain ⟨time', at_', recent⟩ := active_iff.mp active
  rw [at_, Option.some.injEq] at at_'
  omega

theorem Agree.remove (agree : Agree c account h key clock) (limited : 0 < account.maxSessions)
    (session : String) :
    Agree c account (Function.update h session none)
      (key.update clock (SortedSet.remove session)) clock := by
  apply agree.update
  · intro other time at_
    rw [Function.update_apply] at at_
    split at at_
    · cases at_
    · exact at_
  · have fewer : ((key.content clock).remove session).card ≤ (key.content clock).card :=
      List.length_filter_le ..
    have := agree.card_content limited
    omega
  · intro other time at_
    rw [SortedSet.score_remove] at at_
    rw [Function.update_apply]
    split at at_
    · cases at_
    · rename_i differ
      rw [if_neg differ]
      exact agree.known_content at_
  · intro other active
    rw [SortedSet.score_remove, Function.update_apply]
    split
    · rfl
    · rename_i differ
      apply agree.score
      obtain ⟨time, at_, recent⟩ := active_iff.mp active
      rw [Function.update_of_ne differ] at at_
      exact active_iff.mpr ⟨time, at_, recent⟩

theorem entries_add (set : SortedSet String) (time : ℤ) :
    (set.add session time).entries.isEmpty = false := by
  unfold SortedSet.add
  simp

theorem touch_eq (idleTimeout : ℤ) :
    touch idleTimeout session clock key =
      { set := (key.content clock).add session (timeOf clock)
        expireAt := some (clock + (idleTimeout + 60) * 1000) } := by
  unfold touch Key.expire
  rw [Key.content_update, entries_add]
  rfl

/-- A session is put in the key: it is there already, or there is room. -/
theorem Agree.touch (agree : Agree c account h key clock) (limited : 0 < account.maxSessions)
    (room : session ∈ (key.content clock).members ∨
      ((key.content clock).card : ℤ) < account.maxSessions) :
    Agree c account (Function.update h session (some (timeOf clock)))
      (touch (timeout c account) session clock key) clock := by
  rw [touch_eq]
  have second : timeOf clock = clock / 1000 := rfl
  constructor
  · change (((key.content clock).add session (timeOf clock)).card : ℤ) ≤ _
    rw [← SortedSet.card_members, SortedSet.members_add]
    rcases room with there | less
    · rw [Finset.insert_eq_of_mem there, SortedSet.card_members]
      exact agree.card_content limited
    · have := Finset.card_insert_le session (key.content clock).members
      rw [SortedSet.card_members] at this
      omega
  · intro other time at_
    rw [Function.update_apply] at at_
    split at at_
    · cases at_
      exact Int.le_refl _
    · exact agree.past other time at_
  · intro other time at_
    change ((key.content clock).add session (timeOf clock)).score other = some time at at_
    rw [SortedSet.score_add] at at_
    rw [Function.update_apply]
    split at at_
    · rename_i same
      rw [if_pos same]
      exact at_
    · rename_i differ
      rw [if_neg differ]
      exact agree.known_content at_
  · intro other active
    change ((key.content clock).add session (timeOf clock)).score other = _
    rw [SortedSet.score_add, Function.update_apply]
    split
    · rfl
    · rename_i differ
      apply agree.score
      obtain ⟨time, at_, recent⟩ := active_iff.mp active
      rw [Function.update_of_ne differ] at at_
      exact active_iff.mpr ⟨time, at_, recent⟩
  · intro expireAt expiry other time at_
    dsimp only at expiry
    rw [Option.some.injEq] at expiry
    have past : time ≤ timeOf clock := by
      rw [Function.update_apply] at at_
      split at at_
      · cases at_
        exact Int.le_refl _
      · exact agree.past other time at_
    omega

end Sub2api.SessionLimit
