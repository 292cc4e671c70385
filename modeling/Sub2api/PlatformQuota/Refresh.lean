import Sub2api.PlatformQuota.Cache
import Sub2api.Interleave.Owned

/-!
# Refreshing expired quota windows

`checkUserPlatformQuotaEligibility` reads the hash, computes a refreshed entry and writes it back
whole, while increments add to the hash at any moment. The state keeps two histories that nothing
reads: the increments that counted, and for every write-back what it found.

* `program_sound` — every call keeps the cover, under clean write-backs;
* `refresh_loses_no_cost` — while every write-back is clean, each window's usage covers the costs
  since its start;
* `refresh_loses_cost` — two refreshers around one increment.
-/

namespace Sub2api.PlatformQuota

open Billing (Time second hour day)
open Interleave
open Interleave.Prog (ask)

/-- The configured location: `timezone.StartOfDay` and `timezone.StartOfWeek`. -/
structure Zone where
  startOfDay : Time → Time
  startOfWeek : Time → Time

def quotaWindowExpired (start : Option ℤ) (currWindowStart : Time) : Bool :=
  match start with
  | none => true
  | some start => ofUnix start < currWindowStart

def monthlyQuotaWindowExpired (start : Option ℤ) (now : Time) : Bool :=
  match start with
  | none => true
  | some start => 30 * 24 * hour ≤ now - ofUnix start

/-- A column group of the database row; usages are not negative. -/
structure RecordWindow where
  usage : ℚ≥0 := 0
  limit : Option ℚ := none
  start : Option ℤ := none

structure UserPlatformQuotaRecord where
  daily : RecordWindow
  weekly : RecordWindow
  monthly : RecordWindow

/-- An increment that counted, and when. -/
structure Increment where
  time : Time
  cost : ℚ

/-- A write-back and the state it found. -/
structure WriteBack where
  /-- The increments that had counted when the entry was read. -/
  seen : ℕ
  /-- The increments that have counted now. -/
  landed : ℕ
  /-- One of them is not before the start of a window that is begun anew. -/
  overlapped : Bool

structure State where
  entry : Option UserPlatformQuotaCacheEntry
  costs : List Increment := []
  writes : List WriteBack := []

structure Env where
  now : Time := 0
  /-- The Redis call fails. -/
  fails : Bool := false
  /-- The database's answer, when the query succeeds. -/
  record : Option (Option UserPlatformQuotaRecord) := none

abbrev Op (α : Type) := Prog State Env α

/-! ### The calls -/

/-- The hash, `none` when Redis fails, and for the history how many increments it has seen. -/
def getUserPlatformQuotaCache : Op (Option (Option UserPlatformQuotaCacheEntry) × ℕ) :=
  .atomic fun env s => ((if env.fails then none else some s.entry, s.costs.length), s)

/-- `SetUserPlatformQuotaCache`; its error is only logged. `seen` and `anew`, the starts of the
windows begun anew, go to the history. -/
def setUserPlatformQuotaCache (seen : ℕ) (anew : List ℤ) (entry : UserPlatformQuotaCacheEntry) :
    Op Unit :=
  .atomic fun env s =>
    if env.fails then ((), s)
    else
      ((), { s with
        entry := some entry
        writes := s.writes ++
          [{ seen := seen
             landed := s.costs.length
             overlapped := s.costs.any fun i => anew.any fun start => ofUnix start ≤ i.time }] })

/-- `IncrUserPlatformQuotaUsageCache`. -/
def incrUserPlatformQuotaUsageCache (cost : ℚ) : Op Unit :=
  .atomic fun env s =>
    if env.fails then ((), s)
    else
      let (counted, entry) := updateUserPlatformQuotaUsage cost s.entry
      ((), { s with
        entry := entry
        costs := if counted then s.costs ++ [{ time := env.now, cost := cost }] else s.costs })

/-- `IncrementUserPlatformQuotaUsage`: only positive costs are added. -/
def incrementUserPlatformQuotaUsage (cost : ℚ) : Op Unit :=
  if cost ≤ 0 then pure () else incrUserPlatformQuotaUsageCache cost

inductive QuotaExhausted where
  | daily
  | weekly
  | monthly

def QuotaWindow.exhausted (w : QuotaWindow) : Bool :=
  match w.limit with
  | some limit => limit ≤ w.usage
  | none => false

/-- The answer of the check, from usages that count only the current windows. -/
def UserPlatformQuotaCacheEntry.verdict (e : UserPlatformQuotaCacheEntry) :
    Except QuotaExhausted Unit :=
  if e.daily.exhausted then .error .daily
  else if e.weekly.exhausted then .error .weekly
  else if e.monthly.exhausted then .error .monthly
  else .ok ()

/-- A window after the check: an expired one is begun anew. -/
def QuotaWindow.refreshed (expired : Bool) (start : Time) (w : QuotaWindow) : QuotaWindow :=
  if expired then { w with usage := 0, start := some (unix start) } else w

namespace UserPlatformQuotaCacheEntry

variable (zone : Zone) (now : Time) (e : UserPlatformQuotaCacheEntry)

def dailyExpired : Bool := quotaWindowExpired e.daily.start (zone.startOfDay now)
def weeklyExpired : Bool := quotaWindowExpired e.weekly.start (zone.startOfWeek now)
def monthlyExpired : Bool := monthlyQuotaWindowExpired e.monthly.start now

def windowExpired : Bool :=
  e.dailyExpired zone now || e.weeklyExpired zone now || e.monthlyExpired now

/-- An entry without any limit, which stands for a missing row. -/
def isSentinel : Bool := e.daily.limit.isNone && e.weekly.limit.isNone && e.monthly.limit.isNone

/-- The entry that is written back; its version starts again. -/
def refreshed : UserPlatformQuotaCacheEntry :=
  { daily := e.daily.refreshed (e.dailyExpired zone now) (zone.startOfDay now)
    weekly := e.weekly.refreshed (e.weeklyExpired zone now) (zone.startOfWeek now)
    monthly := e.monthly.refreshed (e.monthlyExpired now) now
    schemaVersion := userPlatformQuotaCacheSchemaV1 }

/-- The starts of the windows that are begun anew. -/
def anew : List ℤ :=
  (if e.dailyExpired zone now then [unix (zone.startOfDay now)] else []) ++
    (if e.weeklyExpired zone now then [unix (zone.startOfWeek now)] else []) ++
    (if e.monthlyExpired now then [unix now] else [])

end UserPlatformQuotaCacheEntry

/-- The entry of a missing row. -/
def sentinel (zone : Zone) (now : Time) : UserPlatformQuotaCacheEntry :=
  { daily := { start := some (unix (zone.startOfDay now)) }
    weekly := { start := some (unix (zone.startOfWeek now)) }
    monthly := { start := some (unix now) }
    schemaVersion := userPlatformQuotaCacheSchemaV1 }

/-- A window loaded from its columns: the usage of an expired one is dropped, its start is not. -/
def RecordWindow.loaded (expired : Bool) (w : RecordWindow) : QuotaWindow :=
  { usage := if expired then 0 else w.usage, limit := w.limit, start := w.start }

/-- The entry of a row. -/
def UserPlatformQuotaRecord.entry (zone : Zone) (now : Time) (rec : UserPlatformQuotaRecord) :
    UserPlatformQuotaCacheEntry :=
  { daily := rec.daily.loaded (quotaWindowExpired rec.daily.start (zone.startOfDay now))
    weekly := rec.weekly.loaded (quotaWindowExpired rec.weekly.start (zone.startOfWeek now))
    monthly := rec.monthly.loaded (monthlyQuotaWindowExpired rec.monthly.start now)
    schemaVersion := userPlatformQuotaCacheSchemaV1 }

/-- The check on a hit. -/
def checkEntry (zone : Zone) (seen : ℕ) (e : UserPlatformQuotaCacheEntry) :
    Op (Except QuotaExhausted Unit) := do
  let now ← ask Env.now
  if e.windowExpired zone now && !e.isSentinel then do
    setUserPlatformQuotaCache seen (e.anew zone now) (e.refreshed zone now)
    pure (e.refreshed zone now).verdict
  else pure (e.refreshed zone now).verdict

/-- The check on the row, after a miss (`fill`) or a failure of Redis. -/
def checkRecord (zone : Zone) (seen : ℕ) (fill : Bool) : Op (Except QuotaExhausted Unit) := do
  let loaded ← ask Env.record
  match loaded with
  | none => pure (.ok ())
  | some none =>
    if fill then do
      let now ← ask Env.now
      setUserPlatformQuotaCache seen [] (sentinel zone now)
      pure (.ok ())
    else pure (.ok ())
  | some (some rec) => do
    let now ← ask Env.now
    if fill then do
      setUserPlatformQuotaCache seen [] (rec.entry zone now)
      pure (rec.entry zone now).verdict
    else pure (rec.entry zone now).verdict

def checkUserPlatformQuotaEligibility (zone : Zone) : Op (Except QuotaExhausted Unit) := do
  let (got, seen) ← getUserPlatformQuotaCache
  match got with
  | none => checkRecord zone seen false
  | some none => checkRecord zone seen true
  | some (some e) => if e.current then checkEntry zone seen e else checkRecord zone seen true

inductive Call where
  | check
  | increment (cost : ℚ)

def Call.program (zone : Zone) : Call → Op Unit
  | .check => do
    let _ ← checkUserPlatformQuotaEligibility zone
    pure ()
  | .increment cost => incrementUserPlatformQuotaUsage cost

/-- The pool of all calls after a schedule of turns. -/
def run (zone : Zone) (calls : ℕ → Call) (s : State) (schedule : List (ℕ × Env)) :
    Pool ℕ (Op Unit) State :=
  Pool.run Prog.step schedule { shared := s, threads := fun me => (calls me).program zone }

/-! ### Covered costs -/

/-- The costs incremented since an instant. -/
def costSince (costs : List Increment) (start : ℤ) : ℚ :=
  ((costs.filter fun i => ofUnix start ≤ i.time).map Increment.cost).sum

/-- The window's usage is at least the costs since its start. -/
def QuotaWindow.Covers (costs : List Increment) (w : QuotaWindow) : Prop :=
  ∀ start, w.start = some start → costSince costs start ≤ w.usage

structure Covers (costs : List Increment) (e : UserPlatformQuotaCacheEntry) : Prop where
  daily : e.daily.Covers costs
  weekly : e.weekly.Covers costs
  monthly : e.monthly.Covers costs

/-- Each window that is not expired at the instant covers the costs since its start. -/
structure Covered (zone : Zone) (now : Time) (costs : List Increment)
    (e : UserPlatformQuotaCacheEntry) : Prop where
  daily : e.dailyExpired zone now = false → e.daily.Covers costs
  weekly : e.weeklyExpired zone now = false → e.weekly.Covers costs
  monthly : e.monthlyExpired now = false → e.monthly.Covers costs

/-- No increment landed between the read and the write, and none is as late as the start of a
window that is begun anew. -/
def WriteBack.Clean (w : WriteBack) : Prop := w.landed = w.seen ∧ w.overlapped = false

/-- Every write-back so far was clean. -/
def Clean (s : State) : Prop := ∀ w ∈ s.writes, w.Clean

instance (w : WriteBack) : Decidable w.Clean := inferInstanceAs (Decidable (_ ∧ _))

instance (s : State) : Decidable (Clean s) := inferInstanceAs (Decidable (∀ w ∈ s.writes, w.Clean))

/-- The invariant: under clean write-backs the entry covers the costs, and costs count only
where there is a current entry. -/
structure Inv (s : State) : Prop where
  covers : Clean s → ∀ e, s.entry = some e → Covers s.costs e
  counted : s.costs ≠ [] → ∃ e, s.entry = some e ∧ e.current = true

instance : Preorder State where
  le s s' := s.costs <+: s'.costs ∧ s.writes <+: s'.writes
  le_refl s := ⟨List.prefix_refl _, List.prefix_refl _⟩
  le_trans _ _ _ first second := ⟨first.1.trans second.1, first.2.trans second.2⟩

theorem Clean.before {s s' : State} (grows : s ≤ s') (clean : Clean s') : Clean s :=
  fun w member => clean w (grows.2.subset member)

/-- What a hit tells: the entry covered the increments it had seen. -/
def seenEntry (seen : ℕ) (e : UserPlatformQuotaCacheEntry) : Fact State :=
  ⟨fun s => seen ≤ s.costs.length ∧ (Clean s → Covers (s.costs.take seen) e), by
    rintro s s' grows ⟨some, covers⟩
    obtain ⟨more, costs⟩ := grows.1
    refine ⟨?_, fun clean => ?_⟩
    · rw [← costs, List.length_append]
      omega
    · rw [← costs, List.take_append_of_le_length some]
      exact covers (clean.before grows)⟩

section Windows

variable {costs : List Increment} {w : QuotaWindow}

theorem costSince_append (i : Increment) (start : ℤ) :
    costSince (costs ++ [i]) start =
      costSince costs start + if ofUnix start ≤ i.time then i.cost else 0 := by
  by_cases late : ofUnix start ≤ i.time <;> simp [costSince, List.filter_append, late]

theorem costSince_none {start : ℤ} (none : ∀ i ∈ costs, ¬ofUnix start ≤ i.time) :
    costSince costs start = 0 := by
  have empty : costs.filter (fun i => ofUnix start ≤ i.time) = [] := by
    simpa [List.filter_eq_nil_iff] using none
  simp [costSince, empty]

/-- An increment adds to the usage at least what it adds to the costs since the start. -/
theorem QuotaWindow.Covers.add (covers : w.Covers costs) {i : Increment} (nonneg : 0 ≤ i.cost) :
    (w.add i.cost).Covers (costs ++ [i]) := by
  intro start started
  rw [costSince_append]
  have before := covers start started
  show _ ≤ w.usage + i.cost
  split <;> linarith

theorem QuotaWindow.Covers.refreshed (covers : w.Covers costs) {expired : Bool} {start : Time}
    (apart : expired = true → ∀ i ∈ costs, ¬ofUnix (unix start) ≤ i.time) :
    (w.refreshed expired start).Covers costs := by
  cases expired with
  | false => exact covers
  | true =>
      rintro _ ⟨rfl⟩
      rw [costSince_none (apart rfl)]
      exact le_rfl

theorem QuotaWindow.covers_nil (nonneg : 0 ≤ w.usage) : w.Covers [] := fun _ _ => nonneg

end Windows

/-! ### The calls keep the cover -/

section Sound

variable {K : Fact State} {zone : Zone} {seen : ℕ} {e : UserPlatformQuotaCacheEntry}

theorem incrUserPlatformQuotaUsageCache_sound {cost : ℚ} (positive : 0 < cost) :
    Sound Inv K (incrUserPlatformQuotaUsageCache cost) fun _ => Fact.none := by
  refine Sound.act fun env s inv _ => ?_
  by_cases fails : env.fails
  · simp only [fails, if_true]
    exact ⟨inv, le_rfl, trivial⟩
  · simp only [fails, Bool.false_eq_true, if_false]
    obtain ⟨entry, costs, writes⟩ := s
    cases entry with
    | none => exact ⟨inv, le_rfl, trivial⟩
    | some e =>
        cases current : e.current with
        | false =>
            simp only [updateUserPlatformQuotaUsage, current]
            exact ⟨inv, le_rfl, trivial⟩
        | true =>
            simp only [updateUserPlatformQuotaUsage, current, if_true]
            refine ⟨⟨fun clean entry found => ?_, fun _ => ⟨_, rfl, current⟩⟩,
              ⟨List.prefix_append _ _, List.prefix_refl _⟩, trivial⟩
            cases found
            have covers := inv.covers clean e rfl
            exact ⟨covers.daily.add positive.le, covers.weekly.add positive.le,
              covers.monthly.add positive.le⟩

theorem incrementUserPlatformQuotaUsage_sound {cost : ℚ} :
    Sound Inv K (incrementUserPlatformQuotaUsage cost) fun _ => Fact.none := by
  unfold incrementUserPlatformQuotaUsage
  split
  · exact .ret fun _ _ => trivial
  · rename_i positive
    exact incrUserPlatformQuotaUsageCache_sound (not_le.mp positive)

/-- Writing a current entry back, when a clean write-back makes it cover the costs. -/
theorem setUserPlatformQuotaCache_sound {anew : List ℤ} (current : e.current = true)
    (covers : ∀ s, Inv s → K.holds s → Clean s → s.costs.length = seen →
      (∀ start ∈ anew, ∀ i ∈ s.costs, ¬ofUnix start ≤ i.time) → Covers s.costs e) :
    Sound Inv K (setUserPlatformQuotaCache seen anew e) fun _ => Fact.none := by
  refine Sound.act fun env s inv known => ?_
  by_cases fails : env.fails
  · simp only [fails, if_true]
    exact ⟨inv, le_rfl, trivial⟩
  · simp only [fails, Bool.false_eq_true, if_false]
    refine ⟨⟨fun clean entry found => ?_, fun _ => ⟨e, rfl, current⟩⟩,
      ⟨List.prefix_refl _, List.prefix_append _ _⟩, trivial⟩
    cases found
    obtain ⟨landed, overlapped⟩ := clean _ (List.mem_append_right _ (List.mem_singleton_self _))
    refine covers s inv known (fun w member => clean w (List.mem_append_left _ member)) landed ?_
    intro start begun i member late
    rw [List.any_eq_false] at overlapped
    exact overlapped i member (List.any_eq_true.mpr ⟨start, begun, by simpa using late⟩)

/-- The refreshed entry covers what the entry that was read did. -/
theorem Covers.refreshed {costs : List Increment} {now : Time} (covers : Covers costs e)
    (apart : ∀ start ∈ e.anew zone now, ∀ i ∈ costs, ¬ofUnix start ≤ i.time) :
    Covers costs (e.refreshed zone now) := by
  refine ⟨covers.daily.refreshed fun expired => apart _ ?_,
    covers.weekly.refreshed fun expired => apart _ ?_,
    covers.monthly.refreshed fun expired => apart _ ?_⟩
  all_goals simp [UserPlatformQuotaCacheEntry.anew, expired]

theorem checkEntry_sound :
    Sound Inv (seenEntry seen e) (checkEntry zone seen e) fun _ => Fact.none := by
  refine Sound.andThen Sound.ask fun now => ?_
  split
  · refine Sound.andThen (setUserPlatformQuotaCache_sound rfl ?_) fun _ => .ret fun _ _ => trivial
    rintro s inv ⟨_, covers⟩ clean landed apart
    have read := covers clean
    rw [← landed, List.take_length] at read
    exact read.refreshed apart
  · exact .ret fun _ _ => trivial

theorem RecordWindow.loaded_nonneg (w : RecordWindow) (expired : Bool) :
    0 ≤ (w.loaded expired).usage := by
  cases expired with
  | true => exact le_rfl
  | false => exact w.usage.2

/-- An entry with nothing counted against it covers everything before the first increment. -/
theorem covers_nil (daily : 0 ≤ e.daily.usage) (weekly : 0 ≤ e.weekly.usage)
    (monthly : 0 ≤ e.monthly.usage) : Covers [] e :=
  ⟨QuotaWindow.covers_nil daily, QuotaWindow.covers_nil weekly, QuotaWindow.covers_nil monthly⟩

theorem checkRecord_sound {fill : Bool} (first : ∀ s, K.holds s → fill = true → seen = 0) :
    Sound Inv K (checkRecord zone seen fill) fun _ => Fact.none := by
  have fresh {s : State} (known : K.holds s) (filling : fill = true)
      (landed : s.costs.length = seen) : s.costs = [] :=
    List.length_eq_zero_iff.mp (landed.trans (first s known filling))
  refine Sound.andThen Sound.ask fun loaded => ?_
  split
  · exact .ret fun _ _ => trivial
  · split
    · rename_i filling
      refine Sound.andThen Sound.ask fun now => ?_
      refine Sound.andThen (setUserPlatformQuotaCache_sound rfl ?_) fun _ =>
        .ret fun _ _ => trivial
      intro s _ known _ landed _
      rw [fresh known filling landed]
      exact covers_nil le_rfl le_rfl le_rfl
    · exact .ret fun _ _ => trivial
  · rename_i rec
    refine Sound.andThen Sound.ask fun now => ?_
    split
    · rename_i filling
      refine Sound.andThen (setUserPlatformQuotaCache_sound rfl ?_) fun _ =>
        .ret fun _ _ => trivial
      intro s _ known _ landed _
      rw [fresh known filling landed]
      exact covers_nil (rec.daily.loaded_nonneg _) (rec.weekly.loaded_nonneg _)
        (rec.monthly.loaded_nonneg _)
    · exact .ret fun _ _ => trivial

/-- What reading the hash tells: a hit covers what it has seen, a miss has seen nothing. -/
def gotten : Option (Option UserPlatformQuotaCacheEntry) × ℕ → Fact State
  | (none, _) => Fact.none
  | (some none, seen) => Fact.pure (seen = 0)
  | (some (some e), seen) =>
    (Fact.pure (e.current = false → seen = 0)).and (seenEntry seen e)

theorem getUserPlatformQuotaCache_sound :
    Sound Inv K getUserPlatformQuotaCache gotten := by
  refine Sound.act fun env s inv _ => ⟨inv, le_rfl, ?_⟩
  have uncounted (missing : ∀ e, s.entry = some e → e.current = false) : s.costs.length = 0 := by
    by_contra some
    obtain ⟨e, found, current⟩ := inv.counted fun none => some (by simp [none])
    rw [missing e found] at current
    cases current
  by_cases fails : env.fails
  · simp only [fails, if_true]
    trivial
  · simp only [fails, Bool.false_eq_true, if_false]
    cases found : s.entry with
    | none => exact uncounted fun e other => by rw [found] at other; cases other
    | some e =>
        refine ⟨fun old => uncounted fun e' other => ?_, le_rfl, fun clean => ?_⟩
        · rw [found] at other
          cases other
          exact old
        · rw [List.take_length]
          exact inv.covers clean e found

theorem checkUserPlatformQuotaEligibility_sound :
    Sound Inv K (checkUserPlatformQuotaEligibility zone) fun _ => Fact.none := by
  refine Sound.bind getUserPlatformQuotaCache_sound fun got => ?_
  obtain ⟨got, seen⟩ := got
  rcases got with none | none | e
  · exact checkRecord_sound fun _ _ impossible => by cases impossible
  · exact checkRecord_sound fun _ facts _ => facts.2
  · dsimp only
    split
    · exact checkEntry_sound.mono (fun _ facts => facts.2.2) fun _ _ post => post
    · rename_i other
      exact checkRecord_sound fun _ facts _ => facts.2.1 (by simpa using other)

theorem program_sound (call : Call) :
    Sound Inv Fact.none (call.program zone) fun _ => Fact.none := by
  cases call with
  | check =>
      exact Sound.andThen checkUserPlatformQuotaEligibility_sound fun _ => .ret fun _ _ => trivial
  | increment cost => exact incrementUserPlatformQuotaUsage_sound

end Sound

/-! ### Every run -/

/-- An entry whose usages are not negative. -/
structure UserPlatformQuotaCacheEntry.Nonneg (e : UserPlatformQuotaCacheEntry) : Prop where
  daily : 0 ≤ e.daily.usage
  weekly : 0 ≤ e.weekly.usage
  monthly : 0 ≤ e.monthly.usage

/-- **A refresh loses no cost.** After every schedule of any checks and increments, while each
write-back so far was clean, every window that is not expired covers the costs since its start. -/
theorem refresh_loses_no_cost (zone : Zone) (calls : ℕ → Call)
    (entry : Option UserPlatformQuotaCacheEntry) (nonneg : ∀ e, entry = some e → e.Nonneg)
    (schedule : List (ℕ × Env)) (clean : Clean (run zone calls { entry := entry } schedule).shared)
    (now : Time) (e : UserPlatformQuotaCacheEntry)
    (found : (run zone calls { entry := entry } schedule).shared.entry = some e) :
    Covered zone now (run zone calls { entry := entry } schedule).shared.costs e := by
  have start : Inv { entry := entry } := by
    refine ⟨fun _ e found => ?_, fun some => absurd rfl some⟩
    obtain ⟨daily, weekly, monthly⟩ := nonneg e found
    exact covers_nil daily weekly monthly
  have inv := (Sound.run (c := { shared := { entry := entry }
                                 threads := fun me => (calls me).program zone })
    start (fun me => program_sound (calls me)) schedule).1
  have covers := inv.covers clean e found
  exact ⟨fun _ => covers.daily, fun _ => covers.weekly, fun _ => covers.monthly⟩

/-! ### Two refreshers and one increment -/

namespace Sample

/-- Days and weeks of UTC; the epoch was a Thursday. -/
def utc : Zone :=
  { startOfDay := fun t => t / day * day
    startOfWeek := fun t => (t + 3 * day) / (7 * day) * (7 * day) - 3 * day }

/-- Five of each window used on the first day of a week. -/
def entry : UserPlatformQuotaCacheEntry :=
  { daily := { usage := 5, limit := some 10, start := some (unix (4 * day)) }
    weekly := { usage := 5, start := some (unix (4 * day)) }
    monthly := { usage := 5, start := some (unix (4 * day)) }
    schemaVersion := userPlatformQuotaCacheSchemaV1 }

def calls : ℕ → Call
  | 2 => .increment 3
  | _ => .check

/-- On the next day, in seconds. -/
def clock (n : ℤ) : Env := { now := 5 * day + n * second }

/-- The second refresher reads before the first writes and writes after the increment. -/
def lost : List (ℕ × Env) :=
  [(0, clock 1), (1, clock 1), (0, clock 2), (0, clock 2), (2, clock 3), (1, clock 4), (1, clock 4)]

/-- The refreshers one after the other. -/
def kept : List (ℕ × Env) :=
  [(0, clock 1), (0, clock 2), (0, clock 2), (2, clock 3), (1, clock 4), (1, clock 4), (1, clock 4)]

end Sample

theorem refresh_loses_no_cost_sample :
    ∃ e, (run Sample.utc Sample.calls { entry := some Sample.entry } Sample.kept).shared.entry =
        some e ∧ e.daily.usage = 3 ∧
      Covered Sample.utc (Sample.clock 5).now
        (run Sample.utc Sample.calls { entry := some Sample.entry } Sample.kept).shared.costs e := by
  have usage : (run Sample.utc Sample.calls { entry := some Sample.entry }
      Sample.kept).shared.entry.map (·.daily.usage) = some 3 := by decide +kernel
  obtain ⟨e, found, same⟩ := Option.map_eq_some_iff.mp usage
  refine ⟨e, found, same, refresh_loses_no_cost Sample.utc Sample.calls (some Sample.entry) ?_
    Sample.kept (by decide +kernel) _ e found⟩
  rintro _ ⟨rfl⟩
  exact ⟨by decide +kernel, by decide +kernel, by decide +kernel⟩

/-- The increment is counted in none of the windows, and the daily window, which is begun anew and
not expired, does not cover it. -/
theorem refresh_loses_cost :
    ¬∀ e, (run Sample.utc Sample.calls { entry := some Sample.entry } Sample.lost).shared.entry =
        some e →
      Covered Sample.utc (Sample.clock 5).now
        (run Sample.utc Sample.calls { entry := some Sample.entry } Sample.lost).shared.costs e := by
  intro covered
  have window : (run Sample.utc Sample.calls { entry := some Sample.entry }
      Sample.lost).shared.entry.map (fun e => (e.daily.usage, e.daily.start,
        e.dailyExpired Sample.utc (Sample.clock 5).now)) =
      some (0, some (unix (5 * day)), false) := by decide +kernel
  have cost : costSince (run Sample.utc Sample.calls { entry := some Sample.entry }
      Sample.lost).shared.costs (unix (5 * day)) = 3 := by decide +kernel
  obtain ⟨e, found, same⟩ := Option.map_eq_some_iff.mp window
  simp only [Prod.mk.injEq] at same
  have covers := (covered e found).daily same.2.2 _ same.2.1
  rw [cost, same.1] at covers
  norm_num at covers

end Sub2api.PlatformQuota
