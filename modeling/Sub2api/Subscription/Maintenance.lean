import Sub2api.Subscription.Windows

/-!
# Window maintenance of concurrent requests

A request resets the windows that have passed in the subscription it read, each by an update that
names the start it read. By then other requests may have charged and reset the row.

`charged_once` says that a window's usage is what was charged since it began, in every order.
-/

namespace Sub2api.Subscription

inductive Window where
  | daily
  | weekly
  | monthly
  deriving DecidableEq

namespace UserSubscription

def windowStart (s : UserSubscription) : Window → Option ℤ
  | .daily => s.dailyWindowStart
  | .weekly => s.weeklyWindowStart
  | .monthly => s.monthlyWindowStart

def usageUSD (s : UserSubscription) : Window → ℚ
  | .daily => s.dailyUsageUSD
  | .weekly => s.weeklyUsageUSD
  | .monthly => s.monthlyUsageUSD

/-- What every reset sets. -/
def clear (s : UserSubscription) (w : Window) (windowStart : ℤ) : UserSubscription :=
  match w with
  | .daily => { s with dailyWindowStart := some windowStart, dailyUsageUSD := 0 }
  | .weekly => { s with weeklyWindowStart := some windowStart, weeklyUsageUSD := 0 }
  | .monthly => { s with monthlyWindowStart := some windowStart, monthlyUsageUSD := 0 }

def activateWindows (s : UserSubscription) (dailyStart periodicStart : ℤ) : UserSubscription :=
  if s.dailyWindowStart = none ∧ s.weeklyWindowStart = none ∧ s.monthlyWindowStart = none then
    { s with
      dailyWindowStart := some dailyStart
      weeklyWindowStart := some periodicStart
      monthlyWindowStart := some periodicStart }
  else s

/-- `ResetDailyUsage`, `ResetWeeklyUsage` and `ResetMonthlyUsage`. -/
def resetUsage (s : UserSubscription) (w : Window) (expectedWindowStart : Option ℤ)
    (newWindowStart : ℤ) : UserSubscription :=
  if s.windowStart w = expectedWindowStart then s.clear w newWindowStart else s

def resetUsageWindows (s : UserSubscription) (resets : Window → Bool)
    (dailyStart periodicStart : ℤ) : UserSubscription :=
  let s := if resets .daily then s.clear .daily dailyStart else s
  let s := if resets .weekly then s.clear .weekly periodicStart else s
  if resets .monthly then s.clear .monthly periodicStart else s

def incrementUsage (s : UserSubscription) (costUSD : ℚ) : UserSubscription :=
  { s with
    dailyUsageUSD := s.dailyUsageUSD + costUSD
    weeklyUsageUSD := s.weeklyUsageUSD + costUSD
    monthlyUsageUSD := s.monthlyUsageUSD + costUSD }

end UserSubscription

/-- What is sent to the row of a running subscription, of whatever was read and at any clock: a
request's activation or reset of a window, a charge, an administrator's reset, an extension. -/
inductive Event where
  | activate (now : ℤ)
  | check (sub : UserSubscription) (w : Window) (now : ℤ)
  | charge (costUSD : ℚ)
  | adminReset (resets : Window → Bool) (now : ℤ)
  | extendExpiry (newExpiresAt : ℤ)

def Event.cost : Event → ℚ
  | .charge costUSD => costUSD
  | _ => 0

/-- An administrator clears the window. -/
def Event.Clears (w : Window) : Event → Prop
  | .adminReset resets _ => resets w = true
  | _ => False

variable (calendar : Calendar) (startOfDay addDay : ℤ → ℤ)

/-- A check of the daily window is of days that have their midnights. -/
def Event.Dated : Event → Prop
  | .check sub .daily now => ∃ first, calendar.Regular first ∧ first ≤ calendar.dayOf now ∧
      ∀ start ∈ sub.dailyWindowStart, first ≤ calendar.dayOf start
  | _ => True

/-- The start of a window that has passed. -/
def UserSubscription.automaticStartAt (s : UserSubscription) (w : Window) (now : ℤ) : Option ℤ :=
  match w with
  | .daily => s.automaticDailyWindowStartAt calendar addDay now
  | .weekly => s.automaticWindowStartAt startOfDay s.weeklyWindowStart week now
  | .monthly => s.automaticWindowStartAt startOfDay s.monthlyWindowStart month now

/-- What `EnsureWindowMaintenance`, `IncrementUsage`, `AdminResetQuota` and `ExtendExpiry` send. -/
def step (s : UserSubscription) : Event → UserSubscription
  | .activate now => s.activateWindows (calendar.startOfDay now) now
  | .check sub w now =>
    match sub.automaticStartAt calendar startOfDay addDay w now with
    | none => s
    | some windowStart => s.resetUsage w (sub.windowStart w) windowStart
  | .charge costUSD => s.incrementUsage costUSD
  | .adminReset resets now => s.resetUsageWindows resets (calendar.startOfDay now) now
  | .extendExpiry newExpiresAt => { s with expiresAt := newExpiresAt }

def run (s : UserSubscription) (events : List Event) : UserSubscription :=
  events.foldl (step calendar startOfDay addDay) s

/-- What is charged while the window has this start. -/
def charged (w : Window) (start : Option ℤ) : UserSubscription → List Event → ℚ
  | _, [] => 0
  | s, event :: rest =>
    (if s.windowStart w = start then event.cost else 0) +
      charged w start (step calendar startOfDay addDay s event) rest

/-! ### Starts -/

variable {calendar startOfDay addDay} {s sub : UserSubscription} {w v : Window} {now new : ℤ}

theorem automaticWindowStartAt_later {previous : Option ℤ} {period : ℤ} (positive : 0 < period)
    (passed : s.automaticWindowStartAt startOfDay previous period now = some new) :
    ∃ old, previous = some old ∧ old < new := by
  cases previous with
  | none => cases passed
  | some old =>
    refine ⟨old, rfl, ?_⟩
    have anchored : old ≤ s.windowResetAnchor startOfDay old := by
      unfold UserSubscription.windowResetAnchor
      dsimp only
      split <;> omega
    rw [UserSubscription.automaticWindowStartAt_eq positive] at passed
    obtain ⟨far, started⟩ := (ite_eq_iff.mp passed).resolve_right nofun
    cases started
    unfold Rolling.start
    rw [if_pos far]
    have steps := (Int.le_ediv_iff_mul_le positive).mpr ((one_mul period).le.trans far)
    have moved := mul_le_mul_of_nonneg_right steps positive.le
    omega

/-- A window is reset to a later start only. -/
theorem automaticStartAt_later (dated : (Event.check s w now).Dated calendar)
    (passed : s.automaticStartAt calendar startOfDay addDay w now = some new) :
    ∃ old, s.windowStart w = some old ∧ old < new := by
  cases w with
  | daily =>
    unfold UserSubscription.automaticStartAt at passed
    unfold UserSubscription.automaticDailyWindowStartAt at passed
    dsimp only at passed
    cases window : s.dailyWindowStart with
    | none => simp [window] at passed
    | some start =>
      obtain ⟨first, regular, here, begun⟩ := dated
      have there := begun start window
      simp only [window] at passed
      obtain ⟨-, passed⟩ := (ite_eq_iff.mp passed).resolve_left nofun
      obtain ⟨later, started⟩ := (ite_eq_iff.mp passed).resolve_left nofun
      cases started
      refine ⟨start, window, (regular.within start there).trans_le ?_⟩
      have days := (regular.ordered.lt_iff_lt there here).mp (not_le.mp later)
      exact regular.ordered.monotoneOn (there.trans (Int.le_add_one le_rfl)) here days
  | weekly => exact automaticWindowStartAt_later (by decide) passed
  | monthly => exact automaticWindowStartAt_later (by decide) passed

/-! ### Windows of the row -/

@[simp] theorem clear_same : (s.clear w new).windowStart w = some new ∧
    (s.clear w new).usageUSD w = 0 := by
  cases w <;> exact ⟨rfl, rfl⟩

theorem clear_other (other : v ≠ w) : (s.clear w new).windowStart v = s.windowStart v ∧
    (s.clear w new).usageUSD v = s.usageUSD v := by
  cases w <;> cases v <;> first | exact ⟨rfl, rfl⟩ | exact absurd rfl other

theorem activateWindows_begun {old dailyStart periodicStart : ℤ}
    (begun : s.windowStart w = some old) : s.activateWindows dailyStart periodicStart = s := by
  apply if_neg
  rintro ⟨daily, weekly, monthly⟩
  cases w
  · cases begun.symm.trans daily
  · cases begun.symm.trans weekly
  · cases begun.symm.trans monthly

theorem resetUsageWindows_other {resets : Window → Bool} {dailyStart periodicStart : ℤ}
    (kept : ¬ resets w = true) :
    let s' := s.resetUsageWindows resets dailyStart periodicStart
    s'.windowStart w = s.windowStart w ∧ s'.usageUSD w = s.usageUSD w := by
  have elsewhere : ∀ {t : UserSubscription} {v : Window} {start : ℤ},
      (if resets v then t.clear v start else t).windowStart w = t.windowStart w ∧
        (if resets v then t.clear v start else t).usageUSD w = t.usageUSD w := by
    intro t v start
    by_cases reset : resets v = true
    · rw [if_pos reset]
      exact clear_other fun same => kept (by rw [same]; exact reset)
    · rw [if_neg reset]
      exact ⟨rfl, rfl⟩
  dsimp only [UserSubscription.resetUsageWindows]
  constructor
  · rw [elsewhere.1, elsewhere.1, elsewhere.1]
  · rw [elsewhere.2, elsewhere.2, elsewhere.2]

/-- Of a window that has begun, a statement keeps the start and adds its cost, or it clears the
usage for a later start. -/
theorem step_window {old : ℤ} {event : Event} (begun : s.windowStart w = some old)
    (kept : ¬ event.Clears w) (dated : event.Dated calendar) :
    let s' := step calendar startOfDay addDay s event
    s'.windowStart w = some old ∧ s'.usageUSD w = s.usageUSD w + event.cost ∨
      event.cost = 0 ∧ s'.usageUSD w = 0 ∧ ∃ new, s'.windowStart w = some new ∧ old < new := by
  cases event with
  | activate now =>
    intro s'
    left
    rw [show s' = s from activateWindows_begun begun]
    exact ⟨begun, (add_zero _).symm⟩
  | check sub v now =>
    dsimp only [step]
    cases passed : sub.automaticStartAt calendar startOfDay addDay v now with
    | none => exact Or.inl ⟨begun, (add_zero _).symm⟩
    | some new =>
      dsimp only [UserSubscription.resetUsage]
      by_cases expected : s.windowStart v = sub.windowStart v
      · rw [if_pos expected]
        by_cases same : w = v
        · subst same
          obtain ⟨seen, read, later⟩ := automaticStartAt_later dated passed
          rw [begun, read] at expected
          cases expected
          exact Or.inr ⟨rfl, clear_same.2, new, clear_same.1, later⟩
        · rw [(clear_other same).1, (clear_other same).2]
          exact Or.inl ⟨begun, (add_zero _).symm⟩
      · rw [if_neg expected]
        exact Or.inl ⟨begun, (add_zero _).symm⟩
  | charge costUSD =>
    left
    cases w <;> exact ⟨begun, rfl⟩
  | extendExpiry newExpiresAt =>
    left
    cases w <;> exact ⟨begun, (add_zero _).symm⟩
  | adminReset resets now =>
    left
    obtain ⟨start, usage⟩ := resetUsageWindows_other kept
    exact ⟨start.trans begun, usage.trans (add_zero _).symm⟩

/-- However the statements of requests with stale reads and late clocks interleave, a window that
has begun and that no administrator clears only moves on, and its usage is all that was charged
under its start: no reset is made twice, none drops a charge of the window it opens. Daily checks
are of days that have their midnights. -/
theorem charged_once (events : List Event) (s : UserSubscription) {old : ℤ}
    (begun : s.windowStart w = some old) (kept : ∀ event ∈ events, ¬ event.Clears w)
    (dated : ∀ event ∈ events, event.Dated calendar) :
    let s' := run calendar startOfDay addDay s events
    ∃ last, s'.windowStart w = some last ∧ old ≤ last ∧
      s'.usageUSD w = (if last = old then s.usageUSD w else 0) +
        charged calendar startOfDay addDay w (some last) s events := by
  induction events generalizing s old with
  | nil => exact ⟨old, begun, le_rfl, by simp [run, charged]⟩
  | cons event rest ih =>
    have later := fun event member => kept event (List.mem_cons_of_mem _ member)
    have dated' := fun event member => dated event (List.mem_cons_of_mem _ member)
    intro s'
    unfold charged
    rw [begun]
    rcases step_window begun (kept event (by simp)) (dated event (by simp))
      with ⟨same, usage⟩ | ⟨free, usage, new, moved, on⟩
    · obtain ⟨last, ends, after, counted⟩ := ih _ same later dated'
      refine ⟨last, ends, after, ?_⟩
      change s'.usageUSD w = _ at counted
      rw [counted, usage]
      by_cases still : last = old
      · simp [still, add_assoc]
      · simp [still, Ne.symm still]
    · obtain ⟨last, ends, after, counted⟩ := ih _ moved later dated'
      refine ⟨last, ends, on.le.trans after, ?_⟩
      change s'.usageUSD w = _ at counted
      rw [counted, usage, if_neg (by omega : ¬ last = old), free]
      simp

/-- Two requests find the first week passed, and one of them charges before the other resets. -/
def overtaken : List Event :=
  [.check thirtyDays .weekly (108 * day), .charge 2, .check thirtyDays .weekly (109 * day)]

theorem charged_once_overtaken :
    (run utc utc.startOfDay (· + day) thirtyDays overtaken).weeklyUsageUSD = 2 := by
  obtain ⟨last, ends, -, usage⟩ := @charged_once utc utc.startOfDay (· + day) .weekly overtaken
    thirtyDays _ rfl (by simp [overtaken, Event.Clears]) (by simp [overtaken, Event.Dated])
  have opened : some last = some (107 * day + 12 * hour) := ends.symm.trans (by decide +kernel)
  cases opened
  exact usage.trans (by decide +kernel)

end Sub2api.Subscription
