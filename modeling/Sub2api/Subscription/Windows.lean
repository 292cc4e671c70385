import Mathlib.Data.Finset.Card
import Mathlib.Data.Int.ConditionallyCompleteOrder
import Mathlib.Data.Rat.Floor

/-!
# The usage windows of a subscription

Times are nanoseconds since the zero time. The configured time zone is a calendar, and `startOfDay`
and `addDay` are those of the time zone that a time carries. Where a change of the clock skips a
midnight, the start of that day is on the day before.
-/

namespace Sub2api.Subscription

def hour : ℤ := 3600 * 1000000000
def day : ℤ := 24 * hour
def week : ℤ := 7 * 24 * hour
def month : ℤ := 30 * 24 * hour

/-- A time zone: what its clock shows at a time, and `time.Date` of what a clock shows. -/
structure Calendar where
  clock : ℤ → ℤ
  date : ℤ → ℤ

namespace Calendar

variable (calendar : Calendar)

def dayOf (t : ℤ) : ℤ := calendar.clock t / day

def midnight (d : ℤ) : ℤ := calendar.date (d * day)

/-- `timezone.StartOfDay`. -/
def startOfDay (t : ℤ) : ℤ := calendar.midnight (calendar.dayOf t)

/-- `AddDate(0, 0, 1)`. -/
def addDay (t : ℤ) : ℤ := calendar.date (calendar.clock t + day)

/-- From the day `first` on no change of the clock skips or repeats a midnight. -/
structure Regular (first : ℤ) : Prop where
  shown : ∀ d, first ≤ d → calendar.clock (calendar.midnight d) = d * day
  begun : ∀ t, first ≤ calendar.dayOf t → calendar.midnight (calendar.dayOf t) ≤ t
  within : ∀ t, first ≤ calendar.dayOf t → t < calendar.midnight (calendar.dayOf t + 1)

end Calendar

@[ext]
structure UserSubscription where
  startsAt : ℤ
  expiresAt : ℤ
  dailyWindowStart : Option ℤ := none
  weeklyWindowStart : Option ℤ := none
  monthlyWindowStart : Option ℤ := none
  dailyUsageUSD : ℚ := 0
  weeklyUsageUSD : ℚ := 0
  monthlyUsageUSD : ℚ := 0
  deriving DecidableEq

section Model

variable (calendar : Calendar) (startOfDay addDay : ℤ → ℤ)

namespace UserSubscription

variable (s : UserSubscription)

def hasOneTimeDailyQuota : Bool :=
  if s.startsAt = 0 ∨ s.expiresAt = 0 then false else decide (s.expiresAt ≤ addDay s.startsAt)

/-- The day's start, where the daily window is of an earlier day. -/
def automaticDailyWindowStartAt (now : ℤ) : Option ℤ :=
  match s.dailyWindowStart with
  | none => none
  | some start =>
    if s.hasOneTimeDailyQuota addDay then none
    else if calendar.startOfDay now ≤ calendar.startOfDay start then none
    else some (calendar.startOfDay now)

def windowResetAnchor (previous : ℤ) : ℤ :=
  let legacyAnchor := startOfDay s.startsAt
  if legacyAnchor < s.startsAt ∧ previous = legacyAnchor then s.startsAt else previous

def automaticWindowStartAt (previous : Option ℤ) (period : ℤ) (now : ℤ) : Option ℤ :=
  match previous with
  | none => none
  | some previous =>
    let anchor := s.windowResetAnchor startOfDay previous
    let next := anchor + period
    if now < next ∨ s.expiresAt ≤ next then none
    else
      let periods := (now - anchor).tdiv period
      let lastPeriodBeforeExpiry := (s.expiresAt - anchor - 1).tdiv period
      some (anchor + min periods lastPeriodBeforeExpiry * period)

def dailyResetTime : Option ℤ :=
  s.dailyWindowStart.map fun start =>
    if s.hasOneTimeDailyQuota addDay then s.expiresAt
    else calendar.addDay (calendar.startOfDay start)

/-- `WeeklyResetTime` and `MonthlyResetTime`, of their windows. -/
def resetTime (window : Option ℤ) (period : ℤ) : Option ℤ :=
  window.map fun start => s.windowResetAnchor startOfDay start + period

def monthlyResetTime : Option ℤ := s.resetTime startOfDay s.monthlyWindowStart month

/-- A window's start and usage after a reset, where there is one. -/
def reset (start : Option ℤ) (usage : ℚ) : Option ℤ → Option ℤ × ℚ
  | none => (start, usage)
  | some windowStart => (some windowStart, 0)

/-- `CheckAndResetWindows`: of each window that has passed the start and the usage are reset. -/
def checkAndResetWindows (now : ℤ) : UserSubscription :=
  let daily := reset s.dailyWindowStart s.dailyUsageUSD
    (s.automaticDailyWindowStartAt calendar addDay now)
  let weekly := reset s.weeklyWindowStart s.weeklyUsageUSD
    (s.automaticWindowStartAt startOfDay s.weeklyWindowStart week now)
  let monthly := reset s.monthlyWindowStart s.monthlyUsageUSD
    (s.automaticWindowStartAt startOfDay s.monthlyWindowStart month now)
  { s with
    dailyWindowStart := daily.1
    dailyUsageUSD := daily.2
    weeklyWindowStart := weekly.1
    weeklyUsageUSD := weekly.2
    monthlyWindowStart := monthly.1
    monthlyUsageUSD := monthly.2 }

end UserSubscription

end Model

/-! ### Rolling windows -/

namespace Rolling

/-- How far the window can have come: to the check, or to the last instant before the expiry. -/
def reach (anchor expiresAt now : ℤ) : ℤ := min (now - anchor) (expiresAt - anchor - 1)

/-- The start of the window after a check. -/
def start (period expiresAt anchor now : ℤ) : ℤ :=
  if period ≤ reach anchor expiresAt now then
    anchor + reach anchor expiresAt now / period * period
  else anchor

variable {period expiresAt anchor now later : ℤ} (positive : 0 < period)

theorem reach_mono (anchor expiresAt : ℤ) (le : now ≤ later) :
    reach anchor expiresAt now ≤ reach anchor expiresAt later := by
  unfold reach
  omega

/-- From a later start there is so much less to go. -/
theorem reach_add (steps : ℤ) : reach (anchor + steps) expiresAt now =
    reach anchor expiresAt now - steps := by
  unfold reach
  omega

/-- Once begun, the window has come as many periods as fit. -/
theorem start_eq (begun : anchor ≤ now) (alive : anchor < expiresAt) :
    start period expiresAt anchor now =
      anchor + reach anchor expiresAt now / period * period := by
  unfold start
  split
  · rfl
  · rename_i short
    have nonneg : 0 ≤ reach anchor expiresAt now := by
      unfold reach
      omega
    rw [Int.ediv_eq_zero_of_lt nonneg (not_le.mp short), zero_mul, add_zero]

include positive

/-- Where the window has not come a period further, it has come as many periods as before. -/
theorem ediv_eq_of_short {before after : ℤ} (le : before ≤ after)
    (short : after - before / period * period < period) : after / period = before / period := by
  have floor := Int.ediv_mul_le before positive.ne'
  exact (Int.ediv_eq_iff_of_pos positive).mpr ⟨by omega, by omega⟩

/-- A check, and one more that is not before it, come to where the later one comes to. -/
theorem start_start (anchor expiresAt : ℤ) (le : now ≤ later) :
    start period expiresAt (start period expiresAt anchor now) later =
      start period expiresAt anchor later := by
  have grows := reach_mono anchor expiresAt le
  by_cases passed : period ≤ reach anchor expiresAt now
  · have first : start period expiresAt anchor now =
        anchor + reach anchor expiresAt now / period * period := if_pos passed
    have second : start period expiresAt anchor later =
        anchor + reach anchor expiresAt later / period * period := if_pos (passed.trans grows)
    rw [first, second]
    generalize reach anchor expiresAt now = before at grows passed
    unfold start
    rw [reach_add]
    generalize reach anchor expiresAt later = after at grows
    by_cases more : period ≤ after - before / period * period
    · rw [if_pos more, Int.sub_mul_ediv_right _ _ positive.ne', sub_mul]
      omega
    · rw [if_neg more, ediv_eq_of_short positive grows (not_le.mp more)]
  · rw [show start period expiresAt anchor now = anchor from if_neg passed]

/-- It is the last instant of its kind that has come, before the expiry. -/
theorem start_greatest (begun : anchor ≤ now) (alive : anchor < expiresAt) :
    ∃ k : ℕ, start period expiresAt anchor now = anchor + k * period ∧
      anchor + k * period ≤ now ∧ anchor + k * period < expiresAt ∧
      ∀ j : ℕ, anchor + j * period ≤ now → anchor + j * period < expiresAt → j ≤ k := by
  have nonneg : 0 ≤ reach anchor expiresAt now := by
    unfold reach
    omega
  have counted : ((reach anchor expiresAt now / period).toNat : ℤ) =
      reach anchor expiresAt now / period :=
    Int.toNat_of_nonneg (Int.ediv_nonneg nonneg positive.le)
  have floor := Int.ediv_mul_le (reach anchor expiresAt now) positive.ne'
  have low : reach anchor expiresAt now ≤ now - anchor := min_le_left _ _
  have high : reach anchor expiresAt now ≤ expiresAt - anchor - 1 := min_le_right _ _
  refine ⟨(reach anchor expiresAt now / period).toNat, ?_, ?_, ?_, ?_⟩
  · rw [counted]
    exact start_eq begun alive
  · rw [counted]
    omega
  · rw [counted]
    omega
  · intro j come before
    have fits : (j : ℤ) * period ≤ reach anchor expiresAt now := le_min (by omega) (by omega)
    have most := (Int.le_ediv_iff_mul_le positive).mpr fits
    omega

/-- The starts that a window can have until the expiry. -/
theorem start_mem (alive : anchor < expiresAt) (now : ℤ) :
    ∃ k : ℕ, start period expiresAt anchor now = anchor + k * period ∧
      anchor + k * period < expiresAt := by
  by_cases begun : anchor ≤ now
  · obtain ⟨k, at_, _, before, _⟩ := start_greatest positive begun alive
    exact ⟨k, at_, before⟩
  · refine ⟨0, ?_, by simpa using alive⟩
    have early : ¬ period ≤ reach anchor expiresAt now := by
      unfold reach
      omega
    rw [show start period expiresAt anchor now = anchor from if_neg early]
    simp

/-- At whatever times it is looked at, there are no more windows than begin before the expiry. -/
theorem card_starts_le (alive : anchor < expiresAt) (times : Finset ℤ) :
    ((times.image (start period expiresAt anchor)).card : ℤ) ≤
      ⌈((expiresAt - anchor : ℤ) : ℚ) / period⌉ := by
  have unit : (0 : ℚ) < period := by exact_mod_cast positive
  have inside : times.image (start period expiresAt anchor) ⊆
      (Finset.range ⌈((expiresAt - anchor : ℤ) : ℚ) / period⌉.toNat).image
        fun (k : ℕ) => anchor + k * period := by
    intro x mem
    obtain ⟨now, _, rfl⟩ := Finset.mem_image.mp mem
    obtain ⟨k, at_, before⟩ := start_mem positive alive now
    refine Finset.mem_image.mpr ⟨k, ?_, at_.symm⟩
    have less : (k : ℤ) < ⌈((expiresAt - anchor : ℤ) : ℚ) / period⌉ := by
      rw [Int.lt_ceil, lt_div_iff₀ unit]
      exact_mod_cast (show (k : ℤ) * period < expiresAt - anchor by omega)
    exact Finset.mem_range.mpr (by omega)
  have count := (Finset.card_le_card inside).trans Finset.card_image_le
  rw [Finset.card_range] at count
  have nonneg : 0 ≤ ⌈((expiresAt - anchor : ℤ) : ℚ) / period⌉ :=
    Int.ceil_nonneg (div_nonneg (by exact_mod_cast (by omega : (0 : ℤ) ≤ expiresAt - anchor)) unit.le)
  omega

end Rolling

/-! ### The days -/

section Days

namespace Calendar.Regular

variable {calendar : Calendar} {first t u d : ℤ} (regular : calendar.Regular first)

include regular

theorem dayOf_midnight (from_ : first ≤ d) : calendar.dayOf (calendar.midnight d) = d := by
  rw [dayOf, regular.shown d from_]
  exact Int.mul_ediv_cancel _ (by decide)

theorem ordered : StrictMonoOn calendar.midnight (Set.Ici first) := by
  have next : ∀ d, first ≤ d → calendar.midnight d < calendar.midnight (d + 1) := by
    intro d from_
    have same := regular.dayOf_midnight from_
    have within := regular.within (calendar.midnight d) (from_.trans same.ge)
    rwa [same] at within
  intro a from_ b there less
  clear there
  induction b, Int.add_one_le_of_lt less using Int.leInduction with
  | base => exact next a from_
  | succ b later ih => exact (ih (by omega)).trans (next b (le_trans from_ (by omega)))

theorem startOfDay_startOfDay (from_ : first ≤ calendar.dayOf t) :
    calendar.startOfDay (calendar.startOfDay t) = calendar.startOfDay t :=
  congrArg calendar.midnight (regular.dayOf_midnight from_)

theorem addDay_startOfDay (from_ : first ≤ calendar.dayOf t) :
    calendar.addDay (calendar.startOfDay t) = calendar.midnight (calendar.dayOf t + 1) := by
  rw [addDay, startOfDay, regular.shown _ from_, midnight, add_one_mul]

theorem dayOf_mono (ht : first ≤ calendar.dayOf t) (hu : first ≤ calendar.dayOf u) (le : t ≤ u) :
    calendar.dayOf t ≤ calendar.dayOf u := by
  have less := (regular.begun t ht).trans_lt (le.trans_lt (regular.within u hu))
  rw [regular.ordered.lt_iff_lt ht (show first ≤ calendar.dayOf u + 1 by omega)] at less
  omega

theorem startOfDay_mono (ht : first ≤ calendar.dayOf t) (hu : first ≤ calendar.dayOf u)
    (le : t ≤ u) : calendar.startOfDay t ≤ calendar.startOfDay u :=
  regular.ordered.monotoneOn ht hu (regular.dayOf_mono ht hu le)

/-- A later day begins at the next midnight or later. -/
theorem startOfDay_lt_iff (ht : first ≤ calendar.dayOf t) (hu : first ≤ calendar.dayOf u) :
    calendar.startOfDay t < calendar.startOfDay u ↔
      calendar.addDay (calendar.startOfDay t) ≤ u := by
  have next : first ≤ calendar.dayOf t + 1 := by omega
  rw [regular.addDay_startOfDay ht, startOfDay, startOfDay, regular.ordered.lt_iff_lt ht hu]
  constructor
  · intro later
    exact (regular.ordered.monotoneOn next hu (by omega)).trans (regular.begun u hu)
  · intro later
    have same := regular.dayOf_midnight next
    have days := regular.dayOf_mono (next.trans same.ge) hu later
    rw [same] at days
    omega

end Calendar.Regular

end Days

/-! ### Checks of a subscription -/

namespace UserSubscription

section Checks

variable (calendar : Calendar) (startOfDay addDay : ℤ → ℤ) (s : UserSubscription)

/-- The correction of the first window's anchor does not apply to any later window. -/
def Settled (period previous : ℤ) : Prop :=
  ∀ k : ℕ, 0 < k → s.windowResetAnchor startOfDay
      (s.windowResetAnchor startOfDay previous + k * period) =
    s.windowResetAnchor startOfDay previous + k * period

/-- A window's start after a check. -/
def advance (period previous now : ℤ) : ℤ :=
  (s.automaticWindowStartAt startOfDay (some previous) period now).getD previous

variable {startOfDay s} {period previous now later : ℤ}

theorem automaticWindowStartAt_eq (positive : 0 < period) :
    s.automaticWindowStartAt startOfDay (some previous) period now =
      if period ≤ Rolling.reach (s.windowResetAnchor startOfDay previous) s.expiresAt now then
        some (Rolling.start period s.expiresAt (s.windowResetAnchor startOfDay previous) now)
      else none := by
  unfold automaticWindowStartAt Rolling.start
  dsimp only
  generalize s.windowResetAnchor startOfDay previous = anchor
  by_cases passed : period ≤ Rolling.reach anchor s.expiresAt now
  · have low : period ≤ now - anchor := passed.trans (min_le_left _ _)
    have high : period ≤ s.expiresAt - anchor - 1 := passed.trans (min_le_right _ _)
    have open_ : ¬ (now < anchor + period ∨ s.expiresAt ≤ anchor + period) := by omega
    have mono : Monotone fun x : ℤ => x / period := fun a b le => Int.ediv_le_ediv positive le
    have least : min ((now - anchor) / period) ((s.expiresAt - anchor - 1) / period) =
        Rolling.reach anchor s.expiresAt now / period := mono.map_min.symm
    rw [if_neg open_, if_pos passed, if_pos passed, Int.tdiv_eq_ediv_of_nonneg (by omega),
      Int.tdiv_eq_ediv_of_nonneg (by omega), least]
  · have shut : now < anchor + period ∨ s.expiresAt ≤ anchor + period := by
      unfold Rolling.reach at passed
      omega
    rw [if_pos shut, if_neg passed]

/-- After a check the window counts from where it came to. -/
theorem anchor_advance (now : ℤ) (positive : 0 < period)
    (settled : s.Settled startOfDay period previous) :
    s.windowResetAnchor startOfDay (s.advance startOfDay period previous now) =
      Rolling.start period s.expiresAt (s.windowResetAnchor startOfDay previous) now := by
  unfold advance
  rw [automaticWindowStartAt_eq positive]
  unfold Rolling.start
  split
  · rename_i passed
    have steps : 1 ≤ Rolling.reach (s.windowResetAnchor startOfDay previous) s.expiresAt now /
        period := (Int.le_ediv_iff_mul_le positive).mpr (by omega)
    have counted := Int.toNat_of_nonneg (zero_le_one.trans steps)
    have same := settled (Rolling.reach (s.windowResetAnchor startOfDay previous) s.expiresAt now /
      period).toNat (by omega)
    rw [counted] at same
    exact same
  · rfl

variable (startOfDay s) in
/-- A later check comes to where it would have come without the earlier one. -/
theorem reset_reset (positive : 0 < period) (le : now ≤ later) (window : Option ℤ) (usage : ℚ)
    (settled : ∀ previous ∈ window, s.Settled startOfDay period previous) :
    let first := reset window usage (s.automaticWindowStartAt startOfDay window period now)
    reset first.1 first.2 (s.automaticWindowStartAt startOfDay first.1 period later) =
      reset window usage (s.automaticWindowStartAt startOfDay window period later) := by
  cases window with
  | none => rfl
  | some previous =>
    have same := anchor_advance now positive (settled previous rfl)
    unfold advance at same
    rw [automaticWindowStartAt_eq positive] at same ⊢
    have grows := Rolling.reach_mono (s.windowResetAnchor startOfDay previous) s.expiresAt le
    by_cases passed : period ≤
        Rolling.reach (s.windowResetAnchor startOfDay previous) s.expiresAt now
    · rw [if_pos passed] at same ⊢
      rw [automaticWindowStartAt_eq positive, if_pos (passed.trans grows)]
      dsimp only [reset, Option.getD] at same ⊢
      have twice := Rolling.start_start positive (s.windowResetAnchor startOfDay previous)
        s.expiresAt le
      generalize Rolling.start period s.expiresAt (s.windowResetAnchor startOfDay previous) now =
        start at same twice ⊢
      rw [automaticWindowStartAt_eq positive, same, ← twice]
      by_cases more : period ≤ Rolling.reach start s.expiresAt later
      · rw [if_pos more]
      · rw [if_neg more, show Rolling.start period s.expiresAt start later = start from
          if_neg more]
    · rw [if_neg passed]
      rfl

variable {calendar} {addDay}

theorem automaticDailyWindowStartAt_eq {start : ℤ} (now : ℤ) (window : s.dailyWindowStart = some start)
    (lasting : s.hasOneTimeDailyQuota addDay = false) :
    s.automaticDailyWindowStartAt calendar addDay now =
      if calendar.startOfDay start < calendar.startOfDay now then some (calendar.startOfDay now)
      else none := by
  unfold automaticDailyWindowStartAt
  rw [window]
  dsimp only
  rw [lasting, if_neg (by simp)]
  by_cases earlier : calendar.startOfDay start < calendar.startOfDay now
  · rw [if_pos earlier, if_neg (not_le.mpr earlier)]
  · rw [if_neg earlier, if_pos (not_lt.mp earlier)]

variable (calendar addDay s) in
/-- The daily window after a check. -/
def daily (window : Option ℤ) (usage : ℚ) (now : ℤ) : Option ℤ × ℚ :=
  reset window usage
    ({ s with dailyWindowStart := window }.automaticDailyWindowStartAt calendar addDay now)

variable {first : ℤ}

variable (addDay s) in
theorem daily_daily (regular : calendar.Regular first) (here : first ≤ calendar.dayOf now)
    (there : first ≤ calendar.dayOf later) (le : now ≤ later) (window : Option ℤ) (usage : ℚ) :
    s.daily calendar addDay (s.daily calendar addDay window usage now).1
        (s.daily calendar addDay window usage now).2 later =
      s.daily calendar addDay window usage later := by
  unfold daily
  cases window with
  | none => rfl
  | some start =>
    cases lasting : s.hasOneTimeDailyQuota addDay with
    | true =>
      have never : ∀ now, { s with dailyWindowStart := some start }.automaticDailyWindowStartAt
          calendar addDay now = none := by
        intro now
        unfold automaticDailyWindowStartAt
        exact if_pos lasting
      rw [never, never]
      dsimp only [reset]
      rw [never]
    | false =>
      have days := regular.startOfDay_mono here there le
      have at_ : ∀ start now, { s with dailyWindowStart := some start }.automaticDailyWindowStartAt
          calendar addDay now = _ := fun start now =>
        automaticDailyWindowStartAt_eq (s := { s with dailyWindowStart := some start }) now rfl
          lasting
      rw [at_, at_]
      by_cases first : calendar.startOfDay start < calendar.startOfDay now
      · rw [if_pos first, if_pos (first.trans_le days)]
        dsimp only [reset]
        rw [at_, regular.startOfDay_startOfDay here]
        by_cases more : calendar.startOfDay now < calendar.startOfDay later
        · rw [if_pos more]
        · rw [if_neg more, le_antisymm days (not_lt.mp more)]
      · rw [if_neg first]
        dsimp only [reset]
        rw [at_]

theorem checkAndResetWindows_twice (regular : calendar.Regular first)
    (here : first ≤ calendar.dayOf now) (there : first ≤ calendar.dayOf later) (le : now ≤ later)
    (weekly : ∀ previous ∈ s.weeklyWindowStart, s.Settled startOfDay week previous)
    (monthly : ∀ previous ∈ s.monthlyWindowStart, s.Settled startOfDay month previous) :
    (s.checkAndResetWindows calendar startOfDay addDay now).checkAndResetWindows calendar startOfDay
        addDay later =
      s.checkAndResetWindows calendar startOfDay addDay later := by
  have days := s.daily_daily addDay regular here there le s.dailyWindowStart s.dailyUsageUSD
  have weeks := s.reset_reset startOfDay (show 0 < week by decide) le
    s.weeklyWindowStart s.weeklyUsageUSD weekly
  have months := s.reset_reset startOfDay (show 0 < month by decide) le
    s.monthlyWindowStart s.monthlyUsageUSD monthly
  apply UserSubscription.ext
  · rfl
  · rfl
  · exact congrArg Prod.fst days
  · exact congrArg Prod.fst weeks
  · exact congrArg Prod.fst months
  · exact congrArg Prod.snd days
  · exact congrArg Prod.snd weeks
  · exact congrArg Prod.snd months

/-- The windows' starts are as settled after a check as before. -/
theorem settled_reset (positive : 0 < period) (window : Option ℤ) (usage : ℚ)
    (settled : ∀ previous ∈ window, s.Settled startOfDay period previous) :
    ∀ previous ∈ (reset window usage
        (s.automaticWindowStartAt startOfDay window period now)).1,
      s.Settled startOfDay period previous := by
  cases window with
  | none => simp [automaticWindowStartAt, reset]
  | some start =>
    have same := anchor_advance now positive (settled start rfl)
    have here := settled start rfl
    unfold advance at same
    rw [automaticWindowStartAt_eq positive] at same ⊢
    split
    · rename_i passed
      rw [if_pos passed] at same
      rintro previous ⟨⟩
      intro k later
      dsimp only [Option.getD] at same
      rw [same]
      have steps : 0 ≤ Rolling.reach (s.windowResetAnchor startOfDay start) s.expiresAt now /
        period := Int.ediv_nonneg (positive.le.trans passed) positive.le
      have sum := here (k + (Rolling.reach (s.windowResetAnchor startOfDay start) s.expiresAt now /
        period).toNat) (by omega)
      unfold Rolling.start
      rw [if_pos passed]
      push_cast at sum
      rw [Int.toNat_of_nonneg steps, add_mul] at sum
      rw [add_assoc, add_comm (_ * period) (_ * period)]
      exact sum
    · rintro previous ⟨⟩
      exact here


theorem automaticWindowStartAt_isSome (positive : 0 < period) :
    (s.automaticWindowStartAt startOfDay (some previous) period now).isSome = true ↔
      ∃ reset ∈ s.resetTime startOfDay (some previous) period, reset ≤ now ∧ reset < s.expiresAt := by
  have reset : s.resetTime startOfDay (some previous) period =
      some (s.windowResetAnchor startOfDay previous + period) := rfl
  rw [automaticWindowStartAt_eq positive, reset]
  simp only [Option.mem_some_iff, exists_eq_left']
  unfold Rolling.reach
  split
  · simp only [Option.isSome_some, true_iff]
    omega
  · simp only [Option.isSome_none, Bool.false_eq_true, false_iff]
    omega

theorem automaticDailyWindowStartAt_isSome (regular : calendar.Regular first)
    (begun : ∀ start ∈ s.dailyWindowStart, first ≤ calendar.dayOf start)
    (here : first ≤ calendar.dayOf now) :
    (s.automaticDailyWindowStartAt calendar addDay now).isSome = true ↔
      s.hasOneTimeDailyQuota addDay = false ∧
        ∃ reset ∈ s.dailyResetTime calendar addDay, reset ≤ now := by
  cases window : s.dailyWindowStart with
  | none => simp [automaticDailyWindowStartAt, dailyResetTime, window]
  | some start =>
    cases lasting : s.hasOneTimeDailyQuota addDay with
    | true => simp [automaticDailyWindowStartAt, window, lasting]
    | false =>
      have reset : s.dailyResetTime calendar addDay =
          some (calendar.addDay (calendar.startOfDay start)) := by
        simp [dailyResetTime, window, lasting]
      rw [automaticDailyWindowStartAt_eq _ window lasting, reset]
      simp only [Option.mem_some_iff, exists_eq_left', true_and,
        ← regular.startOfDay_lt_iff (begun start window) here]
      split <;> simp [*]

/-- Checks in any number, and one that is not before them, come to what the last comes to alone. -/
theorem checks_eq_last (regular : calendar.Regular first) (checks : List ℤ) (last : ℤ)
    (there : first ≤ calendar.dayOf last)
    (ordered : ∀ check ∈ checks, first ≤ calendar.dayOf check ∧ check ≤ last)
    (weekly : ∀ previous ∈ s.weeklyWindowStart, s.Settled startOfDay week previous)
    (monthly : ∀ previous ∈ s.monthlyWindowStart, s.Settled startOfDay month previous) :
    (checks ++ [last]).foldl (checkAndResetWindows calendar startOfDay addDay) s =
      s.checkAndResetWindows calendar startOfDay addDay last := by
  induction checks generalizing s with
  | nil => rfl
  | cons check rest ih =>
    obtain ⟨⟨here, le⟩, later⟩ := List.forall_mem_cons.mp ordered
    rw [List.cons_append, List.foldl_cons, ih later
      (settled_reset (by decide) _ _ weekly) (settled_reset (by decide) _ _ monthly)]
    exact checkAndResetWindows_twice regular here there le weekly monthly

end Checks

/-- Checks come to what the last one comes to alone, where every day has its midnight. A weekly or
monthly window that has begun and does not begin after the expiry is the last one that has come
before it, and advances exactly from its reset time on, where that is before the expiry; the windows
are as many as begin before the expiry. The daily window advances exactly from its reset time on,
where every day has its midnight and the quota is not given once. -/
theorem windows_advance (calendar : Calendar) (startOfDay addDay : ℤ → ℤ) (s : UserSubscription)
    (weekly : ∀ previous ∈ s.weeklyWindowStart, s.Settled startOfDay week previous)
    (monthly : ∀ previous ∈ s.monthlyWindowStart, s.Settled startOfDay month previous) :
    (∀ first, calendar.Regular first → ∀ checks last, first ≤ calendar.dayOf last →
      (∀ check ∈ checks, first ≤ calendar.dayOf check ∧ check ≤ last) →
      (checks ++ [last]).foldl (checkAndResetWindows calendar startOfDay addDay) s =
        s.checkAndResetWindows calendar startOfDay addDay last) ∧
    (∀ period previous, 0 < period → s.Settled startOfDay period previous →
      (∀ now, s.windowResetAnchor startOfDay previous ≤ now →
        s.windowResetAnchor startOfDay previous < s.expiresAt →
        ∃ k : ℕ, s.windowResetAnchor startOfDay (s.advance startOfDay period previous now) =
            s.windowResetAnchor startOfDay previous + k * period ∧
          s.windowResetAnchor startOfDay previous + k * period ≤ now ∧
          s.windowResetAnchor startOfDay previous + k * period < s.expiresAt ∧
          ∀ j : ℕ, s.windowResetAnchor startOfDay previous + j * period ≤ now →
            s.windowResetAnchor startOfDay previous + j * period < s.expiresAt → j ≤ k) ∧
      (∀ now, (s.automaticWindowStartAt startOfDay (some previous) period now).isSome = true ↔
        ∃ reset ∈ s.resetTime startOfDay (some previous) period,
          reset ≤ now ∧ reset < s.expiresAt) ∧
      (s.windowResetAnchor startOfDay previous < s.expiresAt → ∀ times : Finset ℤ,
        ((times.image fun now => s.windowResetAnchor startOfDay
            (s.advance startOfDay period previous now)).card : ℤ) ≤
          ⌈((s.expiresAt - s.windowResetAnchor startOfDay previous : ℤ) : ℚ) / period⌉)) ∧
    (∀ first, calendar.Regular first →
      (∀ start ∈ s.dailyWindowStart, first ≤ calendar.dayOf start) →
      ∀ now, first ≤ calendar.dayOf now →
        ((s.automaticDailyWindowStartAt calendar addDay now).isSome = true ↔
          s.hasOneTimeDailyQuota addDay = false ∧
            ∃ reset ∈ s.dailyResetTime calendar addDay, reset ≤ now)) := by
  refine ⟨?_, ?_, fun first regular begun now here =>
    automaticDailyWindowStartAt_isSome regular begun here⟩
  · intro first regular checks last there ordered
    exact checks_eq_last regular checks last there ordered weekly monthly
  · intro period previous positive settled
    refine ⟨?_, fun now => automaticWindowStartAt_isSome positive, ?_⟩
    · intro now begun alive
      rw [anchor_advance _ positive settled]
      exact Rolling.start_greatest positive begun alive
    · intro alive times
      simp only [anchor_advance _ positive settled]
      exact Rolling.card_starts_le positive alive times

end UserSubscription

/-- A clock that is not changed. -/
def utc : Calendar := ⟨id, id⟩

theorem utc_regular (first : ℤ) : utc.Regular first where
  shown _ _ := rfl
  begun t _ := Int.ediv_mul_le t (by decide)
  within t _ := Int.lt_ediv_add_one_mul_self t (by decide)

/-- A clock that is put forward by an hour at the hundredth midnight. -/
def skipping : Calendar where
  clock t := if t < 100 * day then t else t + hour
  date shown := if shown < 100 * day then shown else shown - hour

/-- Thirty days, from noon of the hundredth day on. -/
def thirtyDays : UserSubscription where
  startsAt := 100 * day + 12 * hour
  expiresAt := 130 * day + 12 * hour
  weeklyWindowStart := some (100 * day + 12 * hour)
  monthlyWindowStart := some (100 * day + 12 * hour)

theorem thirtyDays_advance :
    ([107 * day, 110 * day] ++ [116 * day]).foldl
        (UserSubscription.checkAndResetWindows utc utc.startOfDay (· + day)) thirtyDays =
      { thirtyDays with weeklyWindowStart := some (114 * day + 12 * hour) } := by
  have settled : ∀ period previous, 0 ≤ period → 100 * day + 12 * hour ≤ previous →
      thirtyDays.Settled utc.startOfDay period previous := by
    intro period previous nonneg later k _
    have steps : 0 ≤ (k : ℤ) * period := mul_nonneg (by omega) nonneg
    have legacy : utc.startOfDay thirtyDays.startsAt = 100 * day := by decide
    have start : thirtyDays.startsAt = 100 * day + 12 * hour := rfl
    have noon : 100 * day < 100 * day + 12 * hour := by decide
    have own : thirtyDays.windowResetAnchor utc.startOfDay previous = previous := by
      unfold UserSubscription.windowResetAnchor
      rw [legacy, start]
      exact if_neg fun both => by omega
    rw [own]
    unfold UserSubscription.windowResetAnchor
    rw [legacy, start]
    exact if_neg fun both => by omega
  have once := (UserSubscription.windows_advance utc utc.startOfDay (· + day) thirtyDays
    (by rintro _ ⟨⟩; exact settled _ _ (by decide) le_rfl)
    (by rintro _ ⟨⟩; exact settled _ _ (by decide) le_rfl)).1 100
      (utc_regular 100) [107 * day, 110 * day] (116 * day) (by decide) (by decide)
  rw [once]
  decide +kernel

/-- A week that began before the subscription's first midnight. -/
def earlyWeek : UserSubscription :=
  { thirtyDays with weeklyWindowStart := some (93 * day), monthlyWindowStart := none }

/-- A week that begins after the expiry. -/
def lateWeek : UserSubscription :=
  { thirtyDays with weeklyWindowStart := some (140 * day), monthlyWindowStart := none }

/-- A day before the one whose midnight is skipped. -/
def shortDay : UserSubscription :=
  { thirtyDays with startsAt := 90 * day, dailyWindowStart := some (99 * day + 12 * hour) }

/-- A check at which the window comes to the first midnight changes where the next one comes to; the
last month's reset time is the expiry, at which the window does not advance; a window that begins
after the expiry stays there; before a skipped midnight the day's reset time is an hour early. -/
theorem windows_exceptions :
    ([100 * day + hour] ++ [107 * day + hour]).foldl
        (UserSubscription.checkAndResetWindows utc utc.startOfDay (· + day)) earlyWeek ≠
      earlyWeek.checkAndResetWindows utc utc.startOfDay (· + day) (107 * day + hour) ∧
    (thirtyDays.monthlyResetTime utc.startOfDay = some thirtyDays.expiresAt ∧
      thirtyDays.automaticWindowStartAt utc.startOfDay thirtyDays.monthlyWindowStart month
        thirtyDays.expiresAt = none) ∧
    (lateWeek.checkAndResetWindows utc utc.startOfDay (· + day) (129 * day)).weeklyWindowStart =
      some (140 * day) ∧
    shortDay.dailyResetTime skipping (· + day) = some (100 * day - hour) ∧
      shortDay.automaticDailyWindowStartAt skipping (· + day) (100 * day - 1) = none := by
  decide +kernel

end Sub2api.Subscription
