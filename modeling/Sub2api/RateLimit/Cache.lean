import Sub2api.Billing.Effects

/-!
# The API-key rate-limit cache against the database

Two implementations of three rolling windows: the `UPDATE` of `Sub2api.Billing.Effects` and the
Redis script. The cache agrees with a row when it is the entry that loading the row would make.

* `update_cached_iff` — when one cost keeps one window in agreement;
* `cache_agrees_iff` — when a sequence of costs keeps the whole entry in agreement;
* `cache_diverges` — the day windows of the two sides restart at different instants.
-/

namespace Sub2api.RateLimit

open Database Billing

/-- `time.Time.Unix`. -/
def unix (t : Time) : ℤ := t / second

/-- One window of the Redis hash; an unset start is stored as zero. -/
structure CacheWindow where
  usage : ℚ
  window : ℤ

/-- `APIKeyRateLimitCacheData`, the hash of one key. -/
structure APIKeyRateLimitCacheData where
  window5h : CacheWindow
  window1d : CacheWindow
  window7d : CacheWindow

/-- The script's `update_window`. -/
def CacheWindow.update (duration now : ℤ) (cost : ℚ) (c : CacheWindow) : CacheWindow :=
  if c.window = 0 ∨ duration ≤ now - c.window then { usage := cost, window := now }
  else { c with usage := c.usage + cost }

def rateLimitWindow5h : ℤ := 5 * 3600
def rateLimitWindow1d : ℤ := 24 * 3600
def rateLimitWindow7d : ℤ := 7 * 24 * 3600

/-- `updateRateLimitUsageScript`; a key that does not exist is left alone. -/
def updateRateLimitUsageScript (cost : ℚ) (now win5h win1d win7d : ℤ) :
    Option APIKeyRateLimitCacheData → Option APIKeyRateLimitCacheData
  | none => none
  | some data =>
    some
      { window5h := data.window5h.update win5h now cost
        window1d := data.window1d.update win1d now cost
        window7d := data.window7d.update win7d now cost }

/-- `UpdateAPIKeyRateLimitUsage`. -/
def updateAPIKeyRateLimitUsage (now : Time) (cost : ℚ) :
    Option APIKeyRateLimitCacheData → Option APIKeyRateLimitCacheData :=
  updateRateLimitUsageScript cost (unix now) rateLimitWindow5h rateLimitWindow1d rateLimitWindow7d

/-- The cached form of a window's columns. -/
def cached (w : RateLimitWindow) : CacheWindow :=
  { usage := w.usage.value
    window := match w.start with
      | some start => unix start
      | none => 0 }

/-- The entry that a cache miss loads from the row. -/
def cacheEntry (key : APIKey) : APIKeyRateLimitCacheData :=
  { window5h := cached key.window5h
    window1d := cached key.window1d
    window7d := cached key.window7d }

/-! ### One cost on one window -/

/-- The row's window has run out. -/
def expired (ends : Time → Time) (now : Time) (w : RateLimitWindow) : Prop :=
  ∃ start, w.start = some start ∧ ends start ≤ now

/-- The script takes the row's window for unset or run out. -/
def cacheExpired (duration : ℤ) (now : Time) (w : RateLimitWindow) : Prop :=
  (cached w).window = 0 ∨ duration ≤ unix now - (cached w).window

/-- What keeps the two sides together: the cost is on the grid of the usage columns, a usage that
only one side drops is zero, and a start that a side writes is in the second of the start that the
other side has then. -/
structure Meets (ends : Time → Time) (duration : ℤ) (restart now : Time) (cost : ℚ)
    (w : RateLimitWindow) : Prop where
  grid : OnGrid 8 cost
  dropped : ¬(expired ends now w ↔ cacheExpired duration now w) → w.usage.value = 0
  both : w.start = none ∨ expired ends now w → cacheExpired duration now w →
    unix restart = unix now
  early : w.start = none ∨ expired ends now w → ¬cacheExpired duration now w →
    unix restart = (cached w).window
  late : ¬(w.start = none ∨ expired ends now w) → cacheExpired duration now w →
    (cached w).window = unix now

section Step

variable {ends : Time → Time} {duration : ℤ} {restart now : Time} {cost : ℚ}
  {w : RateLimitWindow}

/-- Adding to amounts on the grid gives the same in the column and in the hash when the amounts
and the grid are the same. -/
theorem value_store_add_eq_iff {a b : ℚ} (ha : OnGrid 8 a) (hb : OnGrid 8 b) :
    (Numeric.store 8 (a + cost)).value = b + cost ↔ OnGrid 8 cost ∧ a = b := by
  constructor
  · intro same
    have sum : OnGrid 8 (b + cost) := by
      rw [← same]
      exact Numeric.onGrid_value _
    have grid : OnGrid 8 cost := by
      have difference := sum.sub hb
      rwa [add_sub_cancel_left] at difference
    rw [Numeric.value_store_of_onGrid (ha.add grid)] at same
    exact ⟨grid, by linarith⟩
  · rintro ⟨grid, rfl⟩
    exact Numeric.value_store_of_onGrid (ha.add grid)

/-- The row's usage after a cost. -/
theorem bill_usage [Decidable (expired ends now w)] :
    (w.bill ends restart now cost).usage =
      .store 8 ((if expired ends now w then 0 else w.usage.value) + cost) := by
  rcases Option.eq_none_or_eq_some w.start with start | ⟨t, start⟩
  · have live : ¬expired ends now w := by simp [expired, start]
    simp [RateLimitWindow.bill, start, live]
  · by_cases ended : ends t ≤ now
    · have gone : expired ends now w := ⟨t, start, ended⟩
      simp [RateLimitWindow.bill, start, ended, gone]
    · have live : ¬expired ends now w := by simpa [expired, start] using ended
      simp [RateLimitWindow.bill, start, ended, live]

/-- The row's start after a cost, as the cache would load it. -/
theorem bill_window [Decidable (w.start = none ∨ expired ends now w)] :
    (cached (w.bill ends restart now cost)).window =
      if w.start = none ∨ expired ends now w then unix restart else (cached w).window := by
  rcases Option.eq_none_or_eq_some w.start with start | ⟨t, start⟩
  · simp [RateLimitWindow.bill, cached, start]
  · by_cases ended : ends t ≤ now
    · have gone : expired ends now w := ⟨t, start, ended⟩
      simp [RateLimitWindow.bill, cached, start, ended, gone]
    · have live : ¬expired ends now w := by simpa [expired, start] using ended
      simp [RateLimitWindow.bill, cached, start, ended, live]

open Classical in
/-- One cost keeps one window in agreement exactly when `Meets` says so. -/
theorem update_cached_iff :
    (cached w).update duration (unix now) cost = cached (w.bill ends restart now cost) ↔
      Meets ends duration restart now cost w := by
  have script : (cached w).update duration (unix now) cost =
      { usage := (if cacheExpired duration now w then 0 else w.usage.value) + cost
        window := if cacheExpired duration now w then unix now else (cached w).window } := by
    unfold CacheWindow.update cacheExpired
    split <;> simp [cached]
  have row : cached (w.bill ends restart now cost) =
      { usage := (w.bill ends restart now cost).usage.value
        window := (cached (w.bill ends restart now cost)).window } := rfl
  have grid (p : Prop) : OnGrid 8 (if p then 0 else w.usage.value) := by
    split
    · exact onGrid_zero
    · exact w.usage.onGrid_value
  rw [script, row, bill_usage, bill_window, CacheWindow.mk.injEq, eq_comm,
    value_store_add_eq_iff (grid _) (grid _)]
  constructor
  · rintro ⟨⟨onGrid, usage⟩, window⟩
    refine ⟨onGrid, fun apart => ?_, fun restarts drops => ?_, fun restarts keeps => ?_,
      fun stays drops => ?_⟩
    · by_cases ended : expired ends now w
      · have keeps : ¬cacheExpired duration now w := fun drops => apart (by simp [ended, drops])
        rw [if_pos ended, if_neg keeps] at usage
        exact usage.symm
      · have drops : cacheExpired duration now w := by
          by_contra keeps
          exact apart (by simp [ended, keeps])
        rwa [if_neg ended, if_pos drops] at usage
    · rw [if_pos restarts, if_pos drops] at window
      exact window.symm
    · rw [if_pos restarts, if_neg keeps] at window
      exact window.symm
    · rw [if_neg stays, if_pos drops] at window
      exact window.symm
  · rintro ⟨onGrid, dropped, both, early, late⟩
    refine ⟨⟨onGrid, ?_⟩, ?_⟩
    · by_cases together : expired ends now w ↔ cacheExpired duration now w
      · simp [together]
      · simp [dropped together]
    · by_cases restarts : w.start = none ∨ expired ends now w
      · by_cases drops : cacheExpired duration now w
        · rw [if_pos restarts, if_pos drops, both restarts drops]
        · rw [if_pos restarts, if_neg drops, early restarts drops]
      · by_cases drops : cacheExpired duration now w
        · rw [if_neg restarts, if_pos drops, late restarts drops]
        · rw [if_neg restarts, if_neg drops]

end Step

/-! ### Sequences of costs on a key -/

/-- `Meets` for each of the three windows of the row. -/
structure KeyMeets (cal : Calendar) (now : Time) (cost : ℚ) (key : APIKey) : Prop where
  window5h : Meets (· + 5 * hour) rateLimitWindow5h now now cost key.window5h
  window1d : Meets (· + 24 * hour) rateLimitWindow1d (cal.startOfDay now) now cost key.window1d
  window7d : Meets (cal.plusDays · 7) rateLimitWindow7d (cal.startOfDay now) now cost key.window7d

/-- The database and the entry of one key. -/
structure Paths where
  db : Db
  cache : Option APIKeyRateLimitCacheData

/-- A cost billed at an instant, on both paths. -/
def Paths.bill (cal : Calendar) (id : ℤ) (p : Paths) (billed : Time × ℚ) : Paths :=
  { db :=
      match incrementUsageBillingAPIKeyRateLimit cal billed.1 id billed.2 noFaults (0, p.db) with
      | .ok (_, (_, db)) => db
      | .error _ => p.db
    cache := updateAPIKeyRateLimitUsage billed.1 billed.2 p.cache }

/-- The entry is the one that loading the row would make. -/
def Paths.Agree (id : ℤ) (p : Paths) : Prop :=
  p.cache = (p.db.apiKeys id).map cacheEntry

section Runs

variable {cal : Calendar} {id : ℤ} {now : Time} {cost : ℚ} {key : APIKey} {p : Paths}

theorem cacheEntry_update_iff :
    updateAPIKeyRateLimitUsage now cost (some (cacheEntry key)) =
        some (cacheEntry (key.billWindows cal now cost)) ↔ KeyMeets cal now cost key := by
  simp only [updateAPIKeyRateLimitUsage, updateRateLimitUsageScript, cacheEntry,
    APIKey.billWindows, Option.some.injEq, APIKeyRateLimitCacheData.mk.injEq, update_cached_iff]
  exact ⟨fun ⟨h5, h1, h7⟩ => ⟨h5, h1, h7⟩, fun ⟨h5, h1, h7⟩ => ⟨h5, h1, h7⟩⟩

/-- Billing a live key rewrites its row. -/
theorem bill_row (found : p.db.apiKeys id = some key) (live : key.deleted = false) :
    (p.bill cal id (now, cost)).db.apiKeys id = some (key.billWindows cal now cost) := by
  simp [Paths.bill, incrementUsageBillingAPIKeyRateLimit, Tx.updateRow, Tx.tryStmt, noFaults,
    Table.tryUpdateWhere, found, live, numericParam, bind, Except.bind]

/-- One cost keeps a live key in agreement exactly when its windows meet the condition. -/
theorem bill_agree_iff (found : p.db.apiKeys id = some key) (live : key.deleted = false)
    (agree : p.Agree id) :
    (p.bill cal id (now, cost)).Agree id ↔ KeyMeets cal now cost key := by
  unfold Paths.Agree at agree ⊢
  rw [bill_row found live, ← cacheEntry_update_iff]
  rw [found] at agree
  show updateAPIKeyRateLimitUsage now cost p.cache = _ ↔ _
  rw [agree]
  rfl

/-- A live key stays live. -/
theorem bill_live (live : ∃ key, p.db.apiKeys id = some key ∧ key.deleted = false)
    (costs : List (Time × ℚ)) :
    ∃ key, (costs.foldl (Paths.bill cal id) p).db.apiKeys id = some key ∧
      key.deleted = false := by
  induction costs generalizing p with
  | nil => exact live
  | cons billed rest ih =>
      obtain ⟨key, found, live⟩ := live
      exact ih ⟨_, bill_row found live, live⟩

/-- **The cache agrees with the database** after every sequence of costs exactly when each cost,
at the row it meets, satisfies the condition. -/
theorem cache_agrees_iff (cal : Calendar) (db : Db) (id : ℤ) (key : APIKey)
    (found : db.apiKeys id = some key) (live : key.deleted = false) (costs : List (Time × ℚ)) :
    (∀ sofar, sofar <+: costs →
      (sofar.foldl (Paths.bill cal id) { db := db, cache := some (cacheEntry key) }).Agree id) ↔
    ∀ sofar now cost row, sofar ++ [(now, cost)] <+: costs →
      (sofar.foldl (Paths.bill cal id)
        { db := db, cache := some (cacheEntry key) }).db.apiKeys id = some row →
      KeyMeets cal now cost row := by
  set start : Paths := { db := db, cache := some (cacheEntry key) }
  have step (sofar : List (Time × ℚ)) (now : Time) (cost : ℚ) (row : APIKey)
      (there : (sofar.foldl (Paths.bill cal id) start).db.apiKeys id = some row)
      (agree : (sofar.foldl (Paths.bill cal id) start).Agree id) :
      ((sofar ++ [(now, cost)]).foldl (Paths.bill cal id) start).Agree id ↔
        KeyMeets cal now cost row := by
    obtain ⟨row', there', live'⟩ := @bill_live cal id start ⟨key, found, live⟩ sofar
    rw [there] at there'
    cases there'
    rw [List.foldl_append]
    exact bill_agree_iff there live' agree
  constructor
  · intro agree sofar now cost row earlier there
    exact (step sofar now cost row there
      (agree sofar ((List.prefix_append _ _).trans earlier))).mp (agree _ earlier)
  · intro meets sofar
    induction sofar using List.reverseRecOn with
    | nil => exact fun _ => by simp [Paths.Agree, start, found]
    | append_singleton sofar billed ih =>
        intro earlier
        obtain ⟨row, there, _⟩ := @bill_live cal id start ⟨key, found, live⟩ sofar
        exact (step sofar billed.1 billed.2 row there
          (ih ((List.prefix_append _ _).trans earlier))).mpr
            (meets sofar billed.1 billed.2 row earlier there)

end Runs

/-! ### Two costs around midnight -/

namespace Sample

/-- A key whose windows have not started. -/
def db : Db := { apiKeys := fun id => if id = 1 then some {} else none }

def start : Paths := { db := db, cache := some (cacheEntry {}) }

/-- The first second of a day. -/
def midnight : Time := 20000 * day

/-- A cost of one at noon and a cost of two on the next morning. -/
def costs : List (Time × ℚ) := [(midnight + 12 * hour, 1), (midnight + 30 * hour, 2)]

end Sample

/-- A cost in the first second of a day starts every window on both sides at once. -/
theorem cache_agrees_at_midnight :
    ([(Sample.midnight, (1 : ℚ))].foldl (Paths.bill .utc 1) Sample.start).Agree 1 := by
  refine (cache_agrees_iff .utc Sample.db 1 {} rfl rfl _).mpr ?_ _ (List.prefix_refl _)
  intro sofar now cost row earlier there
  have first : sofar = [] ∧ (now, cost) = (Sample.midnight, 1) := by
    rw [List.prefix_cons_iff] at earlier
    rcases earlier with none | ⟨rest, all, more⟩
    · simp at none
    · rw [List.prefix_nil] at more
      subst more
      cases sofar with
      | nil => simpa using all
      | cons _ _ => simp at all
  obtain ⟨rfl, same⟩ := first
  cases same
  cases there
  have grid : OnGrid 8 1 := by decide +kernel
  have unset (duration : ℤ) : cacheExpired duration Sample.midnight {} := Or.inl rfl
  have started (ends : Time → Time) (duration : ℤ) :
      Meets ends duration Sample.midnight Sample.midnight 1 {} :=
    ⟨grid, fun _ => by decide +kernel, fun _ _ => rfl, fun _ keeps => absurd (unset _) keeps,
      fun stays => absurd (Or.inl rfl) stays⟩
  exact ⟨started _ _, started _ _, started _ _⟩

/-- The database's day ends at midnight and the cache's a day after its first cost, so the second
cost restarts the one and is added to the other. -/
theorem cache_diverges :
    ¬∀ sofar, sofar <+: Sample.costs →
      (sofar.foldl (Paths.bill .utc 1) Sample.start).Agree 1 := by
  intro agree
  have last := agree Sample.costs (List.prefix_refl _)
  have row : ((Sample.costs.foldl (Paths.bill .utc 1) Sample.start).db.apiKeys 1).map
      (fun key => key.window1d.usage.value) = some 2 := by decide +kernel
  have entry : (Sample.costs.foldl (Paths.bill .utc 1) Sample.start).cache.map
      (fun data => data.window1d.usage) = some 3 := by decide +kernel
  rw [last, Option.map_map] at entry
  have two : some (2 : ℚ) = some 3 := row.symm.trans entry
  norm_num at two

end Sub2api.RateLimit
