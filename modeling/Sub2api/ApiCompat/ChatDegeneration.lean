import Mathlib.Data.Rat.Defs
import Sub2api.Go.Strings
import Sub2api.Interleave.Histories

/-!
# The guard against degenerate repetition

A stream's text grows by fragments; from time to time the tail of it is looked at. Indexing outside
a slice is an error here, as it ends the request there. Of a rune only whether it is a letter or a
digit is asked of the Unicode tables.
-/

namespace Sub2api.ApiCompat.Degeneration

open Go

inductive Kind where
  | period
  | line
  | markup
  deriving DecidableEq

inductive Channel where
  | message
  | reasoning
  deriving DecidableEq

structure ChatDegeneration where
  kind : Kind
  channel : Channel
  periodRunes : ℤ := 0
  repeats : ℤ
  distinctLines : ℤ := 0
  markupCloses : ℤ := 0
  totalRunes : ℤ
  deriving DecidableEq

@[ext]
structure ChatDegenerationGuard where
  minTotalRunes : ℤ := 0
  windowRunes : ℤ := 0
  minPeriod : ℤ := 0
  maxPeriod : ℤ := 0
  minRepeats : ℤ := 0
  checkEveryBytes : ℤ := 0
  lineWindow : ℤ := 0
  lineMinCount : ℤ := 0
  lineMaxDistinct : ℤ := 0
  lineMaxRunes : ℤ := 0
  lineTailBytes : ℤ := 0
  markupTailBytes : ℤ := 0
  markupMinCloses : ℤ := 0
  markupMinDensity : ℚ := 0

def defaultChatDegenerationGuard : ChatDegenerationGuard where
  minTotalRunes := 12000
  windowRunes := 4608
  minPeriod := 4
  maxPeriod := 192
  minRepeats := 24
  checkEveryBytes := 8192
  lineWindow := 96
  lineMinCount := 48
  lineMaxDistinct := 10
  lineMaxRunes := 48
  lineTailBytes := 16 * 1024
  markupTailBytes := 16 * 1024
  markupMinCloses := 120
  markupMinDensity := 55 / 100

/-- A field that is not positive takes the default. -/
def positive (field default : ℤ) : ℤ := if field ≤ 0 then default else field

def ChatDegenerationGuard.normalize (g : ChatDegenerationGuard) : ChatDegenerationGuard :=
  let default := defaultChatDegenerationGuard
  let minPeriod := positive g.minPeriod default.minPeriod
  let maxPeriod := max (positive g.maxPeriod default.maxPeriod) minPeriod
  let minRepeats := positive g.minRepeats default.minRepeats
  let lineMaxDistinct := positive g.lineMaxDistinct default.lineMaxDistinct
  { minTotalRunes := positive g.minTotalRunes default.minTotalRunes
    windowRunes := max (positive g.windowRunes default.windowRunes) (maxPeriod * minRepeats)
    minPeriod := minPeriod
    maxPeriod := maxPeriod
    minRepeats := minRepeats
    checkEveryBytes := positive g.checkEveryBytes default.checkEveryBytes
    lineWindow := positive g.lineWindow default.lineWindow
    lineMinCount := max (positive g.lineMinCount default.lineMinCount) lineMaxDistinct
    lineMaxDistinct := lineMaxDistinct
    lineMaxRunes := positive g.lineMaxRunes default.lineMaxRunes
    lineTailBytes := positive g.lineTailBytes default.lineTailBytes
    markupTailBytes := positive g.markupTailBytes default.markupTailBytes
    markupMinCloses := positive g.markupMinCloses default.markupMinCloses
    markupMinDensity :=
      min (if g.markupMinDensity ≤ 0 then default.markupMinDensity else g.markupMinDensity) 1 }

/-! ### Texts and their tails -/

structure IndexOutOfRange where
  index : ℤ
  deriving DecidableEq

def byteLen (s : List Char) : ℤ := ((s.map Char.utf8Size).sum : ℕ)

/-- The last runes of a text, `n` at most. -/
def tailRunes (s : List Char) (n : ℤ) : List Char := s.drop (s.length - n.toNat)

/-- What is left of the text once it fits into so many bytes. -/
def fitting (n : ℤ) : List Char → List Char
  | [] => []
  | rune :: rest => if byteLen (rune :: rest) ≤ n then rune :: rest else fitting n rest

/-- The last bytes, `n` at most, less the rune that is cut through. -/
def lastBytes (s : List Char) (n : ℤ) : List Char :=
  if n ≤ 0 ∨ byteLen s ≤ n then s else fitting n s

def runeAt (window : List Char) (i : ℤ) : Except IndexOutOfRange Char :=
  match if i < 0 then none else window[i.toNat]? with
  | some rune => .ok rune
  | none => .error ⟨i⟩

/-- `window[i:]`. -/
def sliceFrom (window : List Char) (i : ℤ) : Except IndexOutOfRange (List Char) :=
  if i < 0 ∨ window.length < i then .error ⟨i⟩ else .ok (window.drop i.toNat)

/-! ### The three channels -/

section Channels

variable (isLetter isDigit : Char → Bool)

def degenerateUnit (unit : List Char) : Bool :=
  unit.any (fun r => isLetter r || isDigit r) && decide (3 ≤ unit.dedup.length)

/-- Compares `n` runes, from the one at `i` down, each with the one a period before. -/
def compareBack (window : List Char) (period : ℤ) : ℕ → ℤ → Except IndexOutOfRange Bool
  | 0, _ => .ok true
  | n + 1, i => do
      let rune ← runeAt window i
      let earlier ← runeAt window (i - period)
      if rune ≠ earlier then .ok false else compareBack window period n (i - 1)

namespace ChatDegenerationGuard

variable (g : ChatDegenerationGuard)

/-- The loop of `detectPeriod` over the periods that are left. -/
def detectPeriodOf (window : List Char) (channel : Channel) (totalRunes : ℤ) :
    List ℤ → Except IndexOutOfRange (Option ChatDegeneration)
  | [] => .ok none
  | period :: rest =>
    let need := period * g.minRepeats
    if window.length < need then .ok none
    else do
      if ← compareBack window period need.toNat (window.length - 1) then
        let unit ← sliceFrom window (window.length - period)
        if ¬ degenerateUnit isLetter isDigit unit then .ok none
        else .ok (some {
          kind := .period, channel, periodRunes := period
          repeats := window.length / period, totalRunes })
      else detectPeriodOf window channel totalRunes rest

/-- From the least period to the greatest. -/
def periods : List ℤ :=
  (List.range (g.maxPeriod + 1 - g.minPeriod).toNat).map fun (k : ℕ) => g.minPeriod + k

def detectPeriod (window : List Char) (channel : Channel) (totalRunes : ℤ) :
    Except IndexOutOfRange (Option ChatDegeneration) :=
  g.detectPeriodOf isLetter isDigit window channel totalRunes g.periods

def detectLineRepetition (tail : List Char) (channel : Channel) (totalRunes : ℤ) :
    Option ChatDegeneration :=
  let raw := (tail.splitOn '\n').reverse.map fun line => (trimSpace (String.ofList line)).toList
  let lines := (raw.filter fun line => line ≠ []).take g.lineWindow.toNat
  let distinct := lines.dedup.length
  if lines.length < g.lineMinCount then none
  else if lines.any fun line =>
      decide (g.lineMaxRunes < line.length) || !degenerateUnit isLetter isDigit line then none
  else if g.lineMaxDistinct < distinct then none
  else if distinct < 3 then none
  else if lines.length < distinct * 6 then none
  else some {
    kind := .line, channel, repeats := lines.length, distinctLines := distinct, totalRunes }

end ChatDegenerationGuard

def markupCloseTags : List String :=
  ["</invoke>", "</parameter>", "</function_calls>", "</tool_calls>", "</tool_call>",
    "</function_call>", "</invoke>", "</parameter>", "</|DSML|invoke>", "</|DSML|parameter>",
    "</|DSML|tool_calls>", "</|dsml|invoke>", "</|dsml|parameter>", "</|dsml|tool_calls>"]

/-- The length of the longest closing tag the text starts with. -/
def matchedTag (text : List Char) : ℕ :=
  markupCloseTags.foldl (fun matched tag =>
    if matched < tag.length ∧ tag.toList.isPrefixOf text then tag.length else matched) 0

/-- The closing tags, and how much they cover, after so many runes that belong to the last one. -/
def countMarkupCloses : ℕ → List Char → ℕ × ℕ
  | _, [] => (0, 0)
  | skip + 1, _ :: rest => countMarkupCloses skip rest
  | 0, rune :: rest =>
    if rune ≠ '<' then countMarkupCloses 0 rest
    else
      let matched := matchedTag (rune :: rest)
      if 0 < matched then
        let (closes, covered) := countMarkupCloses (matched - 1) rest
        (closes + 1, covered + matched)
      else countMarkupCloses 0 rest

namespace ChatDegenerationGuard

variable (g : ChatDegenerationGuard)

def detectMarkupFlood (tail : List Char) (channel : Channel) (totalRunes : ℤ) :
    Option ChatDegeneration :=
  if tail.length = 0 then none
  else
    let (closes, covered) := countMarkupCloses 0 tail
    if closes < g.markupMinCloses then none
    else if (covered : ℚ) / tail.length < g.markupMinDensity then none
    else some { kind := .markup, channel, repeats := closes, markupCloses := closes, totalRunes }

def detect (text : List Char) (channel : Channel) :
    Except IndexOutOfRange (Option ChatDegeneration) := do
  let g := g.normalize
  let totalRunes : ℤ := text.length
  if totalRunes < g.minTotalRunes then return none
  if let some detected ←
      g.detectPeriod isLetter isDigit (tailRunes text g.windowRunes) channel totalRunes then
    return some detected
  if let some detected := g.detectLineRepetition isLetter isDigit (lastBytes text g.lineTailBytes)
      channel totalRunes then
    return some detected
  return g.detectMarkupFlood (lastBytes text g.markupTailBytes) channel totalRunes

end ChatDegenerationGuard

/-! ### The stream -/

/-- What a chunk adds. -/
structure Fragment where
  content : List Char := []
  reasoning : List Char := []

structure StreamState where
  text : List Char := []
  reasoning : List Char := []
  degeneration : Option ChatDegeneration := none
  degLastTotalBytes : ℤ := 0
  deriving DecidableEq

namespace StreamState

def append (state : StreamState) (fragment : Fragment) : StreamState :=
  { state with
    text := state.text ++ fragment.content
    reasoning := state.reasoning ++ fragment.reasoning }

def total (state : StreamState) : ℤ := byteLen state.text + byteLen state.reasoning

/-- The channel that is looked at, the longer one, and its text. -/
def watched (state : StreamState) : Channel × List Char :=
  if byteLen state.text < byteLen state.reasoning then (.reasoning, state.reasoning)
  else (.message, state.text)

/-- Nothing is detected yet, and enough has come since the text was last looked at. -/
def Due (g : ChatDegenerationGuard) (state : StreamState) : Prop :=
  state.degeneration = none ∧
    g.normalize.checkEveryBytes ≤ state.total - state.degLastTotalBytes

instance (g : ChatDegenerationGuard) (state : StreamState) : Decidable (Due g state) :=
  inferInstanceAs (Decidable (_ ∧ _))

def detectDegeneration (g : ChatDegenerationGuard) (state : StreamState) :
    Except IndexOutOfRange StreamState := do
  if state.degeneration.isSome then return state
  let guard := g.normalize
  if state.total - state.degLastTotalBytes < guard.checkEveryBytes then return state
  let (channel, text) := state.watched
  let detected ← guard.detect isLetter isDigit text channel
  return { state with degLastTotalBytes := state.total, degeneration := detected }

/-- A chunk comes, and the text is looked at where it is time. -/
def feed (g : ChatDegenerationGuard) (state : StreamState) (fragment : Fragment) :
    Except IndexOutOfRange StreamState :=
  (state.append fragment).detectDegeneration isLetter isDigit g

def run (g : ChatDegenerationGuard) (fragments : List Fragment) :
    Except IndexOutOfRange StreamState :=
  fragments.foldlM (feed isLetter isDigit g) {}

end StreamState

end Channels

/-! ### What the comparison reads -/

/-- Each of the last `period * repeats` runes that has a rune a period before it equals that one. -/
def Repeats (window : List Char) (period repeats : ℤ) : Prop :=
  ∀ i : ℤ, window.length - period * repeats ≤ i → period ≤ i → i < window.length →
    runeAt window i = runeAt window (i - period)

theorem runeAt_ok (window : List Char) {i : ℤ} (low : 0 ≤ i) (high : i < window.length) :
    ∃ rune, runeAt window i = .ok rune := by
  unfold runeAt
  rw [if_neg (by omega), List.getElem?_eq_getElem (by omega)]
  exact ⟨_, rfl⟩

theorem runeAt_negative {window : List Char} {i : ℤ} (low : i < 0) :
    runeAt window i = .error ⟨i⟩ := by
  unfold runeAt
  rw [if_pos low]

section Compare

variable {window : List Char} {period : ℤ} (positive : 0 < period)

include positive

/-- A mismatch above the window's first period ends the comparison. -/
theorem compareBack_mismatch (n : ℕ) (i : ℤ) (high : i < window.length) (low : n ≤ i + 1)
    (mismatch : ∃ j, i - n < j ∧ j ≤ i ∧ period ≤ j ∧
      runeAt window j ≠ runeAt window (j - period)) :
    compareBack window period n i = .ok false := by
  induction n generalizing i with
  | zero =>
    obtain ⟨j, above, below, _⟩ := mismatch
    omega
  | succ n ih =>
    obtain ⟨j, above, below, within, differs⟩ := mismatch
    obtain ⟨rune, here⟩ := runeAt_ok window (i := i) (by omega) high
    obtain ⟨earlier, before⟩ := runeAt_ok window (i := i - period) (by omega) (by omega)
    unfold compareBack
    rw [here, before]
    change (if rune ≠ earlier then _ else _) = _
    by_cases same : rune = earlier
    · rw [if_neg (not_not_intro same)]
      apply ih (i - 1) (by omega) (by omega)
      have other : j ≠ i := by
        rintro rfl
        rw [here, before, same] at differs
        exact differs rfl
      exact ⟨j, by omega, by omega, within, differs⟩
    · rw [if_pos same]

/-- Without one it comes through, or before the window. -/
theorem compareBack_match (n : ℕ) (i : ℤ) (high : i < window.length) (low : n ≤ i + 1)
    (all : ∀ j, i - n < j → j ≤ i → period ≤ j → runeAt window j = runeAt window (j - period)) :
    compareBack window period n i =
      if 0 < n ∧ i - n + 1 < period then .error ⟨min i (period - 1) - period⟩ else .ok true := by
  induction n generalizing i with
  | zero => simp [compareBack]
  | succ n ih =>
    obtain ⟨rune, here⟩ := runeAt_ok window (i := i) (by omega) high
    unfold compareBack
    rw [here]
    by_cases inside : period ≤ i
    · obtain ⟨earlier, before⟩ :=
        runeAt_ok window (i := i - period) (by omega) (by omega)
      have same : rune = earlier := by
        have equal := all i (by omega) (le_refl i) inside
        rw [here, before] at equal
        exact Except.ok.inj equal
      rw [before]
      change (if rune ≠ earlier then _ else _) = _
      rw [if_neg (not_not_intro same),
        ih (i - 1) (by omega) (by omega) fun j above below => all j (by omega) (by omega)]
      by_cases early : i - n < period
      · rw [if_pos (by omega), if_pos (by omega), min_eq_right (by omega), min_eq_right (by omega)]
      · rw [if_neg (by omega), if_neg (by omega)]
    · rw [runeAt_negative (by omega), if_pos (by omega)]
      change Except.error _ = Except.error _
      congr 2
      omega

/-- The comparison of a period: a mismatch, the end, or an index before the window. -/
theorem compareBack_cases {repeats : ℤ}
    (many : 0 < repeats)
    (room : period * repeats ≤ window.length) :
    (¬ Repeats window period repeats ∧
        compareBack window period (period * repeats).toNat (window.length - 1) = .ok false) ∨
      (Repeats window period repeats ∧ window.length < period * repeats + period ∧
        ∃ error, compareBack window period (period * repeats).toNat (window.length - 1) =
          .error error) ∨
      (Repeats window period repeats ∧ period * repeats + period ≤ window.length ∧
        compareBack window period (period * repeats).toNat (window.length - 1) = .ok true) := by
  have some_ : 0 < period * repeats := mul_pos positive many
  generalize length : (period * repeats).toNat = n
  have need : (n : ℤ) = period * repeats := by omega
  by_cases all : Repeats window period repeats
  · right
    have through := compareBack_match positive n (window.length - 1) (by omega) (by omega)
      fun j above below within => all j (by omega) within (by omega)
    by_cases short : window.length < period * repeats + period
    · left
      rw [if_pos (by omega)] at through
      exact ⟨all, short, _, through⟩
    · right
      rw [if_neg (by omega)] at through
      exact ⟨all, by omega, through⟩
  · left
    refine ⟨all, compareBack_mismatch positive n _ (by omega) (by omega) ?_⟩
    unfold Repeats at all
    push Not at all
    obtain ⟨j, above, within, below, differs⟩ := all
    exact ⟨j, by omega, by omega, within, differs⟩

end Compare

section Detect

variable (isLetter isDigit : Char → Bool) (g : ChatDegenerationGuard)

/-- The last `period * repeats` runes are periodic: after the first `period`, each equals the rune a
period before. -/
def PeriodicTail (window : List Char) (period repeats : ℤ) : Prop :=
  period * repeats ≤ window.length ∧
    ∀ i : ℤ, window.length - period * repeats + period ≤ i → i < window.length →
      runeAt window i = runeAt window (i - period)

/-- The window is all of one period that leaves no room for the runes before the compared ones, and
no smaller period was found. -/
def Overruns (window : List Char) : Prop :=
  ∃ period, g.minPeriod ≤ period ∧ period ≤ g.maxPeriod ∧
    period * g.minRepeats ≤ window.length ∧
    window.length < period * g.minRepeats + period ∧
    Repeats window period g.minRepeats ∧
    ∀ smaller, g.minPeriod ≤ smaller → smaller < period →
      ¬ Repeats window smaller g.minRepeats

variable {g} {window : List Char} {channel : Channel} {totalRunes : ℤ}

/-- The loop from a period on, where no smaller one repeats. -/
theorem detectPeriodOf_range (some_ : 0 < g.minPeriod) (many : 0 < g.minRepeats) (n : ℕ)
    (from_ : ℤ) (least : g.minPeriod ≤ from_) (upTo : from_ + n = g.maxPeriod + 1)
    (none_ : ∀ smaller, g.minPeriod ≤ smaller → smaller < from_ →
      ¬ Repeats window smaller g.minRepeats) :
    (Overruns g window ∧ ∃ error, g.detectPeriodOf isLetter isDigit window channel totalRunes
        ((List.range n).map fun (k : ℕ) => from_ + k) = .error error) ∨
      (¬ Overruns g window ∧ ∃ detected, g.detectPeriodOf isLetter isDigit window channel totalRunes
        ((List.range n).map fun (k : ℕ) => from_ + k) = .ok detected ∧
        ∀ found, detected = some found → found.kind = .period ∧
          PeriodicTail window found.periodRunes g.minRepeats) := by
  induction n generalizing from_ with
  | zero =>
    right
    refine ⟨?_, none, rfl, by simp⟩
    rintro ⟨period, above, below, _, _, repeats, _⟩
    exact none_ period above (by omega) repeats
  | succ n ih =>
    have unrolled : ((List.range (n + 1)).map fun (k : ℕ) => from_ + (k : ℤ)) =
        from_ :: (List.range n).map fun (k : ℕ) => from_ + 1 + (k : ℤ) := by
      rw [List.range_succ_eq_map, List.map_cons, List.map_map]
      congr 1
      · simp
      · apply List.map_congr_left
        intro k _
        simp only [Function.comp_apply, Nat.succ_eq_add_one]
        omega
    have first : ∀ period, g.minPeriod ≤ period → Repeats window period g.minRepeats →
        from_ ≤ period := by
      intro period above repeats
      by_contra below
      exact none_ period above (not_le.mp below) repeats
    rw [unrolled]
    unfold ChatDegenerationGuard.detectPeriodOf
    by_cases room : window.length < from_ * g.minRepeats
    · right
      refine ⟨?_, none, if_pos room, by simp⟩
      rintro ⟨period, above, below, fits, _, repeats, _⟩
      have more := mul_le_mul_of_nonneg_right (first period above repeats) many.le
      omega
    · rw [if_neg room]
      rcases compareBack_cases (show 0 < from_ by omega) many
        (not_lt.mp room) with ⟨differs, compared⟩ | ⟨repeats, short, error, compared⟩ |
          ⟨repeats, long, compared⟩
      · rw [compared]
        refine ih (from_ + 1) (by omega) (by omega) ?_
        intro smaller above below
        rcases Int.lt_or_eq_of_le (Int.lt_add_one_iff.mp below) with less | rfl
        · exact none_ smaller above less
        · exact differs
      · left
        rw [compared]
        exact ⟨⟨from_, least, by omega, not_lt.mp room, short, repeats, none_⟩, error, rfl⟩
      · right
        rw [compared]
        have sliced : sliceFrom window (window.length - from_) =
            .ok (window.drop ((window.length : ℤ) - from_).toNat) := by
          have once : from_ ≤ from_ * g.minRepeats :=
            le_mul_of_one_le_right (by omega) (by omega)
          exact if_neg (by omega)
        refine ⟨?_, ?_⟩
        · rintro ⟨period, above, below, fits, short, repeats', alone⟩
          rcases Int.lt_or_eq_of_le (first period above repeats') with less | rfl
          · exact alone from_ least less repeats
          · omega
        · by_cases unit : degenerateUnit isLetter isDigit
              (window.drop ((window.length : ℤ) - from_).toNat) = true
          · refine ⟨some {
              kind := .period, channel, periodRunes := from_
              repeats := window.length / from_, totalRunes }, ?_, ?_⟩
            · simp only [bind, Except.bind, if_true, sliced]
              exact if_neg (by simp [unit])
            · intro found same
              cases same
              have tail : PeriodicTail window from_ g.minRepeats :=
                ⟨not_lt.mp room, fun i above below =>
                  repeats i (by omega) (by omega) below⟩
              exact ⟨rfl, tail⟩
          · refine ⟨none, ?_, by simp⟩
            simp only [bind, Except.bind, if_true, sliced]
            exact if_pos unit

theorem detectPeriod_cases (window : List Char) (channel : Channel) (totalRunes : ℤ)
    (some_ : 0 < g.minPeriod) (many : 0 < g.minRepeats)
    (ordered : g.minPeriod ≤ g.maxPeriod) :
    (Overruns g window ∧ ∃ error,
        g.detectPeriod isLetter isDigit window channel totalRunes = .error error) ∨
      (¬ Overruns g window ∧ ∃ detected,
        g.detectPeriod isLetter isDigit window channel totalRunes = .ok detected ∧
        ∀ found, detected = some found → found.kind = .period ∧
          PeriodicTail window found.periodRunes g.minRepeats) :=
  detectPeriodOf_range isLetter isDigit some_ many _ g.minPeriod le_rfl (by omega)
    fun smaller above below => absurd above (not_le.mpr below)

theorem positive_pos {field default : ℤ} (some_ : 0 < default) : 0 < positive field default := by
  unfold positive
  split <;> omega

theorem normalize_minPeriod : 0 < g.normalize.minPeriod := positive_pos (by decide)

theorem normalize_minRepeats : 0 < g.normalize.minRepeats := positive_pos (by decide)

theorem normalize_ordered : g.normalize.minPeriod ≤ g.normalize.maxPeriod := le_max_right ..

theorem positive_of_pos {field default : ℤ} (some_ : 0 < field) : positive field default = field :=
  if_neg (not_le.mpr some_)

theorem positive_positive {field default : ℤ} (some_ : 0 < default) :
    positive (positive field default) default = positive field default :=
  positive_of_pos (positive_pos some_)

/-- A guard that is normalized stays as it is. -/
theorem normalize_normalize : g.normalize.normalize = g.normalize := by
  have density : 0 < g.normalize.markupMinDensity := by
    apply lt_min
    · split
      · decide +kernel
      · rename_i above
        exact not_le.mp above
    · exact one_pos
  have window : 0 < g.normalize.windowRunes := lt_max_of_lt_left (positive_pos (by decide))
  have upTo : 0 < g.normalize.maxPeriod := lt_max_of_lt_left (positive_pos (by decide))
  have count : 0 < g.normalize.lineMinCount := lt_max_of_lt_left (positive_pos (by decide))
  have minPeriod : g.normalize.normalize.minPeriod = g.normalize.minPeriod :=
    positive_positive (by decide)
  have minRepeats : g.normalize.normalize.minRepeats = g.normalize.minRepeats :=
    positive_positive (by decide)
  have distinct : g.normalize.normalize.lineMaxDistinct = g.normalize.lineMaxDistinct :=
    positive_positive (by decide)
  have maxPeriod : g.normalize.normalize.maxPeriod = g.normalize.maxPeriod := by
    change max (positive g.normalize.maxPeriod _) g.normalize.normalize.minPeriod = _
    rw [positive_of_pos upTo, minPeriod, max_eq_left normalize_ordered]
  have windowRunes : g.normalize.normalize.windowRunes = g.normalize.windowRunes := by
    change max (positive g.normalize.windowRunes _)
      (g.normalize.normalize.maxPeriod * g.normalize.normalize.minRepeats) = _
    rw [positive_of_pos window, maxPeriod, minRepeats]
    exact max_eq_left (le_max_right ..)
  have lineMinCount : g.normalize.normalize.lineMinCount = g.normalize.lineMinCount := by
    change max (positive g.normalize.lineMinCount _) g.normalize.normalize.lineMaxDistinct = _
    rw [positive_of_pos count, distinct]
    exact max_eq_left (le_max_right ..)
  have markup : g.normalize.normalize.markupMinDensity = g.normalize.markupMinDensity := by
    change min (if g.normalize.markupMinDensity ≤ 0 then _ else _) 1 = _
    rw [if_neg (not_le.mpr density)]
    exact min_eq_left (min_le_right ..)
  have other : ∀ {field default : ℤ}, 0 < default →
      positive (positive field default) default = positive field default := positive_positive
  ext
  exacts [other (by decide), windowRunes, minPeriod, maxPeriod, minRepeats, other (by decide),
    other (by decide), lineMinCount, distinct, other (by decide), other (by decide),
    other (by decide), other (by decide), markup]

variable (g) in
/-- The text is long enough, and its window is one in which the comparison runs out of it. -/
def OverrunsIn (text : List Char) : Prop :=
  g.normalize.minTotalRunes ≤ text.length ∧
    Overruns g.normalize (tailRunes text g.normalize.windowRunes)

variable (g) in
/-- What is reported with a period has it in the window. -/
def Reports (text : List Char) (found : ChatDegeneration) : Prop :=
  found.kind = .period →
    PeriodicTail (tailRunes text g.normalize.windowRunes) found.periodRunes g.normalize.minRepeats

theorem lineRepetition_kind {tail : List Char} {found : ChatDegeneration}
    (detected : g.detectLineRepetition isLetter isDigit tail channel totalRunes = some found) :
    found.kind = .line := by
  unfold ChatDegenerationGuard.detectLineRepetition at detected
  dsimp only at detected
  split_ifs at detected
  cases detected
  rfl

theorem markupFlood_kind {tail : List Char} {found : ChatDegeneration}
    (detected : g.detectMarkupFlood tail channel totalRunes = some found) :
    found.kind = .markup := by
  unfold ChatDegenerationGuard.detectMarkupFlood at detected
  dsimp only at detected
  split_ifs at detected
  cases detected
  rfl

/-- A text is looked at without an error but where its window overruns, and what is reported is
there. -/
theorem detect_cases (channel : Channel) (text : List Char) :
    (OverrunsIn g text ∧ ∃ error, g.detect isLetter isDigit text channel = .error error) ∨
      (¬ OverrunsIn g text ∧ ∃ detected, g.detect isLetter isDigit text channel = .ok detected ∧
        ∀ found, detected = some found → Reports g text found) := by
  unfold ChatDegenerationGuard.detect
  by_cases short : (text.length : ℤ) < g.normalize.minTotalRunes
  · right
    refine ⟨fun overruns => absurd overruns.1 (not_le.mpr short), none, if_pos short, by simp⟩
  · have look := detectPeriod_cases isLetter isDigit (tailRunes text g.normalize.windowRunes)
      channel text.length
      (normalize_minPeriod (g := g)) normalize_minRepeats normalize_ordered
    simp only [if_neg short]
    rcases look with ⟨overruns, error, failed⟩ | ⟨fine, detected, looked, sound⟩
    · left
      rw [failed]
      exact ⟨⟨not_lt.mp short, overruns⟩, error, rfl⟩
    · right
      refine ⟨fun overrunsIn => fine overrunsIn.2, ?_⟩
      rw [looked]
      cases detected with
      | some detected =>
        refine ⟨some detected, rfl, ?_⟩
        intro found same _
        cases same
        exact (sound detected rfl).2
      | none =>
        cases line : g.normalize.detectLineRepetition isLetter isDigit
          (lastBytes text g.normalize.lineTailBytes) channel text.length with
        | some found =>
          refine ⟨some found, rfl, ?_⟩
          intro other same period
          cases same
          rw [lineRepetition_kind _ _ line] at period
          cases period
        | none =>
          refine ⟨_, rfl, ?_⟩
          intro found flood period
          rw [markupFlood_kind flood] at period
          cases period

open StreamState

/-- A chunk is taken in without an error but where a text that is due overruns its window. -/
theorem feed_cases (state : StreamState) (fragment : Fragment) :
    ((Due g (state.append fragment) ∧ OverrunsIn g (state.append fragment).watched.2) ∧
        ∃ error, feed isLetter isDigit g state fragment = .error error) ∨
      (¬ (Due g (state.append fragment) ∧ OverrunsIn g (state.append fragment).watched.2) ∧
        ∃ state', feed isLetter isDigit g state fragment = .ok state' ∧
          ∀ found, state.degeneration = none → state'.degeneration = some found →
            Reports g (state.append fragment).watched.2 found) := by
  have kept : state.degeneration = (state.append fragment).degeneration := rfl
  unfold feed detectDegeneration
  rw [kept]
  generalize state.append fragment = state
  by_cases already : state.degeneration.isSome = true
  · right
    refine ⟨fun due => ?_, state, if_pos already, ?_⟩
    · rw [due.1.1] at already
      cases already
    · intro found none_ _
      rw [none_] at already
      cases already
  · have none_ : state.degeneration = none := by simpa using already
    rw [if_neg already]
    by_cases early : state.total - state.degLastTotalBytes < g.normalize.checkEveryBytes
    · right
      refine ⟨fun due => absurd due.1.2 (not_le.mpr early), state, if_pos early, ?_⟩
      intro found _ some_
      rw [none_] at some_
      cases some_
    · simp only [if_neg early]
      have look := detect_cases isLetter isDigit (g := g.normalize) state.watched.1
        state.watched.2
      unfold OverrunsIn Reports at look
      rw [normalize_normalize] at look
      rcases look with ⟨overruns, error, failed⟩ | ⟨fine, detected, looked, sound⟩
      · left
        rw [failed]
        exact ⟨⟨⟨none_, not_lt.mp early⟩, overruns⟩, error, rfl⟩
      · right
        rw [looked]
        refine ⟨fun both => fine both.2, _, rfl, ?_⟩
        intro found _ same
        exact sound found same

variable {isLetter isDigit}

variable (isLetter isDigit g) in
/-- The stream is taken in without an error, and whenever something is reported it is there. -/
def SafeAndSound (fragments : List Fragment) : Prop :=
  (∃ state, StreamState.run isLetter isDigit g fragments = .ok state) ∧
    ∀ before fragment after state state' found, fragments = before ++ fragment :: after →
      StreamState.run isLetter isDigit g before = .ok state →
      feed isLetter isDigit g state fragment = .ok state' →
      state.degeneration = none → state'.degeneration = some found →
      Reports g (state.append fragment).watched.2 found

variable (isLetter isDigit g) in
/-- No text that is due overruns its window. -/
def NeverOverruns (fragments : List Fragment) : Prop :=
  ∀ before fragment after state, fragments = before ++ fragment :: after →
    StreamState.run isLetter isDigit g before = .ok state → Due g (state.append fragment) →
    ¬ OverrunsIn g (state.append fragment).watched.2

theorem run_append (fragments : List Fragment) (fragment : Fragment) :
    StreamState.run isLetter isDigit g (fragments ++ [fragment]) =
      StreamState.run isLetter isDigit g fragments >>= fun state =>
        feed isLetter isDigit g state fragment := by
  unfold StreamState.run
  rw [List.foldlM_append]
  congr 1
  funext state
  simp

theorem NeverOverruns.of_append {fragments : List Fragment} {fragment : Fragment}
    (never : NeverOverruns isLetter isDigit g (fragments ++ [fragment])) :
    NeverOverruns isLetter isDigit g fragments := by
  intro before other after state same
  exact never before other (after ++ [fragment]) state (by simp [same])

theorem run_ok_iff (fragments : List Fragment) :
    (∃ state, StreamState.run isLetter isDigit g fragments = .ok state) ↔
      NeverOverruns isLetter isDigit g fragments := by
  induction fragments using List.reverseRecOn with
  | nil =>
    constructor
    · intro _ before fragment after state same
      simp at same
    · intro _
      exact ⟨{}, rfl⟩
  | append_singleton fragments last ih =>
    rw [run_append]
    constructor
    · rintro ⟨final, through⟩ before fragment after state same ran due
      cases so : StreamState.run isLetter isDigit g fragments with
      | error error =>
        rw [so] at through
        cases through
      | ok last_ =>
        rw [so] at through
        rcases Interleave.concat_eq_split same with ⟨rfl, rfl⟩ | ⟨after', split⟩
        · cases so.symm.trans ran
          rcases feed_cases isLetter isDigit (g := g) state fragment
            with ⟨_, error, failed⟩ | ⟨fine, _⟩
          · cases failed.symm.trans through
          · exact fun overruns => fine ⟨due, overruns⟩
        · exact ih.mp ⟨last_, so⟩ before fragment after' state split ran due
    · intro never
      obtain ⟨state, ran⟩ := ih.mpr never.of_append
      rw [ran]
      rcases feed_cases isLetter isDigit (g := g) state last
        with ⟨⟨due, overruns⟩, _⟩ | ⟨_, state', fed, _⟩
      · exact absurd overruns (never fragments last [] state rfl ran due)
      · exact ⟨state', fed⟩

/-- A stream is guarded safely and soundly if and only if no text that is due overruns its window. -/
theorem safeAndSound_iff_neverOverruns (isLetter isDigit : Char → Bool) (g : ChatDegenerationGuard)
    (fragments : List Fragment) :
    SafeAndSound isLetter isDigit g fragments ↔ NeverOverruns isLetter isDigit g fragments := by
  constructor
  · intro safe
    exact (run_ok_iff fragments).mp safe.1
  · intro never
    refine ⟨(run_ok_iff fragments).mpr never, ?_⟩
    intro before fragment after state state' found same ran fed none_ some_
    rcases feed_cases isLetter isDigit (g := g) state fragment
      with ⟨_, error, failed⟩ | ⟨_, state'', fed', sound⟩
    · cases failed.symm.trans fed
    · cases fed'.symm.trans fed
      exact sound found none_ some_

/-- A text of one period, as long as its window. -/
def wholeWindow : List Fragment := [{ content := "abcdabcd".toList }]

def wholeWindowGuard : ChatDegenerationGuard where
  minTotalRunes := 8
  windowRunes := 8
  minPeriod := 4
  maxPeriod := 4
  minRepeats := 2
  checkEveryBytes := 8

/-- The comparison reads before the window. -/
theorem wholeWindow_overruns :
    StreamState.run Char.isAlpha Char.isDigit wholeWindowGuard wholeWindow = .error ⟨-1⟩ ∧
      ¬ SafeAndSound Char.isAlpha Char.isDigit wholeWindowGuard wholeWindow := by
  have failed :
      StreamState.run Char.isAlpha Char.isDigit wholeWindowGuard wholeWindow = .error ⟨-1⟩ := by
    decide +kernel
  refine ⟨failed, ?_⟩
  rintro ⟨⟨state, through⟩, _⟩
  cases failed.symm.trans through

end Detect

end Sub2api.ApiCompat.Degeneration
