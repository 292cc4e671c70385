import Mathlib.Algebra.Order.Ring.Rat
import Mathlib.Data.List.Sort
import Sub2api.Go.Strings
import Sub2api.Interleave.Program

/-!
# The translation aggregator

`Translate` tries the providers in the order of their health. An automatic call asks `cooling` first,
which keeps it from a provider that failed lately and lets one call at a time probe it; a call for a
named provider does not ask. What comes of a call is recorded, or its probe released when the caller
gave up.

Times are nanoseconds of one clock, `none` the zero time, and scores exact rationals. What is in flight,
which calls were started and which ended is history, that the code does not read. The reasons in the
attempts are left out.
-/

namespace Sub2api.Translate

open Interleave
open Interleave.Prog (ask)

/-! ### Health -/

structure ProviderHealth where
  attempts : ℕ := 0
  successes : ℕ := 0
  consecutiveFailures : ℕ := 0
  latencyMS : ℚ := 0
  cooldownUntil : Option ℤ := none
  retryAt : Option ℤ := none
  probing : Bool := false

/-- `now.Before(instant)`. -/
def before (now : ℤ) (instant : Option ℤ) : Bool := instant.any (now < ·)

/-- Offline providers take no part in the cooling. -/
def offlineProvider (name : String) : Bool := name = "libretranslate" || name = "hymt"

def providerTier (name : String) : ℕ :=
  match name with
  | "tencent" => 1
  | "youdao" => 1
  | "baidu" => 2
  | _ => 0

def healthScore : Option ProviderHealth → ℚ
  | none => 100
  | some h =>
      let reliability : ℚ := ((h.successes : ℚ) + 4) / ((h.attempts : ℚ) + 4)
      max 0 (100 * reliability - (h.consecutiveFailures : ℚ) * 15 - min 20 (h.latencyMS / 500))

/-- A call to a provider that has not been recorded yet. A probe is a call that `cooling` let through
and set `probing` for. -/
structure Flight where
  call : ℕ
  provider : String
  probe : Bool

/-- An automatic call at its start: the clock, the provider's cooldown, and whether a probe of the
provider was in flight. -/
structure Start where
  provider : String
  now : ℤ
  cooldownUntil : Option ℤ
  probed : Bool

/-- The end of a call, and whether another call's probe of its provider was in flight. -/
structure Ending where
  provider : String
  probed : Bool

structure State where
  health : String → Option ProviderHealth
  flights : List Flight
  starts : List Start
  endings : List Ending

def State.initial : State := ⟨fun _ => none, [], [], []⟩

/-- Whether a probe of a provider is in flight. -/
def State.probed (s : State) (name : String) : Bool :=
  s.flights.any fun f => f.provider = name && f.probe

def State.probing (s : State) (name : String) : Bool := (s.health name).any (·.probing)

def State.setHealth (s : State) (name : String) (h : Option ProviderHealth) : State :=
  { s with health := Function.update s.health name h }

/-! ### Admission -/

/-- `cooling`: whether the provider is left alone, and its health after the question. -/
def cooling (name : String) (now : ℤ) (h : Option ProviderHealth) : Bool × Option ProviderHealth :=
  if offlineProvider name then (false, h)
  else
    match h with
    | none => (false, none)
    | some h =>
        if before now h.cooldownUntil || h.probing then (true, some h)
        else if h.consecutiveFailures > 0 && !before now h.retryAt then
          (false, some { h with probing := true })
        else (false, some h)

/-- An automatic call asks, and starts when it may. -/
def State.tryStart (s : State) (call : ℕ) (name : String) (now : ℤ) : Bool × State :=
  let answer := cooling name now (s.health name)
  if answer.1 then (false, s.setHealth name answer.2)
  else
    let asked := s.setHealth name answer.2
    (true, { asked with
      flights := ⟨call, name, asked.probing name && !s.probing name⟩ :: s.flights
      starts := ⟨name, now, (s.health name).bind (·.cooldownUntil), s.probed name⟩ :: s.starts })

/-- A call for a named provider starts. -/
def State.choose (s : State) (call : ℕ) (name : String) : State :=
  { s with flights := ⟨call, name, false⟩ :: s.flights }

/-! ### Ends of calls -/

/-- 30 seconds. -/
def recoveryDelay : ℤ := 30 * 10 ^ 9

/-- What a recorded call makes of the health. -/
def recorded (name : String) (elapsedMS : ℚ) (success : Bool) (now : ℤ) (known : Option ProviderHealth) :
    ProviderHealth :=
  let h := known.getD {}
  let h := { h with
    probing := false
    attempts := h.attempts + 1
    latencyMS := if h.attempts = 0 then elapsedMS else 8 / 10 * h.latencyMS + 2 / 10 * elapsedMS }
  if success then
    { h with successes := h.successes + 1, consecutiveFailures := 0, cooldownUntil := none }
  else
    let h := { h with consecutiveFailures := h.consecutiveFailures + 1 }
    if offlineProvider name then h
    else
      let h := { h with retryAt := some (now + recoveryDelay) }
      if h.consecutiveFailures ≥ 3 then { h with cooldownUntil := some (now + recoveryDelay) } else h

def released (known : Option ProviderHealth) : Option ProviderHealth :=
  known.map fun h => { h with probing := false }

/-- A call is over: the health is what is made of it, and it is no longer in flight. -/
def State.finish (s : State) (call : ℕ) (name : String) (health : Option ProviderHealth) : State :=
  let left := s.flights.filter fun f => ¬(f.call = call ∧ f.provider = name)
  { s with
    health := Function.update s.health name health
    flights := left
    endings := ⟨name, left.any fun f => f.provider = name && f.probe⟩ :: s.endings }

def State.record (s : State) (call : ℕ) (name : String) (elapsedMS : ℚ) (success : Bool) (now : ℤ) :
    ℚ × State :=
  let h := recorded name elapsedMS success now (s.health name)
  (healthScore (some h), s.finish call name (some h))

def State.releaseProbe (s : State) (call : ℕ) (name : String) : State :=
  s.finish call name (released (s.health name))

/-! ### Ranking -/

/-- Whether a failed provider may be probed. -/
def recovering (now : ℤ) : Option ProviderHealth → Bool
  | none => false
  | some h => h.consecutiveFailures > 0 && !before now h.retryAt && !h.probing

def failing : Option ProviderHealth → Bool
  | none => false
  | some h => h.consecutiveFailures > 0

def rankLess (s : State) (now : ℤ) (left right : String) : Bool :=
  if providerTier left ≠ providerTier right then providerTier left < providerTier right
  else if failing (s.health left) ≠ failing (s.health right) then !failing (s.health left)
  else if recovering now (s.health left) ≠ recovering now (s.health right) then
    recovering now (s.health left)
  else healthScore (s.health left) > healthScore (s.health right)

def rankedProviders (translators : List String) (now : ℤ) (s : State) : List String :=
  translators.insertionSort fun left right => rankLess s now right left = false

/-! ### Calls -/

structure TranslateRequest where
  text : List String
  targetLang : String
  provider : String

/-- What a provider answers: nothing before its caller gives up, an error, or translations. -/
inductive Answer where
  | cancelled
  | failed
  | translated (translations : List String)

/-- What the environment decides of an action: the clock, whether the caller has given up, the answer
and how long it took. -/
structure Env where
  now : ℤ
  cancelled : Bool
  answer : Answer
  elapsedMS : ℚ

structure TranslationAttempt where
  provider : String
  status : String
  latencyMS : ℚ
  score : ℚ

inductive Result where
  | invalidRequest
  | providerUnavailable
  | cancelled
  | chainError (attempts : List TranslationAttempt)
  | translated (provider : String) (translations : List String) (attempts : List TranslationAttempt)

def validateTranslation (req : TranslateRequest) (translations : List String) : Bool :=
  translations.length = req.text.length &&
    (req.text.zip translations).all fun (text, translation) =>
      Go.trimSpace text = "" || Go.trimSpace translation ≠ ""

/-- The start of a call to a provider; `false` when it is cooling. -/
def startCall (me : ℕ) (req : TranslateRequest) (name : String) : Prog State Env Bool :=
  if req.provider = "" then .atomic fun env s => s.tryStart me name env.now
  else .atomic fun _ s => (true, s.choose me name)

/-- A call is recorded as an attempt. -/
def recordAttempt (me : ℕ) (name : String) (success : Bool) : Prog State Env TranslationAttempt :=
  .atomic fun env s =>
    let scored := s.record me name env.elapsedMS success env.now
    (⟨name, if success then "success" else "failed", env.elapsedMS, scored.1⟩, scored.2)

/-- What is done with an answer: `.inl` when the next provider is tried. -/
def conclude (me : ℕ) (req : TranslateRequest) (name : String) (attempts : List TranslationAttempt) :
    Answer → Prog State Env (List TranslationAttempt ⊕ Result)
  | .cancelled => do
      Prog.atomic fun _ s => ((), s.releaseProbe me name)
      pure (.inr .cancelled)
  | .failed => do
      let attempt ← recordAttempt me name false
      pure (.inl (attempts ++ [attempt]))
  | .translated translations =>
      if validateTranslation req translations then do
        let attempt ← recordAttempt me name true
        pure (.inr (.translated name translations (attempts ++ [attempt])))
      else do
        let attempt ← recordAttempt me name false
        pure (.inl (attempts ++ [attempt]))

/-- One provider's turn. -/
def tryProvider (me : ℕ) (req : TranslateRequest) (name : String)
    (attempts : List TranslationAttempt) :
    Prog State Env (List TranslationAttempt ⊕ Result) := do
  let started ← startCall me req name
  if started then
    let answer ← ask (·.answer)
    conclude me req name attempts answer
  else pure (.inl (attempts ++ [⟨name, "cooldown", 0, 0⟩]))

/-- The loop over the candidates. -/
def tryAll (me : ℕ) (req : TranslateRequest) :
    List String → List TranslationAttempt → Prog State Env Result
  | [], attempts => pure (.chainError attempts)
  | name :: rest, attempts => do
      let cancelled ← ask (·.cancelled)
      if cancelled then pure .cancelled
      else
        let tried ← tryProvider me req name attempts
        match tried with
        | .inl attempts => tryAll me req rest attempts
        | .inr result => pure result

def translate (translators : List String) (me : ℕ) (req : TranslateRequest) :
    Prog State Env Result :=
  if req.text.isEmpty || req.targetLang = "" then pure .invalidRequest
  else do
    let ranked ← Prog.atomic fun env s => (rankedProviders translators env.now s, s)
    if req.provider = "" then tryAll me req ranked []
    else
      match translators.find? (· = req.provider) with
      | none => pure .providerUnavailable
      | some name => tryAll me req [name] []

end Sub2api.Translate
