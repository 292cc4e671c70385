import Sub2api.Translate.Aggregator

/-!
# Recovery probes

A provider that failed is to be probed by one automatic call at a time. The flag that says so has no
owner: whoever ends a call clears it, also a call that was under way before the failure and a call for
a named provider. `proper_run_iff` says that this is the only thing that goes wrong: a run is proper in
every state exactly when no call ends while another call's probe of its provider is in flight.
-/

namespace Sub2api.Translate

open Interleave

/-! ### What is to hold -/

/-- Without offline providers: `probing` is set exactly while a probe is in flight, automatic calls
start while none is, and not before the end of a cooldown. -/
structure Proper (s : State) : Prop where
  exact_ : ∀ name, offlineProvider name = false → s.probing name = s.probed name
  alone : ∀ start ∈ s.starts, offlineProvider start.provider = false → start.probed = false
  onTime : ∀ start ∈ s.starts, offlineProvider start.provider = false →
    before start.now start.cooldownUntil = false

/-- The call ended while no other call's probe of its provider was in flight. -/
def Ending.Fair (ending : Ending) : Prop :=
  offlineProvider ending.provider = false → ending.probed = false

/-! ### Steps -/

/-- What an action does to the state. -/
inductive Step : State → State → Prop where
  | same (s : State) : Step s s
  | tryStart (s : State) (call : ℕ) (name : String) (now : ℤ) : Step s (s.tryStart call name now).2
  | choose (s : State) (call : ℕ) (name : String) : Step s (s.choose call name)
  | finish (s : State) (call : ℕ) (name : String) (health : Option ProviderHealth)
      (cleared : health.any (·.probing) = false) : Step s (s.finish call name health)

theorem recorded_probing (name : String) (elapsedMS : ℚ) (success : Bool) (now : ℤ)
    (known : Option ProviderHealth) :
    (recorded name elapsedMS success now known).probing = false := by
  unfold recorded
  dsimp only
  split
  · rfl
  · split
    · rfl
    · split <;> rfl

theorem released_probing (known : Option ProviderHealth) :
    (released known).any (·.probing) = false := by
  cases known <;> rfl

theorem recordAttempt_only (me : ℕ) (name : String) (success : Bool) :
    (recordAttempt me name success).Only Step :=
  .atomic fun env s => .finish s me name _
    (recorded_probing name env.elapsedMS success env.now (s.health name))

theorem startCall_only (me : ℕ) (req : TranslateRequest) (name : String) :
    (startCall me req name).Only Step := by
  unfold startCall
  split
  · exact .atomic fun env s => .tryStart s me name env.now
  · exact .atomic fun _ s => .choose s me name

theorem conclude_only (me : ℕ) (req : TranslateRequest) (name : String)
    (attempts : List TranslationAttempt) (answer : Answer) :
    (conclude me req name attempts answer).Only Step := by
  unfold conclude
  cases answer with
  | cancelled =>
      exact (Prog.Only.atomic fun _ s => .finish s me name _ (released_probing _)).bind
        fun _ => .ret
  | failed => exact (recordAttempt_only me name false).bind fun _ => .ret
  | translated translations =>
      dsimp only
      split
      · exact (recordAttempt_only me name true).bind fun _ => .ret
      · exact (recordAttempt_only me name false).bind fun _ => .ret

theorem tryProvider_only (me : ℕ) (req : TranslateRequest) (name : String)
    (attempts : List TranslationAttempt) : (tryProvider me req name attempts).Only Step := by
  apply (startCall_only me req name).bind
  intro started
  cases started with
  | true => exact (Prog.Only.ask Step.same).bind fun answer => conclude_only me req name attempts answer
  | false => exact .ret

theorem tryAll_only (me : ℕ) (req : TranslateRequest) (names : List String) :
    ∀ attempts, (tryAll me req names attempts).Only Step := by
  induction names with
  | nil =>
      intro attempts
      exact .ret
  | cons name rest ih =>
      intro attempts
      apply (Prog.Only.ask Step.same).bind
      intro cancelled
      cases cancelled with
      | true => exact .ret
      | false =>
          apply (tryProvider_only me req name attempts).bind
          intro tried
          cases tried with
          | inl attempts => exact ih attempts
          | inr result => exact .ret

theorem translate_only (translators : List String) (me : ℕ) (req : TranslateRequest) :
    (translate translators me req).Only Step := by
  unfold translate
  split
  · exact .ret
  · apply (Prog.Only.atomic fun _ s => Step.same s).bind
    intro ranked
    split
    · exact tryAll_only me req ranked []
    · split
      · exact .ret
      · exact tryAll_only me req _ []

/-! ### One step -/

/-- What `cooling` answers about a provider that is not offline. -/
theorem cooling_cases {name : String} (online : offlineProvider name = false) (now : ℤ)
    (h : Option ProviderHealth) :
    cooling name now h = (true, h) ∨
      ((cooling name now h).1 = false ∧ before now (h.bind (·.cooldownUntil)) = false ∧
        h.any (·.probing) = false) := by
  unfold cooling
  rw [if_neg (by rw [online]; exact Bool.false_ne_true)]
  cases h with
  | none => exact Or.inr ⟨rfl, rfl, rfl⟩
  | some h =>
      dsimp only
      split
      · exact Or.inl rfl
      · rename_i free
        rw [Bool.or_eq_true, not_or, Bool.not_eq_true, Bool.not_eq_true] at free
        refine Or.inr ⟨?_, free.1, free.2⟩
        split <;> rfl

section Fields

variable (s : State) (call : ℕ) (name : String) (now : ℤ) (health : Option ProviderHealth)

theorem probing_setHealth (other : String) : (s.setHealth name health).probing other =
    if other = name then health.any (·.probing) else s.probing other := by
  unfold State.probing State.setHealth
  dsimp only
  rw [Function.update_apply]
  split <;> rfl

theorem setHealth_self : s.setHealth name (s.health name) = s := by
  unfold State.setHealth
  rw [Function.update_eq_self]

theorem admit_refused (cools : (cooling name now (s.health name)).1 = true) :
    (s.tryStart call name now).2 = s.setHealth name (cooling name now (s.health name)).2 := by
  unfold State.tryStart
  dsimp only
  rw [if_pos cools]

theorem admit_started (free : (cooling name now (s.health name)).1 = false) :
    (s.tryStart call name now).2 =
      { s.setHealth name (cooling name now (s.health name)).2 with
        flights := ⟨call, name,
          (s.setHealth name (cooling name now (s.health name)).2).probing name &&
            !s.probing name⟩ :: s.flights
        starts := ⟨name, now, (s.health name).bind (·.cooldownUntil), s.probed name⟩ :: s.starts } := by
  unfold State.tryStart
  dsimp only
  rw [if_neg (by rw [free]; exact Bool.false_ne_true)]

theorem probed_cons (f : Flight) (flights : List Flight) (other : String) :
    (f :: flights).any (fun f => f.provider = other && f.probe) =
      (f.provider = other && f.probe || flights.any fun f => f.provider = other && f.probe) := rfl

/-- The calls to other providers are left in flight. -/
theorem probed_finish {other : String} (differ : other ≠ name) :
    (s.finish call name health).probed other = s.probed other := by
  unfold State.probed State.finish
  dsimp only
  rw [List.any_filter]
  congr 1
  funext f
  by_cases here : f.provider = other
  · have kept : ¬(f.call = call ∧ f.provider = name) := fun ⟨_, same⟩ => differ (here.symm.trans same)
    rw [decide_eq_true kept, Bool.true_and]
  · rw [decide_eq_false here, Bool.false_and, Bool.and_false]

theorem probing_finish (other : String) : (s.finish call name health).probing other =
    if other = name then health.any (·.probing) else s.probing other :=
  probing_setHealth s name health other

end Fields

/-- An automatic call keeps what holds. -/
theorem Proper.tryStart {s : State} (proper : Proper s) (call : ℕ) (name : String) (now : ℤ) :
    Proper (s.tryStart call name now).2 := by
  cases answer : (cooling name now (s.health name)).1 with
  | true =>
      cases online : offlineProvider name with
      | true =>
          unfold cooling at answer
          rw [if_pos online] at answer
          cases answer
      | false =>
          rcases cooling_cases online now (s.health name) with cools | ⟨free, _⟩
          · rw [admit_refused s call name now answer, cools, setHealth_self]
            exact proper
          · rw [free] at answer
            cases answer
  | false =>
      rw [admit_started s call name now answer]
      constructor
      · intro other online
        unfold State.probed
        dsimp only
        rw [probed_cons]
        dsimp only
        by_cases here : name = other
        · subst here
          rcases cooling_cases online now (s.health name) with cools | ⟨_, _, idle⟩
          · rw [cools] at answer
            cases answer
          · have was : s.probing name = false := idle
            have none_ : s.probed name = false := (proper.exact_ name online).symm.trans was
            unfold State.probed at none_
            rw [was, none_, Bool.not_false, Bool.and_true, Bool.or_false, decide_eq_true rfl,
              Bool.true_and]
            rfl
        · rw [decide_eq_false here, Bool.false_and, Bool.false_or]
          have same := probing_setHealth s name (cooling name now (s.health name)).2 other
          rw [if_neg (Ne.symm here)] at same
          exact same.trans (proper.exact_ other online)
      · intro start mem online
        rcases List.mem_cons.mp mem with rfl | mem
        · rcases cooling_cases online now (s.health name) with cools | ⟨_, _, idle⟩
          · rw [cools] at answer
            cases answer
          · exact (proper.exact_ name online).symm.trans idle
        · exact proper.alone start mem online
      · intro start mem online
        rcases List.mem_cons.mp mem with rfl | mem
        · rcases cooling_cases online now (s.health name) with cools | ⟨_, late, _⟩
          · rw [cools] at answer
            cases answer
          · exact late
        · exact proper.onTime start mem online

/-- A step keeps what holds, if a call that ends in it is fair. -/
theorem Proper.step {s s' : State} (proper : Proper s) (step : Step s s')
    (fair : ∀ ending ∈ s'.endings, ending.Fair) : Proper s' := by
  cases step with
  | same => exact proper
  | tryStart call name now => exact proper.tryStart call name now
  | choose call name =>
      refine ⟨fun other online => ?_, proper.alone, proper.onTime⟩
      change s.probing other = (⟨call, name, false⟩ :: s.flights).any _
      rw [probed_cons, Bool.and_false, Bool.false_or]
      exact proper.exact_ other online
  | finish call name health cleared =>
      refine ⟨fun other online => ?_, proper.alone, proper.onTime⟩
      rw [probing_finish]
      split
      · rename_i here
        rw [cleared]
        have ended := fair _ List.mem_cons_self
        rw [here] at online ⊢
        exact (ended online).symm
      · rename_i differ
        rw [probed_finish s call name health differ]
        exact proper.exact_ other online

theorem endings_subset {s s' : State} (step : Step s s') : s.endings ⊆ s'.endings := by
  cases step with
  | same => exact List.Subset.refl _
  | choose => exact List.Subset.refl _
  | tryStart call name now =>
      cases answer : (cooling name now (s.health name)).1 with
      | true =>
          rw [admit_refused s call name now answer]
          exact List.Subset.refl _
      | false =>
          rw [admit_started s call name now answer]
          exact List.Subset.refl _
  | finish => exact List.subset_cons_self _ _

/-- A state that is proper after a step shows that a call that ended in it was fair. -/
theorem fair_of_proper {s s' : State} (step : Step s s') (proper : Proper s')
    (fair : ∀ ending ∈ s.endings, ending.Fair) : ∀ ending ∈ s'.endings, ending.Fair := by
  cases step with
  | same => exact fair
  | choose => exact fair
  | tryStart call name now =>
      cases answer : (cooling name now (s.health name)).1 with
      | true =>
          rw [admit_refused s call name now answer]
          exact fair
      | false =>
          rw [admit_started s call name now answer]
          exact fair
  | finish call name health cleared =>
      intro ending mem
      rcases List.mem_cons.mp mem with rfl | mem
      · intro online
        have idle := proper.exact_ name online
        rw [probing_finish, if_pos rfl, cleared] at idle
        exact idle.symm
      · exact fair ending mem

/-! ### Runs -/

/-- The callers of an aggregator, each with its request, before the first action. -/
def callers (translators : List String) (requests : ℕ → TranslateRequest) :
    Pool ℕ (Prog State Env Result) State :=
  { shared := .initial, threads := fun me => translate translators me (requests me) }

/-- The state after a schedule. -/
def stateAfter (translators : List String) (requests : ℕ → TranslateRequest)
    (schedule : List (ℕ × Env)) : State :=
  ((callers translators requests).run Prog.step schedule).shared

theorem initial_proper : Proper .initial := ⟨fun _ _ => rfl, nofun, nofun⟩

section Runs

variable (translators : List String) (requests : ℕ → TranslateRequest)

theorem stateAfter_step (schedule : List (ℕ × Env)) (turn : ℕ × Env) :
    Step (stateAfter translators requests schedule)
      (stateAfter translators requests (schedule ++ [turn])) := by
  have only : ∀ me, ((callers translators requests).threads me).Only Step := fun me =>
    translate_only translators me (requests me)
  rcases Prog.Only.turn only schedule turn.1 turn.2 with same | moved
  · unfold stateAfter
    rw [same]
    exact .same _
  · exact moved

/-- A run in which every call ends fairly is proper after it. -/
theorem proper_of_fair (schedule : List (ℕ × Env)) :
    (∀ ending ∈ (stateAfter translators requests schedule).endings, ending.Fair) →
      ∀ before, before <+: schedule → Proper (stateAfter translators requests before) := by
  induction schedule using List.reverseRecOn with
  | nil =>
      intro _ before part
      rw [List.prefix_nil.mp part]
      exact initial_proper
  | append_singleton schedule turn ih =>
      intro fair before part
      have step := stateAfter_step translators requests schedule turn
      have earlier := ih fun ending mem => fair ending (endings_subset step mem)
      rcases List.prefix_concat_iff.mp part with rfl | part
      · exact (earlier schedule (List.prefix_refl _)).step step fair
      · exact earlier before part

/-- In a run that is proper throughout every call has ended fairly. -/
theorem fair_of_run (schedule : List (ℕ × Env)) :
    (∀ before, before <+: schedule → Proper (stateAfter translators requests before)) →
      ∀ ending ∈ (stateAfter translators requests schedule).endings, ending.Fair := by
  induction schedule using List.reverseRecOn with
  | nil =>
      intro _ ending mem
      cases mem
  | append_singleton schedule turn ih =>
      intro proper
      apply fair_of_proper (stateAfter_step translators requests schedule turn)
      · exact proper _ (List.prefix_refl _)
      · exact ih fun before part => proper before (part.trans (List.prefix_append _ _))

/-- **When a recovering provider is probed by one call at a time.** -/
theorem proper_run_iff (schedule : List (ℕ × Env)) :
    (∀ before, before <+: schedule → Proper (stateAfter translators requests before)) ↔
      ∀ ending ∈ (stateAfter translators requests schedule).endings, ending.Fair :=
  ⟨fair_of_run translators requests schedule, proper_of_fair translators requests schedule⟩

end Runs

namespace Sample

/-- Caller 0 names the provider, and the others leave the choice. -/
def requests (me : ℕ) : TranslateRequest where
  text := ["a"]
  targetLang := "en"
  provider := if me = 0 then "caiyun" else ""

/-- A moment at which a provider that answers fails. -/
def at_ (now : ℤ) : Env where
  now := now
  cancelled := false
  answer := .failed
  elapsedMS := 1

/-- Caller 1 fails; just before the recovery delay is over caller 0 starts; caller 2 probes; caller 0
fails; caller 3 starts. -/
def schedule : List (ℕ × Env) :=
  List.replicate 5 (1, at_ 0) ++ List.replicate 3 (0, at_ (recoveryDelay - 1)) ++
    List.replicate 3 (2, at_ recoveryDelay) ++ List.replicate 2 (0, at_ recoveryDelay) ++
    List.replicate 3 (3, at_ recoveryDelay)

end Sample

/-- A call for the named provider ends while the provider is probed, and another automatic call starts
beside the probe. -/
theorem slow_call_clears_probe :
    ¬∀ before, before <+: Sample.schedule →
      Proper (stateAfter ["caiyun"] Sample.requests before) := by
  intro proper
  have starts : (stateAfter ["caiyun"] Sample.requests Sample.schedule).starts.any
      (fun start => start.provider = "caiyun" && start.probed) = true := by
    decide +kernel
  obtain ⟨start, mem, found⟩ := List.any_eq_true.mp starts
  rw [Bool.and_eq_true, decide_eq_true_eq] at found
  have alone := (proper _ (List.prefix_refl _)).alone start mem (by rw [found.1]; decide)
  rw [found.2] at alone
  cases alone

end Sub2api.Translate
