import Mathlib.Data.List.Induction

/-!
# Transducers and what is seen of their output

A transducer turns each input into outputs while its state moves on. A checker reads the outputs
one by one and is `none` once it has rejected one. `Tracks` relates the two: from related states
the checker follows what the transducer puts out, exactly on the inputs that are `Fine`, and
`Tracks.run` carries that along a run. `Follows` is the rule for one piece of code after another.
-/

namespace Transducer

variable {σ ε ω κ : Type}

/-- The state and all outputs after some inputs. -/
def run (step : σ → ε → σ × List ω) (s : σ) : List ε → σ × List ω
  | [] => (s, [])
  | e :: rest =>
    let first := step s e
    let later := run step first.1 rest
    (later.1, first.2 ++ later.2)

/-- `P` of every input and the state it meets. -/
def Throughout (step : σ → ε → σ × List ω) (P : σ → ε → Prop) (s : σ) : List ε → Prop
  | [] => True
  | e :: rest => P s e ∧ Throughout step P (step s e).1 rest

instance Throughout.decidable (step : σ → ε → σ × List ω) (P : σ → ε → Prop)
    [∀ s e, Decidable (P s e)] (s : σ) : (inputs : List ε) → Decidable (Throughout step P s inputs)
  | [] => isTrue trivial
  | e :: rest =>
    have := Throughout.decidable step P (step s e).1 rest
    inferInstanceAs (Decidable (P s e ∧ Throughout step P (step s e).1 rest))

/-- What a checker makes of outputs, one by one. -/
def observe (check : κ → ω → Option κ) (k : κ) (outputs : List ω) : Option κ :=
  outputs.foldlM check k

variable {step : σ → ε → σ × List ω} {check : κ → ω → Option κ}

@[simp] theorem observe_nil (k : κ) : observe check k [] = some k := rfl

@[simp] theorem observe_cons (k : κ) (o : ω) (rest : List ω) :
    observe check k (o :: rest) = (check k o).bind fun k' => observe check k' rest := by
  simp [observe]

theorem observe_append (k : κ) (first later : List ω) :
    observe check k (first ++ later) =
      (observe check k first).bind fun k' => observe check k' later := by
  simp [observe]

theorem run_append (s : σ) (first later : List ε) :
    run step s (first ++ later) =
      ((run step (run step s first).1 later).1,
        (run step s first).2 ++ (run step (run step s first).1 later).2) := by
  induction first generalizing s with
  | nil => simp [run]
  | cons e rest ih => simp [run, ih]

@[simp] theorem run_nil (s : σ) : run step s [] = (s, []) := rfl

theorem run_cons (s : σ) (e : ε) (rest : List ε) :
    run step s (e :: rest) =
      ((run step (step s e).1 rest).1, (step s e).2 ++ (run step (step s e).1 rest).2) :=
  rfl

/-- `P` throughout a run is `P` at every point of it. -/
theorem throughout_iff {P : σ → ε → Prop} {s : σ} {inputs : List ε} :
    Throughout step P s inputs ↔
      ∀ before e after, inputs = before ++ e :: after → P (run step s before).1 e := by
  induction inputs generalizing s with
  | nil => simp [Throughout]
  | cons e rest ih =>
      constructor
      · rintro ⟨now, later⟩ before e' after split
        cases before with
        | nil =>
            cases split
            exact now
        | cons first before =>
            cases split
            exact ih.mp later before e' after rfl
      · intro everywhere
        refine ⟨everywhere [] e rest rfl, ih.mpr fun before e' after split => ?_⟩
        exact everywhere (e :: before) e' after (by rw [split, List.cons_append])

/-- Where each step keeps a good state good exactly when its input is fine, a run is good at every
point exactly when all its inputs are. -/
theorem throughout_iff_every {Inv Good : σ → Prop} {Fine : σ → ε → Prop}
    (inv : ∀ s e, Inv s → Inv (step s e).1)
    (exact_ : ∀ s e, Inv s → Good s → (Good (step s e).1 ↔ Fine s e)) {s : σ} (now : Inv s)
    (good : Good s) (inputs : List ε) :
    Throughout step Fine s inputs ↔
      ∀ before after, inputs = before ++ after → Good (run step s before).1 := by
  induction inputs generalizing s with
  | nil =>
      refine ⟨fun _ before after split => ?_, fun _ => trivial⟩
      obtain ⟨rfl, rfl⟩ := List.append_eq_nil_iff.mp split.symm
      exact good
  | cons e rest ih =>
      constructor
      · rintro ⟨fine, later⟩ before after split
        cases before with
        | nil => exact good
        | cons first before =>
            cases split
            exact (ih (inv s e now) ((exact_ s e now good).mpr fine)).mp later before after rfl
      · intro every
        have next : Good (step s e).1 := every [e] rest rfl
        refine ⟨(exact_ s e now good).mp next, (ih (inv s e now) next).mpr ?_⟩
        intro before after split
        exact every (e :: before) after (by rw [split, List.cons_append])

/-! ### Following -/

/-- The checker accepts the outputs and ends in a state of `Q`. -/
def Follows (check : κ → ω → Option κ) (Q : κ → Prop) (outputs : List ω) (k : κ) : Prop :=
  ∃ k', observe check k outputs = some k' ∧ Q k'

variable {Q R : κ → Prop} {k : κ}

theorem Follows.nil (now : Q k) : Follows check Q [] k := ⟨k, rfl, now⟩

theorem Follows.one {o : ω} {k' : κ} (accepted : check k o = some k') (now : Q k') :
    Follows check Q [o] k :=
  ⟨k', by simp [accepted], now⟩

theorem Follows.append {first later : List ω} (starts : Follows check Q first k)
    (goesOn : ∀ k', Q k' → Follows check R later k') : Follows check R (first ++ later) k := by
  obtain ⟨k', observed, reached⟩ := starts
  obtain ⟨k'', observed', reached'⟩ := goesOn k' reached
  exact ⟨k'', by rw [observe_append, observed, Option.bind_some, observed'], reached'⟩

theorem Follows.mono {outputs : List ω} (follows : Follows check Q outputs k)
    (weaker : ∀ k', Q k' → R k') : Follows check R outputs k := by
  obtain ⟨k', observed, reached⟩ := follows
  exact ⟨k', observed, weaker k' reached⟩

/-- One piece of code after another: the second starts in the state that the first leaves. -/
def andThen (first : σ × List ω) (next : σ → σ × List ω) : σ × List ω :=
  ((next first.1).1, first.2 ++ (next first.1).2)

theorem andThen_silent (s : σ) (next : σ → σ × List ω) : andThen (s, []) next = next s := by
  simp [andThen]

theorem andThen_assoc (first : σ × List ω) (next later : σ → σ × List ω) :
    andThen (andThen first next) later = andThen first fun s => andThen (next s) later := by
  simp [andThen]

/-- What each step preserves holds after a run. -/
theorem run_preserves {P : σ → Prop} (preserves : ∀ s e, P s → P (step s e).1) {s : σ}
    (now : P s) (inputs : List ε) : P (run step s inputs).1 := by
  induction inputs generalizing s with
  | nil => exact now
  | cons e rest ih => exact ih (preserves s e now)

/-- What comes out is followed, and the states after it are related. -/
def Keeps (check : κ → ω → Option κ) (Rel : σ → κ → Prop) (out : σ × List ω) (k : κ) : Prop :=
  Follows check (Rel out.1) out.2 k

theorem Keeps.silent {Rel : σ → κ → Prop} {s : σ} (now : Rel s k) : Keeps check Rel (s, []) k :=
  .nil now

theorem Keeps.andThen {Rel Rel' : σ → κ → Prop} {first : σ × List ω} {next : σ → σ × List ω}
    (starts : Keeps check Rel first k)
    (goesOn : ∀ k', Rel first.1 k' → Keeps check Rel' (next first.1) k') :
    Keeps check Rel' (Transducer.andThen first next) k :=
  Follows.append starts goesOn

/-- The first step of a run and the rest of it. -/
theorem Keeps.run {Rel Rel' : σ → κ → Prop} {s : σ} {e : ε} {rest : List ε}
    (starts : Keeps check Rel (step s e) k)
    (goesOn : ∀ k', Rel (step s e).1 k' →
      Keeps check Rel' (Transducer.run step (step s e).1 rest) k') :
    Keeps check Rel' (Transducer.run step s (e :: rest)) k :=
  Follows.append starts goesOn

theorem Keeps.mono {Rel Rel' : σ → κ → Prop} {out : σ × List ω} (keeps : Keeps check Rel out k)
    (weaker : ∀ k', Rel out.1 k' → Rel' out.1 k') : Keeps check Rel' out k :=
  Follows.mono keeps weaker

/-- What is related may depend on the inputs that came before. -/
theorem Keeps.runSeen {Rel : List ε → σ → κ → Prop} {Fine : σ → ε → Prop}
    (keeps : ∀ seen s k e, Rel seen s k → Fine s e →
      Keeps check (Rel (seen ++ [e])) (step s e) k)
    {seen : List ε} {s : σ} (related : Rel seen s k) {inputs : List ε}
    (fine : Throughout step Fine s inputs) :
    Keeps check (Rel (seen ++ inputs)) (Transducer.run step s inputs) k := by
  induction inputs generalizing seen s k with
  | nil =>
      refine .silent ?_
      rw [List.append_nil]
      exact related
  | cons e rest ih =>
      refine (keeps seen s k e related fine.1).run fun k' related' => ?_
      rw [List.append_cons]
      exact ih related' fine.2

/-- On legal inputs the checker follows the transducer exactly when they are `Fine`. -/
structure Tracks (step : σ → ε → σ × List ω) (check : κ → ω → Option κ) (Rel : σ → κ → Prop)
    (Legal Fine : σ → ε → Prop) : Prop where
  follows : ∀ s k e, Rel s k → Legal s e → Fine s e →
    Follows check (Rel (step s e).1) (step s e).2 k
  breaks : ∀ s k e, Rel s k → Legal s e → ¬Fine s e → observe check k (step s e).2 = none

/-- Over a run of legal inputs the checker accepts all outputs exactly when every input was
fine. -/
theorem Tracks.run {Rel : σ → κ → Prop} {Legal Fine : σ → ε → Prop}
    (tracks : Tracks step check Rel Legal Fine) {s : σ} {k : κ} (related : Rel s k)
    {inputs : List ε} (legal : Throughout step Legal s inputs) :
    (Throughout step Fine s inputs ∧
        Follows check (Rel (run step s inputs).1) (run step s inputs).2 k) ∨
      (¬Throughout step Fine s inputs ∧ observe check k (run step s inputs).2 = none) := by
  induction inputs generalizing s k with
  | nil => exact Or.inl ⟨trivial, .nil related⟩
  | cons e rest ih =>
      by_cases fine : Fine s e
      · obtain ⟨k', observed, related'⟩ := tracks.follows s k e related legal.1 fine
        rcases ih related' legal.2 with ⟨throughout, follows⟩ | ⟨fails, rejected⟩
        · refine Or.inl ⟨⟨fine, throughout⟩, ?_⟩
          obtain ⟨k'', observed', related''⟩ := follows
          refine ⟨k'', ?_, related''⟩
          rw [run_cons, observe_append, observed, Option.bind_some, observed']
        · refine Or.inr ⟨fun throughout => fails throughout.2, ?_⟩
          rw [run_cons, observe_append, observed, Option.bind_some, rejected]
      · refine Or.inr ⟨fun throughout => fine throughout.1, ?_⟩
        rw [run_cons, observe_append, tracks.breaks s k e related legal.1 fine, Option.bind_none]

end Transducer
