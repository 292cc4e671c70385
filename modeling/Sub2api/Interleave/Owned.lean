import Mathlib.Order.Basic
import Sub2api.Interleave.Program

/-!
# Programs that keep an invariant of a growing state

Where the shared state only ever grows along a preorder, an assertion that growth cannot falsify
is a `Fact`, and what a program has learned as a fact is never taken from it by the others.
`Sound Inv K prog M` is the triple in which every party keeps the invariant `Inv` and lets the
state grow, the program may use the fact `K`, and its answer comes with a fact `M`.

The rules are `Sound.ret`, `Sound.bind`, `Sound.andThen`, `Sound.mono`, `Sound.act`, `Sound.wait`
and `Sound.ask`; `Sound.run` is their soundness for pools.
-/

namespace Interleave

/-- An assertion that growth cannot falsify. -/
structure Fact (S : Type) [Preorder S] where
  holds : S → Prop
  lasts : ∀ s s', s ≤ s' → holds s → holds s'

section Facts

variable {S : Type} [Preorder S]

namespace Fact

def none : Fact S := ⟨fun _ => True, fun _ _ _ _ => trivial⟩

/-- A fact that does not depend on the state. -/
def pure (p : Prop) : Fact S := ⟨fun _ => p, fun _ _ _ given => given⟩

def and (K L : Fact S) : Fact S :=
  ⟨fun s => K.holds s ∧ L.holds s,
    fun s s' grows both => ⟨K.lasts s s' grows both.1, L.lasts s s' grows both.2⟩⟩

def when (p : Prop) (K : Fact S) : Fact S :=
  ⟨fun s => p → K.holds s, fun s s' grows holds given => K.lasts s s' grows (holds given)⟩

def all {α : Type} (K : α → Fact S) : Fact S :=
  ⟨fun s => ∀ a, (K a).holds s, fun s s' grows holds a => (K a).lasts s s' grows (holds a)⟩

/-- A fact about a successful answer. -/
def onOk {ε α : Type} (M : α → Fact S) : Except ε α → Fact S
  | .ok a => M a
  | .error _ => none

end Fact

/-- What every step does: keep the invariant and let the state grow. -/
def Steps (Inv : S → Prop) (s s' : S) : Prop := Inv s → Inv s' ∧ s ≤ s'

variable {Inv : S → Prop}

theorem Steps.refl (s : S) : Steps Inv s s := fun inv => ⟨inv, le_rfl⟩

theorem Steps.trans {s s' s'' : S} (first : Steps Inv s s') (second : Steps Inv s' s'') :
    Steps Inv s s'' := by
  intro inv
  obtain ⟨inv', grows⟩ := first inv
  obtain ⟨inv'', grows'⟩ := second inv'
  exact ⟨inv'', grows.trans grows'⟩

theorem Fact.stable (K : Fact S) : Stable (Steps Inv) fun s => Inv s ∧ K.holds s := by
  rintro s s' ⟨inv, holds⟩ steps
  obtain ⟨inv', grows⟩ := steps inv
  exact ⟨inv', K.lasts s s' grows holds⟩

variable {E α β : Type}

/-- Under the invariant and `K`, every step of the program keeps the invariant and lets the state
grow, and an answer comes with what `M` says of it. -/
structure Sound (Inv : S → Prop) (K : Fact S) (prog : Prog S E α) (M : α → Fact S) : Prop where
  triple : Triple (Steps Inv) (Steps Inv) (fun s => Inv s ∧ K.holds s) prog
    (fun a s => Inv s ∧ (M a).holds s)

namespace Sound

variable {K K' : Fact S} {M M' : α → Fact S} {N : β → Fact S}

theorem ret {a : α} (post : ∀ s, K.holds s → (M a).holds s) :
    Sound Inv K (pure a : Prog S E α) M :=
  ⟨Triple.ret K.stable fun s pre => ⟨pre.1, post s pre.2⟩⟩

theorem bind {prog : Prog S E α} {k : α → Prog S E β} (first : Sound Inv K prog M)
    (second : ∀ a, Sound Inv (K.and (M a)) (k a) N) : Sound Inv K (prog >>= k) N := by
  refine ⟨Triple.bind Steps.refl
    ((first.triple.frame K.stable K.stable).mono (fun s pre => ⟨pre, pre⟩) ?_)
    fun a => (second a).triple⟩
  rintro a s ⟨⟨inv, new⟩, _, old⟩
  exact ⟨inv, old, new⟩

theorem mono {prog : Prog S E α} (sound : Sound Inv K prog M)
    (stronger : ∀ s, K'.holds s → K.holds s)
    (weaker : ∀ a s, (M a).holds s → (M' a).holds s) : Sound Inv K' prog M' :=
  ⟨sound.triple.mono (fun s pre => ⟨pre.1, stronger s pre.2⟩)
    fun a s post => ⟨post.1, weaker a s post.2⟩⟩

/-- Sequencing where the first program's answer tells nothing. -/
theorem andThen {prog : Prog S E α} {k : α → Prog S E β}
    (first : Sound Inv K prog fun _ => Fact.none) (second : ∀ a, Sound Inv K (k a) N) :
    Sound Inv K (prog >>= k) N :=
  first.bind fun a => (second a).mono (fun _ pre => pre.1) fun _ _ post => post

/-- The rule of one action that may wait for the state to let it happen. -/
theorem wait {f : E → S → Option (α × S)}
    (acts : ∀ e s a s', Inv s → K.holds s → f e s = some (a, s') →
      Inv s' ∧ s ≤ s' ∧ (M a).holds s') : Sound Inv K (.waiting f) M := by
  refine ⟨Triple.act K.stable ?_ fun a => Triple.ret (M a).stable fun _ pre => pre⟩
  rintro e s a s' ⟨inv, holds⟩ acted
  obtain ⟨inv', grows, post⟩ := acts e s a s' inv holds acted
  exact ⟨fun _ => ⟨inv', grows⟩, inv', post⟩

/-- The rule of one action. -/
theorem act {f : E → S → α × S}
    (acts : ∀ e s, Inv s → K.holds s → Inv (f e s).2 ∧ s ≤ (f e s).2 ∧
      (M (f e s).1).holds (f e s).2) : Sound Inv K (.atomic f) M := by
  refine wait fun e s a s' inv holds acted => ?_
  have made := acts e s inv holds
  rwa [Option.some.inj acted] at made

theorem ask {answer : E → α} : Sound Inv K (Prog.ask answer) fun _ => Fact.none :=
  act fun _ _ inv _ => ⟨inv, le_rfl, trivial⟩

end Sound

/-- **Soundness for pools.** When every program is sound from the initial state, the invariant
holds after every schedule, and from then on the state only grows. -/
theorem Sound.run_append {ι : Type} [DecidableEq ι] {M : ι → α → Fact S}
    {c : Pool ι (Prog S E α) S} (inv : Inv c.shared)
    (sound : ∀ i, Sound Inv Fact.none (c.threads i) (M i)) (first later : List (ι × E)) :
    Inv (c.run Prog.step (first ++ later)).shared ∧
      (c.run Prog.step first).shared ≤ (c.run Prog.step (first ++ later)).shared := by
  obtain ⟨mid, safe⟩ := @programs_run ι S E α _ _ _ _ Inv (fun _ => Steps.refl)
    (fun _ _ _ _ => Steps.trans) (fun _ _ _ _ _ steps => steps)
    (fun _ _ _ steps inv => (steps inv).1) _ inv
    (fun i => (sound i).triple c.shared ⟨inv, trivial⟩) first
  have kept : ∀ (_ : ι) s s', Steps Inv s s' →
      (Inv s ∧ (c.run Prog.step first).shared ≤ s) →
      Inv s' ∧ (c.run Prog.step first).shared ≤ s' := by
    rintro _ s s' steps ⟨inv, grown⟩
    obtain ⟨inv', grows⟩ := steps inv
    exact ⟨inv', grown.trans grows⟩
  rw [Pool.run_append]
  exact (@programs_run ι S E α _ _ _ _ (fun s => Inv s ∧ (c.run Prog.step first).shared ≤ s)
    (fun _ => Steps.refl) (fun _ _ _ _ => Steps.trans) (fun _ _ _ _ _ steps => steps) kept _
    ⟨mid, le_rfl⟩ safe later).1

/-- The same, for the growth since the start. -/
theorem Sound.run {ι : Type} [DecidableEq ι] {M : ι → α → Fact S} {c : Pool ι (Prog S E α) S}
    (inv : Inv c.shared) (sound : ∀ i, Sound Inv Fact.none (c.threads i) (M i))
    (schedule : List (ι × E)) :
    Inv (c.run Prog.step schedule).shared ∧ c.shared ≤ (c.run Prog.step schedule).shared :=
  Sound.run_append inv sound [] schedule

end Facts

end Interleave

/-!
### Programs that own a part of the state

Beside facts, which nobody falsifies, a process may rely on a part of the shared state that the
others leave alone: `own s me` is that part for process `me`. An `Assertion` of `me` is stable
under growth that does not touch its part. `Owns Inv own me K prog M` is the Hoare triple with
such assertions: every step keeps the invariant, lets the state grow and leaves the parts of the
others alone.

The rules are `Owns.ret`, `Owns.bind`, `Owns.mono`, `Owns.given`, `Owns.wait`, `Owns.act` and
`Owns.ask`; `Owns.run` is their soundness for pools.
-/

namespace Interleave

section Owned

variable {S ι O : Type} [Preorder S]

/-- An assertion that growth outside the part of process `me` cannot falsify. -/
structure Assertion (own : S → ι → O) (me : ι) where
  holds : S → Prop
  lasts : ∀ s s', s ≤ s' → own s' me = own s me → holds s → holds s'

/-- An assertion about the process's own part beside a fact. -/
def Assertion.owning {own : S → ι → O} {me : ι} (p : O → Prop) (F : Fact S) :
    Assertion own me :=
  ⟨fun s => p (own s me) ∧ F.holds s,
    fun s s' grows same holds => ⟨same ▸ holds.1, F.lasts s s' grows holds.2⟩⟩

/-- What process `me` relies on. -/
def Others (Inv : S → Prop) (own : S → ι → O) (me : ι) (s s' : S) : Prop :=
  Inv s → Inv s' ∧ s ≤ s' ∧ own s' me = own s me

/-- What process `me` guarantees. -/
def Mine (Inv : S → Prop) (own : S → ι → O) (me : ι) (s s' : S) : Prop :=
  Inv s → Inv s' ∧ s ≤ s' ∧ ∀ other, other ≠ me → own s' other = own s other

variable {Inv : S → Prop} {own : S → ι → O} {me : ι}

theorem Others.refl (s : S) : Others Inv own me s s := fun inv => ⟨inv, le_rfl, rfl⟩

theorem Others.trans {s s' s'' : S} (first : Others Inv own me s s')
    (second : Others Inv own me s' s'') : Others Inv own me s s'' := by
  intro inv
  obtain ⟨inv', grows, same⟩ := first inv
  obtain ⟨inv'', grows', same'⟩ := second inv'
  exact ⟨inv'', grows.trans grows', same'.trans same⟩

theorem Assertion.stable (K : Assertion own me) :
    Stable (Others Inv own me) fun s => Inv s ∧ K.holds s := by
  rintro s s' ⟨inv, holds⟩ others
  obtain ⟨inv', grows, same⟩ := others inv
  exact ⟨inv', K.lasts s s' grows same holds⟩

variable {E α β : Type}

/-- The Hoare triple of process `me`. -/
structure Owns (Inv : S → Prop) (own : S → ι → O) (me : ι) (K : Assertion own me)
    (prog : Prog S E α) (M : α → Assertion own me) : Prop where
  triple : Triple (Others Inv own me) (Mine Inv own me) (fun s => Inv s ∧ K.holds s) prog
    (fun a s => Inv s ∧ (M a).holds s)

namespace Owns

variable {K K' : Assertion own me} {M M' : α → Assertion own me} {N : β → Assertion own me}

theorem ret {a : α} (post : ∀ s, K.holds s → (M a).holds s) :
    Owns Inv own me K (pure a : Prog S E α) M :=
  ⟨Triple.ret K.stable fun s pre => ⟨pre.1, post s pre.2⟩⟩

theorem bind {prog : Prog S E α} {k : α → Prog S E β} (first : Owns Inv own me K prog M)
    (second : ∀ a, Owns Inv own me (M a) (k a) N) : Owns Inv own me K (prog >>= k) N :=
  ⟨Triple.bind Others.refl first.triple fun a => (second a).triple⟩

theorem mono {prog : Prog S E α} (owns : Owns Inv own me K prog M)
    (stronger : ∀ s, K'.holds s → K.holds s)
    (weaker : ∀ a s, (M a).holds s → (M' a).holds s) : Owns Inv own me K' prog M' :=
  ⟨owns.triple.mono (fun s pre => ⟨pre.1, stronger s pre.2⟩)
    fun a s post => ⟨post.1, weaker a s post.2⟩⟩

/-- What the assertion tells beside the state may be assumed. -/
theorem given {prog : Prog S E α} {p : Prop} (tells : ∀ s, K.holds s → p)
    (owns : p → Owns Inv own me K prog M) : Owns Inv own me K prog M :=
  ⟨fun s pre => (owns (tells s pre.2)).triple s pre⟩

/-- The rule of one action that may wait for the state to let it happen. -/
theorem wait {f : E → S → Option (α × S)}
    (acts : ∀ e s a s', Inv s → K.holds s → f e s = some (a, s') →
      Inv s' ∧ s ≤ s' ∧ (∀ other, other ≠ me → own s' other = own s other) ∧ (M a).holds s') :
    Owns Inv own me K (.waiting f) M := by
  refine ⟨Triple.act K.stable ?_ fun a => Triple.ret (M a).stable fun _ pre => pre⟩
  rintro e s a s' ⟨inv, holds⟩ acted
  obtain ⟨inv', grows, others, post⟩ := acts e s a s' inv holds acted
  exact ⟨fun _ => ⟨inv', grows, others⟩, inv', post⟩

/-- The rule of one action. -/
theorem act {f : E → S → α × S}
    (acts : ∀ e s, Inv s → K.holds s → Inv (f e s).2 ∧ s ≤ (f e s).2 ∧
      (∀ other, other ≠ me → own (f e s).2 other = own s other) ∧ (M (f e s).1).holds (f e s).2) :
    Owns Inv own me K (.atomic f) M := by
  refine wait fun e s a s' inv holds acted => ?_
  have made := acts e s inv holds
  rwa [Option.some.inj acted] at made

theorem ask {answer : E → α} : Owns Inv own me K (Prog.ask answer) fun _ => K :=
  act fun _ _ inv holds => ⟨inv, le_rfl, fun _ _ => rfl, holds⟩

end Owns

/-- **Soundness for pools.** When every program's triple holds from the initial state, the
invariant holds after every schedule, and from then on the state only grows. -/
theorem Owns.run_append [DecidableEq ι] {K : (me : ι) → Assertion own me}
    {M : (me : ι) → α → Assertion own me} {c : Pool ι (Prog S E α) S} (inv : Inv c.shared)
    (initially : ∀ me, (K me).holds c.shared)
    (owns : ∀ me, Owns Inv own me (K me) (c.threads me) (M me)) (first later : List (ι × E)) :
    Inv (c.run Prog.step (first ++ later)).shared ∧
      (c.run Prog.step first).shared ≤ (c.run Prog.step (first ++ later)).shared := by
  have compatible : ∀ i j s s', i ≠ j → Mine Inv own i s s' → Others Inv own j s s' := by
    intro i j s s' differ mine inv
    obtain ⟨inv', grows, others⟩ := mine inv
    exact ⟨inv', grows, others j (Ne.symm differ)⟩
  obtain ⟨mid, safe⟩ := @programs_run ι S E α _ _ _ _ Inv (fun _ => Others.refl)
    (fun _ _ _ _ => Others.trans) compatible (fun _ _ _ mine inv => (mine inv).1) _ inv
    (fun me => (owns me).triple c.shared ⟨inv, initially me⟩) first
  have kept : ∀ (me : ι) s s', Mine Inv own me s s' →
      (Inv s ∧ (c.run Prog.step first).shared ≤ s) →
      Inv s' ∧ (c.run Prog.step first).shared ≤ s' := by
    rintro _ s s' mine ⟨inv, grown⟩
    obtain ⟨inv', grows, _⟩ := mine inv
    exact ⟨inv', grown.trans grows⟩
  rw [Pool.run_append]
  exact (@programs_run ι S E α _ _ _ _ (fun s => Inv s ∧ (c.run Prog.step first).shared ≤ s)
    (fun _ => Others.refl) (fun _ _ _ _ => Others.trans) compatible kept _ ⟨mid, le_rfl⟩ safe
    later).1

/-- The same, for the growth since the start. -/
theorem Owns.run [DecidableEq ι] {K : (me : ι) → Assertion own me}
    {M : (me : ι) → α → Assertion own me} {c : Pool ι (Prog S E α) S} (inv : Inv c.shared)
    (initially : ∀ me, (K me).holds c.shared)
    (owns : ∀ me, Owns Inv own me (K me) (c.threads me) (M me)) (schedule : List (ι × E)) :
    Inv (c.run Prog.step schedule).shared ∧ c.shared ≤ (c.run Prog.step schedule).shared :=
  Owns.run_append inv initially owns [] schedule

end Owned

end Interleave
