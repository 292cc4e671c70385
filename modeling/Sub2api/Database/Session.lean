import Mathlib.Data.List.Basic

/-!
# Sessions that can stop at any statement

A session issues statements one by one on a database `σ`. Each statement takes an outcome from the
environment: it is done, it is refused, it stops halfway, or it is done and its answer is lost. All
but the first end the session, and so does running out of outcomes, which is a crash; what the
statements before did stays.

`Triple pre prog post abort` is the triple with a crash condition: started in `pre`, the session
either returns in `post` or stops in `abort`. The rules are `Triple.ret`, `Triple.throw`,
`Triple.bind`, `Triple.exec` and `Triple.mono`.
-/

namespace Database

/-- What becomes of a statement. -/
inductive Outcome where
  | done
  /-- No effect, and an error. -/
  | refused
  /-- An error, after a part of the effect that a failure does not take back. -/
  | halfway
  /-- The whole effect, and an error. -/
  | lost

/-- A session: from the outcomes and the database to an answer or an error, the outcomes left and
the database. -/
def Session (σ ε α : Type) : Type := List Outcome → σ → Except ε α × List Outcome × σ

namespace Session

variable {σ ε α β : Type}

def ret (a : α) : Session σ ε α := fun outcomes s => (.ok a, outcomes, s)

def bind (prog : Session σ ε α) (next : α → Session σ ε β) : Session σ ε β := fun outcomes s =>
  match prog outcomes s with
  | (.ok a, outcomes, s) => next a outcomes s
  | (.error e, outcomes, s) => (.error e, outcomes, s)

instance : Monad (Session σ ε) where
  pure := ret
  bind := bind

theorem bind_assoc {γ : Type} (prog : Session σ ε α) (next : α → Session σ ε β)
    (last : β → Session σ ε γ) :
    (prog >>= next) >>= last = prog >>= fun a => next a >>= last := by
  funext outcomes s
  change Session.bind (Session.bind prog next) last outcomes s =
    Session.bind prog (fun a => Session.bind (next a) last) outcomes s
  unfold Session.bind
  cases prog outcomes s with
  | mk answer left => cases answer <;> rfl

/-- End the session with an error of the program itself. -/
def throw (e : ε) : Session σ ε α := fun outcomes s => (.error e, outcomes, s)

/-- One statement: its effect, `none` where the database refuses it, and what it leaves when it
stops halfway. -/
def exec (e : ε) (effect : σ → Option (α × σ)) (halfway : σ → σ) : Session σ ε α
  | [], s => (.error e, [], s)
  | outcome :: rest, s =>
      match effect s with
      | none => (.error e, rest, s)
      | some (a, s') =>
          match outcome with
          | .done => (.ok a, rest, s')
          | .refused => (.error e, rest, s)
          | .halfway => (.error e, rest, halfway s)
          | .lost => (.error e, rest, s')

/-- A statement that only reads. -/
def query (e : ε) (answer : σ → α) : Session σ ε α := exec e (fun s => some (answer s, s)) id

/-- Started in `pre`, the session returns in `post` or stops in `abort`. -/
def Triple (pre : σ → Prop) (prog : Session σ ε α) (post : α → σ → Prop) (abort : σ → Prop) :
    Prop :=
  ∀ outcomes s, pre s →
    match prog outcomes s with
    | (.ok a, _, s') => post a s'
    | (.error _, _, s') => abort s'

variable {pre pre' abort abort' : σ → Prop} {post post' : α → σ → Prop} {last : β → σ → Prop}

theorem Triple.ret {a : α} (holds : ∀ s, pre s → post a s) :
    Triple pre (pure a : Session σ ε α) post abort :=
  fun _ s started => holds s started

theorem Triple.throw {e : ε} (holds : ∀ s, pre s → abort s) :
    Triple pre (Session.throw e : Session σ ε α) post abort :=
  fun _ s started => holds s started

theorem Triple.bind {prog : Session σ ε α} {next : α → Session σ ε β}
    (first : Triple pre prog post abort) (second : ∀ a, Triple (post a) (next a) last abort) :
    Triple pre (prog >>= next) last abort := by
  intro outcomes s started
  have holds := first outcomes s started
  change (match Session.bind prog next outcomes s with
    | (.ok b, _, s') => last b s'
    | (.error _, _, s') => abort s')
  unfold Session.bind
  cases ran : prog outcomes s with
  | mk answer left =>
      obtain ⟨outcomes', s'⟩ := left
      rw [ran] at holds
      cases answer with
      | ok a => exact second a outcomes' s' holds
      | error e => exact holds

theorem Triple.mono {prog : Session σ ε α} (triple : Triple pre prog post abort)
    (stronger : ∀ s, pre' s → pre s) (weaker : ∀ a s, post a s → post' a s)
    (aborts : ∀ s, abort s → abort' s) : Triple pre' prog post' abort' := by
  intro outcomes s started
  have holds := triple outcomes s (stronger s started)
  cases ran : prog outcomes s with
  | mk answer left =>
      rw [ran] at holds
      cases answer with
      | ok a => exact weaker a _ holds
      | error e => exact aborts _ holds

/-- One statement: the crash condition is to hold before it, after it and halfway. -/
theorem Triple.exec {e : ε} {effect : σ → Option (α × σ)} {halfway : σ → σ}
    (before : ∀ s, pre s → abort s ∧ abort (halfway s))
    (after : ∀ s a s', pre s → effect s = some (a, s') → post a s' ∧ abort s') :
    Triple pre (Session.exec e effect halfway) post abort := by
  intro outcomes s started
  cases outcomes with
  | nil => exact (before s started).1
  | cons outcome rest =>
      cases made : effect s with
      | none =>
          simp only [Session.exec, made]
          exact (before s started).1
      | some answered =>
          obtain ⟨a, s'⟩ := answered
          have held := after s a s' started made
          cases outcome with
          | done =>
              simp only [Session.exec, made]
              exact held.1
          | refused =>
              simp only [Session.exec, made]
              exact (before s started).1
          | halfway =>
              simp only [Session.exec, made]
              exact (before s started).2
          | lost =>
              simp only [Session.exec, made]
              exact held.2

theorem Triple.query {e : ε} {answer : σ → α} (before : ∀ s, pre s → abort s)
    (after : ∀ s, pre s → post (answer s) s) :
    Triple pre (Session.query e answer : Session σ ε α) post abort := by
  apply Triple.exec
  · intro s started
    exact ⟨before s started, before s started⟩
  · intro s a s' started made
    cases made
    exact ⟨after s started, before s started⟩

end Session

end Database
