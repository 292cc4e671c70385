import Sub2api.BatchImage.Programs
import Sub2api.Billing.Apply
import Sub2api.Interleave.Owned

/-!
# The books of the holds

`Books` is what holds of the job table, the claims and the history of moves after any run.
`Balanced` is the accounting of the users' frozen money, as long as every call is `Clean`;
`Returned` is the accounting of released holds, as long as every call is `InOrder`. Both are
conditions on what a call finds before it runs.

* `Inv.putJob` — rewriting a job's row within its terms keeps the invariant;
* `Inv.createJob` — so does inserting a job under a new id;
* `Inv.called` — so does a call of a hold operation, whatever its outcome.
-/

namespace Sub2api.BatchImage

open Database Go Billing Interleave

/-! ### History -/

/-- A hold operation of a batch hit a user's row. -/
def Moved (s : State) (kind : HoldKind) (id : String) : Prop :=
  ∃ m ∈ s.moves, m.kind = kind ∧ m.batchID = id

/-- The job's terms are those of its row. -/
def Known (job : BatchImageJob) (s : State) : Prop :=
  ∃ row, s.jobs job.batchID = some row ∧ SameTerms job row

/-- There is nothing to hold for the job, or its hold was reserved. -/
def Held (job : BatchImageJob) (s : State) : Prop :=
  job.heldAmount ≤ 0 ∨ Moved s .reserve job.batchID

def frozenOf (db : Billing.Db) : ℤ → ℚ := db.users.read (·.frozenBalance.value)

/-- Whether a capture or release of the batch is among the moves. -/
def closedIn (moves : List HoldMove) (id : String) : Bool :=
  moves.any fun m => m.kind != .reserve && m.batchID == id

/-- The holds of a user that were reserved and neither captured nor released. -/
def openHolds (moves : List HoldMove) (user : ℤ) : ℚ :=
  (moves.map fun m =>
    if m.kind = .reserve ∧ m.userID = user ∧ closedIn moves m.batchID = false then m.hold
    else 0).sum

/-- The actual amounts captured from a user. -/
def capturedTotal (moves : List HoldMove) (user : ℤ) : ℚ :=
  (moves.map fun m => if m.kind = .capture ∧ m.userID = user then m.actual else 0).sum

/-! ### The invariant -/

structure Books (s : State) : Prop where
  named : ∀ id job, s.jobs id = some job → job.batchID = id ∧ NoBlank id
  recorded : ∀ m ∈ s.moves, ∃ job key, s.jobs m.batchID = some job ∧ job.userID = m.userID ∧
    job.heldAmount = m.hold ∧ job.apiKeyID = some key ∧
    claimOf s.billing (m.kind.requestID m.batchID, key) ≠ none
  distinct : (s.moves.map fun m => (m.kind, m.batchID)).Nodup
  positive : ∀ m ∈ s.moves, m.kind = .reserve → 0 < m.hold
  backed : ∀ m ∈ s.moves, m.kind ≠ .reserve → m.hold ≤ 0 ∨ Moved s .reserve m.batchID
  claimed : ∀ id key, NoBlank id →
    claimOf s.billing (HoldKind.reserve.requestID id, key) ≠ none → Moved s .reserve id
  submitted : ∀ id job, s.jobs id = some job → job.status.pastSubmit = true → Held job s
  called : ∀ c ∈ s.calls, ∃ job, s.jobs c.batchID = some job

/-- A call that finds its batch's hold already closed by the other of capture and release finds
too little frozen, or its request claimed; and its amounts are on the grid of the balances. -/
structure HoldCall.Clean (c : HoldCall) : Prop where
  hold : OnGrid 8 c.hold
  actual : OnGrid 8 c.actual
  short : c.closedByOther = true → c.claimed = false → ∀ f, c.frozen = some f → f < c.hold

/-- A reserve that finds the batch's release claimed finds too small a balance, or its own
request claimed. -/
def HoldCall.InOrder (c : HoldCall) : Prop :=
  c.kind = .reserve → c.releaseClaimed = true → c.claimed = false →
    ∀ b, c.balance = some b → b < c.hold

/-- Every call so far was clean. -/
def Clean (s : State) : Prop := ∀ c ∈ s.calls, c.Clean

/-- Every call so far was in order. -/
def InOrder (s : State) : Prop := ∀ c ∈ s.calls, c.InOrder

instance (c : HoldCall) : Decidable c.Clean :=
  decidable_of_iff (OnGrid 8 c.hold ∧ OnGrid 8 c.actual ∧
      (c.closedByOther = true → c.claimed = false → ∀ f ∈ c.frozen, f < c.hold))
    ⟨fun ⟨hold, actual, short⟩ => ⟨hold, actual, short⟩, fun c => ⟨c.hold, c.actual, c.short⟩⟩

instance (c : HoldCall) : Decidable c.InOrder :=
  inferInstanceAs (Decidable (c.kind = .reserve → c.releaseClaimed = true → c.claimed = false →
    ∀ b ∈ c.balance, b < c.hold))

instance (s : State) : Decidable (Clean s) := inferInstanceAs (Decidable (∀ c ∈ s.calls, c.Clean))

instance (s : State) : Decidable (InOrder s) :=
  inferInstanceAs (Decidable (∀ c ∈ s.calls, c.InOrder))

/-- The accounting against the state `s₀` that the run began in. -/
structure Balanced (s₀ s : State) : Prop where
  exclusive : ∀ id, ¬(Moved s .capture id ∧ Moved s .release id)
  frozen : ∀ u, frozenOf s.billing u = frozenOf s₀.billing u + openHolds s.moves u
  total : ∀ u, balanceOf s.billing u + frozenOf s.billing u =
    balanceOf s₀.billing u + frozenOf s₀.billing u - capturedTotal s.moves u

/-- A claimed release gave the hold back, or there was none to give back. -/
structure Returned (s : State) : Prop where
  released : ∀ id job key, s.jobs id = some job → job.apiKeyID = some key →
    claimOf s.billing (HoldKind.release.requestID id, key) ≠ none →
    Moved s .release id ∨ ¬Moved s .reserve id
  accepted : ∀ c ∈ s.calls, c.kind = .release → c.accepted = true →
    ∃ job key, s.jobs c.batchID = some job ∧ job.apiKeyID = some key ∧
      claimOf s.billing (HoldKind.release.requestID c.batchID, key) ≠ none

/-- The invariant of runs from `s₀`. -/
structure Inv (s₀ s : State) : Prop where
  books : Books s
  balanced : Clean s → Balanced s₀ s
  returned : InOrder s → Returned s

/-- What every step of every call keeps. -/
structure Extends (s s' : State) : Prop where
  moves : ∀ m ∈ s.moves, m ∈ s'.moves
  calls : ∀ c ∈ s.calls, c ∈ s'.calls
  jobs : ∀ id job, s.jobs id = some job → ∃ job', s'.jobs id = some job' ∧ SameTerms job job'

theorem Extends.refl (s : State) : Extends s s :=
  ⟨fun _ member => member, fun _ member => member, fun _ job found => ⟨job, found, .refl job⟩⟩

theorem Extends.trans {s s' s'' : State} (first : Extends s s') (second : Extends s' s'') :
    Extends s s'' := by
  refine ⟨fun m member => second.moves m (first.moves m member),
    fun c member => second.calls c (first.calls c member), ?_⟩
  intro id job found
  obtain ⟨job', found', same⟩ := first.jobs id job found
  obtain ⟨job'', found'', same'⟩ := second.jobs id job' found'
  exact ⟨job'', found'', same.trans same'⟩

/-- States ordered by what every step keeps. -/
instance : Preorder State where
  le := Extends
  le_refl := Extends.refl
  le_trans _ _ _ := Extends.trans

section Lasting

variable {s s' : State}

theorem Moved.lasts {kind : HoldKind} {id : String} (grows : Extends s s')
    (moved : Moved s kind id) : Moved s' kind id := by
  obtain ⟨m, member, same⟩ := moved
  exact ⟨m, grows.moves m member, same⟩

theorem Known.lasts {job : BatchImageJob} (grows : Extends s s') (known : Known job s) :
    Known job s' := by
  obtain ⟨row, found, same⟩ := known
  obtain ⟨row', found', same'⟩ := grows.jobs _ _ found
  exact ⟨row', found', same.trans same'⟩

theorem Known.transfer {job job' : BatchImageJob} (same : SameTerms job job')
    (known : Known job s) : Known job' s := by
  obtain ⟨row, found, terms⟩ := known
  exact ⟨row, same.batchID ▸ found, same.symm.trans terms⟩

theorem Held.lasts {job : BatchImageJob} (grows : Extends s s') (held : Held job s) :
    Held job s' := by
  rcases held with none | reserved
  · exact Or.inl none
  · exact Or.inr (reserved.lasts grows)

theorem Held.transfer {job job' : BatchImageJob} (same : SameTerms job job') (held : Held job s) :
    Held job' s := by
  rcases held with none | reserved
  · exact Or.inl (same.hold.trans_le none)
  · exact Or.inr (same.batchID ▸ reserved)

theorem Clean.before (grows : Extends s s') (clean : Clean s') : Clean s :=
  fun c member => clean c (grows.calls c member)

theorem InOrder.before (grows : Extends s s') (inOrder : InOrder s') : InOrder s :=
  fun c member => inOrder c (grows.calls c member)

end Lasting

/-! ### Steps on jobs -/

section Jobs

variable {s₀ s : State} {id : String} {job job' : BatchImageJob}

/-- The rows after a job's row was written. -/
theorem putJob_row {other : String} {row : BatchImageJob}
    (found : (s.putJob id job').jobs other = some row) :
    (other = id ∧ row = job') ∨ s.jobs other = some row := by
  by_cases here : other = id
  · subst here
    simp only [State.putJob, Function.update_self, Option.some.injEq] at found
    exact Or.inl ⟨rfl, found.symm⟩
  · simp only [State.putJob, Function.update_of_ne here] at found
    exact Or.inr found

theorem putJob_extends (found : s.jobs id = some job) (same : SameTerms job job') :
    Extends s (s.putJob id job') := by
  refine ⟨fun _ member => member, fun _ member => member, ?_⟩
  intro other row row_found
  by_cases here : other = id
  · subst here
    rw [found] at row_found
    cases row_found
    exact ⟨job', by simp [State.putJob], same⟩
  · exact ⟨row, by simp [State.putJob, Function.update_of_ne here, row_found], .refl row⟩

/-- Writing a row under a name of its own, so that no row is lost, keeps the invariant. -/
theorem Inv.putRow (inv : Inv s₀ s) (grows : Extends s (s.putJob id job'))
    (named : job'.batchID = id ∧ NoBlank id)
    (past : job'.status.pastSubmit = true → Held job' s)
    (returned : Returned s → Returned (s.putJob id job')) : Inv s₀ (s.putJob id job') := by
  have books := inv.books
  refine
    { books :=
        { named := ?_
          recorded := ?_
          distinct := books.distinct
          positive := books.positive
          backed := books.backed
          claimed := books.claimed
          submitted := ?_
          called := ?_ }
      balanced := fun clean =>
        ⟨(inv.balanced clean).exclusive, (inv.balanced clean).frozen, (inv.balanced clean).total⟩
      returned := fun inOrder => returned (inv.returned inOrder) }
  · intro other row found
    rcases putJob_row found with ⟨rfl, rfl⟩ | old
    · exact named
    · exact books.named other row old
  · intro m member
    obtain ⟨row, key, found, user, hold, hasKey, claim⟩ := books.recorded m member
    obtain ⟨row', found', terms⟩ := grows.jobs _ _ found
    exact ⟨row', key, found', terms.userID.trans user, terms.hold.trans hold,
      terms.apiKeyID.trans hasKey, claim⟩
  · intro other row found isPast
    rcases putJob_row found with ⟨rfl, rfl⟩ | old
    · exact past isPast
    · exact books.submitted other row old isPast
  · intro c member
    obtain ⟨row, found⟩ := books.called c member
    obtain ⟨row', found', _⟩ := grows.jobs _ _ found
    exact ⟨row', found'⟩

/-- Rewriting a job's row within its terms keeps the invariant, when a status past submission is
one it had, or its hold is reserved. -/
theorem Inv.putJob (inv : Inv s₀ s) (found : s.jobs id = some job) (same : SameTerms job job')
    (past : job'.status.pastSubmit = true → job.status.pastSubmit = true ∨ Held job s) :
    Inv s₀ (s.putJob id job') := by
  have grows := putJob_extends found same
  have named := inv.books.named _ _ found
  refine inv.putRow grows ⟨same.batchID.trans named.1, named.2⟩ ?_ ?_
  · intro isPast
    rcases past isPast with was | held
    · exact (inv.books.submitted _ _ found was).transfer same
    · exact held.transfer same
  · intro returned
    refine ⟨?_, ?_⟩
    · intro other row key row_found hasKey
      rcases putJob_row row_found with ⟨rfl, rfl⟩ | old
      · exact returned.released other job key found (same.apiKeyID.symm.trans hasKey)
      · exact returned.released other row key old hasKey
    · intro c member isRelease accepted
      obtain ⟨row, key, row_found, hasKey, claim⟩ := returned.accepted c member isRelease accepted
      obtain ⟨row', found', terms⟩ := grows.jobs _ _ row_found
      exact ⟨row', key, found', terms.apiKeyID.trans hasKey, claim⟩

/-- Who created a job is history that the invariant does not read. -/
theorem Inv.recordCreator (inv : Inv s₀ s) (creator : Table String ℕ) :
    Inv s₀ { s with creator := creator } :=
  ⟨⟨inv.books.named, inv.books.recorded, inv.books.distinct, inv.books.positive, inv.books.backed,
      inv.books.claimed, inv.books.submitted, inv.books.called⟩,
    fun clean =>
      ⟨(inv.balanced clean).exclusive, (inv.balanced clean).frozen, (inv.balanced clean).total⟩,
    fun inOrder => ⟨(inv.returned inOrder).released, (inv.returned inOrder).accepted⟩⟩

/-- Inserting a job under a new id keeps the invariant. -/
theorem Inv.createJob (inv : Inv s₀ s) (absent : s.jobs id = none)
    (named : job'.batchID = id ∧ NoBlank id) (fresh : job'.status.pastSubmit = false) :
    Inv s₀ (s.putJob id job') ∧ Extends s (s.putJob id job') := by
  have grows : Extends s (s.putJob id job') := by
    refine ⟨fun _ member => member, fun _ member => member, ?_⟩
    intro other row found
    have elsewhere : other ≠ id := by
      rintro rfl
      rw [absent] at found
      cases found
    exact ⟨row, by simp [State.putJob, Function.update_of_ne elsewhere, found], .refl row⟩
  have unmoved (kind : HoldKind) : ¬Moved s kind id := by
    rintro ⟨m, member, _, rfl⟩
    obtain ⟨_, _, found, _⟩ := inv.books.recorded m member
    rw [absent] at found
    cases found
  refine ⟨inv.putRow grows named (fun isPast => by rw [fresh] at isPast; cases isPast) ?_, grows⟩
  intro returned
  refine ⟨?_, ?_⟩
  · intro other row key found hasKey claim
    rcases putJob_row found with ⟨rfl, rfl⟩ | old
    · exact Or.inr (unmoved .reserve)
    · exact returned.released other row key old hasKey claim
  · intro c member isRelease accepted
    obtain ⟨row, key, row_found, hasKey, claim⟩ := returned.accepted c member isRelease accepted
    obtain ⟨row', found', terms⟩ := grows.jobs _ _ row_found
    exact ⟨row', key, found', terms.apiKeyID.trans hasKey, claim⟩

end Jobs

end Sub2api.BatchImage
