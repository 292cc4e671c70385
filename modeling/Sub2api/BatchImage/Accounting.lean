import Sub2api.BatchImage.Invariant

/-!
# Calls keep the books

`Inv.called` is the step lemma of the hold operations: a call with a command `Issued` for a job
keeps the invariant, whatever its outcome. An error, a duplicate or an idle call moves no money
(`Inv.called_quiet`); a call that hits the user's row (`Inv.called_moved`) opens a hold that was
not open or closes one that was, which is where `HoldCall.Clean` is needed.
-/

namespace Sub2api.BatchImage

open Database Go Billing Interleave

/-! ### Sums over the history -/

section Sums

variable {moves : List HoldMove} {m : HoldMove} {id : String} {u : ℤ}

theorem closedIn_append_reserve (reserve : m.kind = .reserve) :
    closedIn (moves ++ [m]) id = closedIn moves id := by
  simp [closedIn, reserve]

theorem closedIn_append_closing (closing : m.kind ≠ .reserve) :
    closedIn (moves ++ [m]) id = (closedIn moves id || m.batchID == id) := by
  have counts : (m.kind != .reserve) = true := by simpa using closing
  simp [closedIn, counts]

theorem closedIn_eq_false :
    closedIn moves id = false ↔ ∀ m ∈ moves, m.kind ≠ .reserve → m.batchID ≠ id := by
  simp [closedIn]

/-- A reserve of a batch that was not closed opens its hold. -/
theorem openHolds_reserve (reserve : m.kind = .reserve)
    (stillOpen : closedIn moves m.batchID = false) :
    openHolds (moves ++ [m]) u = openHolds moves u + if m.userID = u then m.hold else 0 := by
  simp [openHolds, closedIn_append_reserve reserve, reserve, stillOpen]

/-- What the reserves of one batch hold of a user's money. -/
def reservedOf (moves : List HoldMove) (id : String) (u : ℤ) : ℚ :=
  (moves.map fun r => if r.kind = .reserve ∧ r.userID = u ∧ r.batchID = id then r.hold else 0).sum

/-- Closing a batch takes its reserves out of the open holds. -/
theorem openHolds_close (closing : m.kind ≠ .reserve)
    (stillOpen : closedIn moves m.batchID = false) :
    openHolds (moves ++ [m]) u = openHolds moves u - reservedOf moves m.batchID u := by
  have split (r : HoldMove) :
      (if r.kind = .reserve ∧ r.userID = u ∧ closedIn moves r.batchID = false then r.hold else 0) =
        (if r.kind = .reserve ∧ r.userID = u ∧ closedIn (moves ++ [m]) r.batchID = false
          then r.hold else 0) +
        if r.kind = .reserve ∧ r.userID = u ∧ r.batchID = m.batchID then r.hold else 0 := by
    rw [closedIn_append_closing closing]
    by_cases here : r.batchID = m.batchID
    · simp [here, stillOpen]
    · simp [here, Ne.symm here]
  have whole : openHolds moves u =
      openHolds (moves ++ [m]) u + reservedOf moves m.batchID u := by
    unfold reservedOf
    simp only [openHolds, split, List.sum_map_add, List.map_append, List.sum_append, List.map_cons,
      List.map_nil, List.sum_cons, List.sum_nil, closing, false_and, if_false, add_zero]
  rw [whole]
  ring

/-- With one entry for each operation on a batch, its reserves hold what its reserve did. -/
theorem reservedOf_single {r : HoldMove}
    (distinct : (moves.map fun m => (m.kind, m.batchID)).Nodup) (member : r ∈ moves)
    (reserve : r.kind = .reserve) :
    reservedOf moves r.batchID u = if r.userID = u then r.hold else 0 := by
  unfold reservedOf
  rw [List.sum_map_eq_nsmul_single r,
    List.count_eq_one_of_mem distinct.of_map member]
  · simp [reserve]
  · intro other differs others
    rw [if_neg]
    rintro ⟨kind, _, batch⟩
    exact differs (List.inj_on_of_nodup_map distinct others member (by simp [kind, reserve, batch]))

theorem reservedOf_none (never : ∀ r ∈ moves, r.kind = .reserve → r.batchID ≠ id) :
    reservedOf moves id u = 0 := by
  unfold reservedOf
  apply List.sum_eq_zero
  intro term member
  obtain ⟨r, others, rfl⟩ := List.mem_map.mp member
  rw [if_neg]
  rintro ⟨kind, _, batch⟩
  exact never r others kind batch

theorem capturedTotal_append :
    capturedTotal (moves ++ [m]) u =
      capturedTotal moves u + if m.kind = .capture ∧ m.userID = u then m.actual else 0 := by
  simp [capturedTotal]

end Sums

/-! ### Commands and what they find -/

/-- The command of an operation on the hold of a job of the table. -/
structure Issued (kind : HoldKind) (cmd : BatchImageBalanceHoldCommand) (s : State) : Prop where
  row : ∃ row, s.jobs cmd.batchID = some row ∧ row.userID = cmd.userID ∧
    row.apiKeyID = some cmd.apiKeyID ∧ row.heldAmount = cmd.holdAmount
  requestID : cmd.requestID = kind.requestID cmd.batchID
  printed : NoBlank cmd.batchID
  needed : kind ≠ .capture → 0 < cmd.holdAmount
  backed : kind = .capture → cmd.holdAmount ≤ 0 ∨ Moved s .reserve cmd.batchID

section Calls

variable {s₀ s : State} {kind : HoldKind} {cmd : BatchImageBalanceHoldCommand}
  {answer : Except BillingError BatchImageBalanceHoldResult} {db' : Billing.Db}

theorem called_extends : Extends s (s.called kind cmd answer db') :=
  ⟨fun _ member => List.mem_append_left _ member, fun _ member => List.mem_append_left _ member,
    fun _ job found => ⟨job, found, .refl job⟩⟩

theorem mem_calls_called {c : HoldCall} (member : c ∈ (s.called kind cmd answer db').calls) :
    c ∈ s.calls ∨ c = recordCall kind cmd s answer := by
  simpa [State.called] using member

/-- An operation that hit a user's row left its claim with the job's key. -/
theorem Books.claim_of_moved (books : Books s) (issued : Issued kind cmd s) {other : HoldKind}
    (moved : Moved s other cmd.batchID) :
    claimOf s.billing (other.requestID cmd.batchID, cmd.apiKeyID) ≠ none := by
  obtain ⟨m, member, rfl, batch⟩ := moved
  obtain ⟨job, key, found, _, _, hasKey, claim⟩ := books.recorded m member
  obtain ⟨row, row_found, _, rowKey, _⟩ := issued.row
  rw [batch, row_found] at found
  cases found
  rw [rowKey] at hasKey
  cases hasKey
  rwa [batch] at claim

/-- An unclaimed operation has not moved the batch's hold. -/
theorem Books.unmoved (books : Books s) (issued : Issued kind cmd s)
    (unclaimed : claimOf s.billing (cmd.requestID, cmd.apiKeyID) = none) :
    ¬Moved s kind cmd.batchID := by
  intro moved
  rw [issued.requestID] at unclaimed
  exact books.claim_of_moved issued moved unclaimed

/-- The moves of a batch have the hold and the user of the job's row. -/
theorem Books.terms_of_moved (books : Books s) (issued : Issued kind cmd s) {m : HoldMove}
    (member : m ∈ s.moves) (batch : m.batchID = cmd.batchID) :
    m.hold = cmd.holdAmount ∧ m.userID = cmd.userID := by
  obtain ⟨job, key, found, user, hold, _, _⟩ := books.recorded m member
  obtain ⟨row, row_found, rowUser, _, rowHold⟩ := issued.row
  rw [batch, row_found] at found
  cases found
  exact ⟨hold.symm.trans rowHold, user.symm.trans rowUser⟩

/-- The request ids of the operations on a batch differ. -/
theorem Issued.requestID_eq (issued : Issued kind cmd s) (other : HoldKind) {id : String}
    (printed : NoBlank id) (same : other.requestID id = cmd.requestID) :
    other = kind ∧ id = cmd.batchID :=
  requestID_injective printed issued.printed (same.trans issued.requestID)

/-! ### Calls that move no money -/

/-- A call that leaves the users alone keeps the invariant. Its claim, when it is new, is not a
reserve's, and if a release's then of a hold that was never reserved. -/
theorem Inv.called_quiet (inv : Inv s₀ s) (issued : Issued kind cmd s)
    (quiet : recordMove kind cmd answer = []) (users : db'.users = s.billing.users)
    (grow : ∀ key, claimOf s.billing key ≠ none → claimOf db' key ≠ none)
    (fresh : ∀ key, claimOf db' key ≠ none → claimOf s.billing key ≠ none ∨
      (key = (cmd.requestID, cmd.apiKeyID) ∧ kind ≠ .reserve ∧
        (kind = .release → ¬Moved s .reserve cmd.batchID)))
    (claims : kind = .release → acceptedAnswer answer = true →
      claimOf db' (cmd.requestID, cmd.apiKeyID) ≠ none) :
    Inv s₀ (s.called kind cmd answer db') := by
  have books := inv.books
  have moves : (s.called kind cmd answer db').moves = s.moves := by simp [State.called, quiet]
  have still (k : HoldKind) (id : String) :
      Moved (s.called kind cmd answer db') k id ↔ Moved s k id := by simp [Moved, moves]
  have held (job : BatchImageJob) : Held job s → Held job (s.called kind cmd answer db') :=
    fun held => held.lasts called_extends
  refine
    { books :=
        { named := books.named
          recorded := ?_
          distinct := by rw [moves]; exact books.distinct
          positive := by rw [moves]; exact books.positive
          backed := ?_
          claimed := ?_
          submitted := fun id job found isPast => held job (books.submitted id job found isPast)
          called := ?_ }
      balanced := fun clean => ?_
      returned := fun inOrder => ?_ }
  · rw [moves]
    intro m member
    obtain ⟨job, key, found, user, hold, hasKey, claim⟩ := books.recorded m member
    exact ⟨job, key, found, user, hold, hasKey, grow _ claim⟩
  · rw [moves]
    intro m member closing
    exact (books.backed m member closing).imp id (still _ _).mpr
  · intro id key printed claim
    rw [still]
    rcases fresh _ claim with old | ⟨same, notReserve, _⟩
    · exact books.claimed id key printed old
    · exact absurd (issued.requestID_eq .reserve printed (congrArg Prod.fst same)).1.symm notReserve
  · intro c member
    rcases mem_calls_called member with old | rfl
    · exact books.called c old
    · obtain ⟨row, found, _⟩ := issued.row
      exact ⟨row, found⟩
  · have before := inv.balanced (clean.before called_extends)
    refine ⟨fun id => ?_, fun u => ?_, fun u => ?_⟩
    · rw [still, still]
      exact before.exclusive id
    · rw [moves, ← before.frozen u]
      simp [frozenOf, State.called, users]
    · rw [moves, ← before.total u]
      simp [frozenOf, balanceOf, State.called, users]
  · have before := inv.returned (inOrder.before called_extends)
    refine ⟨?_, ?_⟩
    · intro id job key found hasKey claim
      rw [still, still]
      rcases fresh _ claim with old | ⟨same, _, never⟩
      · exact before.released id job key found hasKey old
      · obtain ⟨isRelease, rfl⟩ :=
          issued.requestID_eq .release (books.named id job found).2 (congrArg Prod.fst same)
        exact Or.inr (never isRelease.symm)
    · intro c member isRelease accepted
      rcases mem_calls_called member with old | rfl
      · obtain ⟨job, key, found, hasKey, claim⟩ := before.accepted c old isRelease accepted
        exact ⟨job, key, found, hasKey, grow _ claim⟩
      · obtain ⟨row, found, _, rowKey, _⟩ := issued.row
        have claim := claims isRelease accepted
        rw [issued.requestID, show kind = .release from isRelease] at claim
        exact ⟨row, cmd.apiKeyID, found, rowKey, claim⟩

/-! ### Calls that move money -/

/-- The balances after a user's row was shifted by amounts on their grid. -/
theorem shifted_amounts {userID : ℤ} {guard : User → Prop} {b f : ℚ} {db : Billing.Db}
    (shifted : Shifted userID guard b f db db') (hb : OnGrid 8 b) (hf : OnGrid 8 f) (u : ℤ) :
    balanceOf db' u = (balanceOf db u + if u = userID then b else 0) ∧
      frozenOf db' u = frozenOf db u + if u = userID then f else 0 := by
  obtain ⟨row, found, _, _, rfl⟩ := shifted
  have balance : (row.shift b f).balance.value = row.balance.value + b :=
    Numeric.value_store_add _ hb
  have frozen : (row.shift b f).frozenBalance.value = row.frozenBalance.value + f :=
    Numeric.value_store_add _ hf
  exact ⟨Table.read_update_add found balance u, Table.read_update_add found frozen u⟩

theorem heldAmount_nonneg (job : BatchImageJob) : 0 ≤ job.heldAmount := by
  unfold BatchImageJob.heldAmount
  split
  · exact le_rfl
  · exact not_lt.mp ‹_›

/-- The reserves of the batch hold what the command is about. -/
theorem Books.reservedOf_eq (books : Books s) (issued : Issued kind cmd s)
    (backed : cmd.holdAmount ≤ 0 ∨ Moved s .reserve cmd.batchID) (u : ℤ) :
    reservedOf s.moves cmd.batchID u = if cmd.userID = u then cmd.holdAmount else 0 := by
  by_cases reserved : Moved s .reserve cmd.batchID
  · obtain ⟨r, member, reserve, batch⟩ := reserved
    obtain ⟨hold, user⟩ := books.terms_of_moved issued member batch
    rw [← batch, reservedOf_single books.distinct member reserve, hold, user]
  · have none : cmd.holdAmount = 0 := by
      obtain ⟨row, _, _, _, rowHold⟩ := issued.row
      exact le_antisymm (backed.resolve_right reserved) (rowHold ▸ heldAmount_nonneg row)
    rw [reservedOf_none fun r member reserve batch => reserved ⟨r, member, reserve, batch⟩, none,
      ite_self]

/-- A batch that an operation finds unmoved by itself and by the other closing operation is open;
before its reserve it cannot be closed. -/
theorem Books.stillOpen (books : Books s) (issued : Issued kind cmd s)
    (unmoved : ¬Moved s kind cmd.batchID)
    (alone : ∀ other, otherClosing kind other = true → ¬Moved s other cmd.batchID) :
    closedIn s.moves cmd.batchID = false := by
  rw [closedIn_eq_false]
  intro m member closing batch
  have moved : Moved s m.kind cmd.batchID := ⟨m, member, rfl, batch⟩
  cases kind with
  | reserve =>
      rcases books.backed m member closing with none | reserved
      · rw [(books.terms_of_moved issued member batch).1] at none
        exact absurd (issued.needed (by decide)) (not_lt.mpr none)
      · exact unmoved (batch ▸ reserved)
  | capture =>
      cases which : m.kind with
      | reserve => exact closing which
      | capture => exact unmoved (which ▸ moved)
      | release => exact alone .release rfl (which ▸ moved)
  | release =>
      cases which : m.kind with
      | reserve => exact closing which
      | capture => exact alone .capture rfl (which ▸ moved)
      | release => exact unmoved (which ▸ moved)

/-- The open holds change by what the operation adds to the frozen balance. -/
theorem Books.openHolds_moved (books : Books s) (issued : Issued kind cmd s)
    (backed : kind ≠ .reserve → cmd.holdAmount ≤ 0 ∨ Moved s .reserve cmd.batchID)
    (stillOpen : closedIn s.moves cmd.batchID = false) (u : ℤ) :
    openHolds (s.moves ++ [moveOf kind cmd]) u =
      openHolds s.moves u + if u = cmd.userID then kind.frozenShift cmd else 0 := by
  have flipped (x : ℚ) : (if u = cmd.userID then x else 0) = if cmd.userID = u then x else 0 := by
    simp only [eq_comm]
  rw [flipped]
  cases kind with
  | reserve => exact openHolds_reserve rfl stillOpen
  | capture =>
      rw [openHolds_close (by simp [moveOf]) stillOpen]
      show _ - reservedOf s.moves cmd.batchID u = _
      rw [books.reservedOf_eq issued (backed (by decide))]
      split <;> simp [HoldKind.frozenShift, sub_eq_add_neg]
  | release =>
      rw [openHolds_close (by simp [moveOf]) stillOpen]
      show _ - reservedOf s.moves cmd.batchID u = _
      rw [books.reservedOf_eq issued (backed (by decide))]
      split <;> simp [HoldKind.frozenShift, sub_eq_add_neg]

/-- A clean call that finds enough frozen money finds its batch not closed by the other. -/
theorem HoldCall.Clean.alone (clean : (recordCall kind cmd s answer).Clean)
    (issued : Issued kind cmd s)
    (unclaimed : claimOf s.billing (cmd.requestID, cmd.apiKeyID) = none) {u : User}
    (found : s.billing.users cmd.userID = some u) (live : u.deleted = false)
    (passed : kind.guard cmd u) (other : HoldKind) (closes : otherClosing kind other = true) :
    ¬Moved s other cmd.batchID := by
  rintro ⟨m, member, rfl, batch⟩
  have short := clean.short (List.any_eq_true.mpr ⟨m, member, by simp [closes, batch]⟩)
    (by
      have printed : NoBlank cmd.requestID :=
        issued.requestID ▸ noBlank_requestID kind issued.printed
      simp [recordCall, trimSpace_of_noBlank printed, unclaimed])
    u.frozenBalance.value (ofLiveUser_eq found live _)
  cases kind with
  | reserve => cases closes
  | capture => exact absurd short (not_lt.mpr passed)
  | release => exact absurd short (not_lt.mpr passed)

/-- The claims after an operation hit a user's row. -/
theorem claimOf_shifted {userID : ℤ} {guard : User → Prop} {b f : ℚ} {fingerprint : String}
    {now : Time}
    (shifted : Shifted userID guard b f
      (withClaim (cmd.requestID, cmd.apiKeyID) fingerprint now s.billing) db')
    (key : DedupKey) :
    claimOf db' key ≠ none ↔
      claimOf s.billing key ≠ none ∨ key = (cmd.requestID, cmd.apiKeyID) := by
  have same : claimOf db' key =
      claimOf (withClaim (cmd.requestID, cmd.apiKeyID) fingerprint now s.billing) key := by
    obtain ⟨_, _, _, _, rfl⟩ := shifted
    rfl
  rw [same, claimOf_withClaim]
  by_cases here : key = (cmd.requestID, cmd.apiKeyID) <;> simp [here]

/-- A call that hits a user's row keeps the invariant. -/
theorem Inv.called_moved (inv : Inv s₀ s) (issued : Issued kind cmd s) {fingerprint : String}
    {now : Time} {result : BatchImageBalanceHoldResult}
    (unclaimed : claimOf s.billing (cmd.requestID, cmd.apiKeyID) = none)
    (moves : kind.moves cmd s.billing) (answered : result.newBalance.isSome = true)
    (shifted : Shifted cmd.userID (kind.guard cmd) (kind.balanceShift cmd) (kind.frozenShift cmd)
      (withClaim (cmd.requestID, cmd.apiKeyID) fingerprint now s.billing) db') :
    Inv s₀ (s.called kind cmd (.ok { result with applied := true }) db') := by
  set s' := s.called kind cmd (.ok { result with applied := true }) db' with after
  have books := inv.books
  have claims := claimOf_shifted shifted
  have unmoved := books.unmoved issued unclaimed
  have grows : Extends s s' := called_extends
  have history : s'.moves = s.moves ++ [moveOf kind cmd] := by
    simp [after, State.called, recordMove, answered]
  have moved_iff (k : HoldKind) (id : String) :
      Moved s' k id ↔ Moved s k id ∨ (kind = k ∧ cmd.batchID = id) := by
    simp [Moved, history, moveOf, or_and_right, exists_or]
  have backed : kind ≠ .reserve → cmd.holdAmount ≤ 0 ∨ Moved s .reserve cmd.batchID := by
    intro closing
    cases kind with
    | reserve => exact absurd rfl closing
    | capture => exact issued.backed rfl
    | release => exact Or.inr (books.claimed _ _ issued.printed moves.2)
  refine
    { books :=
        { named := books.named
          recorded := ?_
          distinct := ?_
          positive := ?_
          backed := ?_
          claimed := ?_
          submitted := fun id job found isPast => (books.submitted id job found isPast).lasts grows
          called := ?_ }
      balanced := fun clean => ?_
      returned := fun inOrder => ?_ }
  · intro m member
    rw [history, List.mem_append, List.mem_singleton] at member
    rcases member with old | rfl
    · obtain ⟨job, key, found, user, hold, hasKey, claim⟩ := books.recorded m old
      exact ⟨job, key, found, user, hold, hasKey, (claims _).mpr (Or.inl claim)⟩
    · obtain ⟨row, found, rowUser, rowKey, rowHold⟩ := issued.row
      exact ⟨row, cmd.apiKeyID, found, rowUser, rowHold, rowKey,
        (claims _).mpr (Or.inr (by simp [moveOf, issued.requestID]))⟩
  · rw [history, List.map_append, List.nodup_append]
    refine ⟨books.distinct, by simp, ?_⟩
    intro old member new single same
    obtain ⟨m, others, rfl⟩ := List.mem_map.mp member
    simp only [List.map_cons, List.map_nil, List.mem_singleton, moveOf] at single
    rw [single, Prod.mk.injEq] at same
    exact unmoved ⟨m, others, same⟩
  · intro m member reserve
    rw [history, List.mem_append, List.mem_singleton] at member
    rcases member with old | rfl
    · exact books.positive m old reserve
    · exact issued.needed (by rw [show kind = .reserve from reserve]; decide)
  · intro m member closing
    rw [history, List.mem_append, List.mem_singleton] at member
    rcases member with old | rfl
    · exact (books.backed m old closing).imp id (Moved.lasts grows)
    · exact (backed closing).imp id (Moved.lasts grows)
  · intro id key printed claim
    rw [moved_iff]
    rcases (claims _).mp claim with old | same
    · exact Or.inl (books.claimed id key printed old)
    · obtain ⟨reserve, rfl⟩ := issued.requestID_eq .reserve printed (congrArg Prod.fst same)
      exact Or.inr ⟨reserve.symm, rfl⟩
  · intro c member
    rcases mem_calls_called member with old | rfl
    · exact books.called c old
    · obtain ⟨row, found, _⟩ := issued.row
      exact ⟨row, found⟩
  · have before := inv.balanced (clean.before grows)
    have call : (recordCall kind cmd s (.ok { result with applied := true })).Clean :=
      clean _ (by simp [after, State.called])
    have alone : ∀ other, otherClosing kind other = true → ¬Moved s other cmd.batchID := by
      obtain ⟨u, found, live, passed, _⟩ := shifted
      exact call.alone issued unclaimed found live passed
    have stillOpen := books.stillOpen issued unmoved alone
    have hold : OnGrid 8 cmd.holdAmount := call.hold
    have actual : OnGrid 8 cmd.actualAmount := call.actual
    have amounts := shifted_amounts shifted
      (by cases kind; exacts [hold.neg, hold.sub actual, hold])
      (by cases kind; exacts [hold, hold.neg, hold.neg])
    refine ⟨fun id => ?_, fun u => ?_, fun u => ?_⟩
    · rw [moved_iff, moved_iff]
      rintro ⟨captured | ⟨capture, rfl⟩, released | ⟨release, batch⟩⟩
      · exact before.exclusive id ⟨captured, released⟩
      · subst release batch
        exact alone .capture rfl captured
      · subst capture
        exact alone .release rfl released
      · rw [capture] at release
        cases release
    · rw [history, books.openHolds_moved issued backed stillOpen, ← add_assoc, ← before.frozen u]
      exact (amounts u).2
    · rw [history, capturedTotal_append, ← sub_sub, ← before.total u]
      show balanceOf db' u + frozenOf db' u = _
      rw [(amounts u).1, (amounts u).2]
      show balanceOf s.billing u + _ + (frozenOf s.billing u + _) = _
      by_cases here : u = cmd.userID
      · subst here
        cases kind <;>
          simp [moveOf, HoldKind.balanceShift, HoldKind.frozenShift] <;> ring
      · simp [moveOf, here, Ne.symm here]
  · have before := inv.returned (inOrder.before grows)
    refine ⟨?_, ?_⟩
    · intro id job key found hasKey claim
      rw [moved_iff, moved_iff]
      rcases (claims _).mp claim with old | same
      · rcases before.released id job key found hasKey old with back | never
        · exact Or.inl (Or.inl back)
        · by_cases reserving : kind = .reserve ∧ cmd.batchID = id
          · -- The reserve found the release claimed, and yet enough money.
            obtain ⟨rfl, rfl⟩ := reserving
            obtain ⟨u, user, live, enough, _⟩ := shifted
            obtain ⟨row, row_found, _, rowKey, _⟩ := issued.row
            rw [show s.jobs cmd.batchID = some job from found] at row_found
            cases row_found
            rw [rowKey] at hasKey
            cases hasKey
            have printed : NoBlank cmd.requestID :=
              issued.requestID ▸ noBlank_requestID .reserve issued.printed
            have short := inOrder (recordCall .reserve cmd s (.ok { result with applied := true }))
              (by simp [after, State.called]) rfl
              (Option.isSome_iff_ne_none.mpr old)
              (by simp [recordCall, trimSpace_of_noBlank printed, unclaimed])
              u.balance.value (ofLiveUser_eq user live _)
            exact absurd short (not_lt.mpr enough)
          · exact Or.inr (not_or.mpr ⟨never, reserving⟩)
      · obtain ⟨isRelease, rfl⟩ :=
          issued.requestID_eq .release (books.named id job found).2 (congrArg Prod.fst same)
        exact Or.inl (Or.inr ⟨isRelease.symm, rfl⟩)
    · intro c member isRelease accepted
      rcases mem_calls_called member with old | rfl
      · obtain ⟨job, key, found, hasKey, claim⟩ := before.accepted c old isRelease accepted
        exact ⟨job, key, found, hasKey, (claims _).mpr (Or.inl claim)⟩
      · obtain ⟨row, found, _, rowKey, _⟩ := issued.row
        refine ⟨row, cmd.apiKeyID, found, rowKey, (claims _).mpr (Or.inr ?_)⟩
        rw [issued.requestID, show kind = .release from isRelease]
        rfl

/-! ### Every call -/

/-- A call of a hold operation keeps the invariant. -/
theorem Inv.called (inv : Inv s₀ s) (issued : Issued kind cmd s)
    (outcome : HoldOutcome kind cmd s.billing answer db') :
    Inv s₀ (s.called kind cmd answer db') := by
  cases outcome with
  | unchanged _ quiet claimed =>
      refine inv.called_quiet issued ?_ rfl (fun _ claim => claim) (fun _ claim => Or.inl claim) ?_
      · cases answer with
        | error e => rfl
        | ok result => simp [recordMove, quiet result rfl]
      · intro _ accepted
        apply claimed
        cases answer with
        | ok result => exact Or.inl ⟨result, rfl⟩
        | error e => cases e <;> simp_all [acceptedAnswer]
  | idle fingerprint now unclaimed idle =>
      refine inv.called_quiet issued rfl rfl ?_ ?_ (fun _ _ => by simp [claimOf_withClaim])
      · intro key claim
        rw [claimOf_withClaim]
        split
        · simp
        · exact claim
      · intro key claim
        rw [claimOf_withClaim] at claim
        by_cases here : key = (cmd.requestID, cmd.apiKeyID)
        · refine Or.inr ⟨here, ?_, ?_⟩
          · rintro rfl
            exact absurd (issued.needed (by decide)) (not_lt.mpr idle)
          · rintro rfl reserved
            rcases idle with none | absent
            · exact absurd (issued.needed (by decide)) (not_lt.mpr none)
            · exact inv.books.claim_of_moved issued reserved absent
        · rw [if_neg here] at claim
          exact Or.inl claim
  | moved fingerprint now result _ unclaimed moves answered shifted =>
      exact inv.called_moved issued unclaimed moves answered shifted

end Calls

end Sub2api.BatchImage
