import Sub2api.Redeem.Codes

/-!
# A redeem code is used at most once

The conditional update in the redemption's transaction is what a code's single use rests on, and
it is enough as long as nobody takes a used code back. Administrators' writes of a status check
the status in a separate read, or not at all.

* `finishRedeem_owns` — a transaction that holds an unused row grants its code the first time;
* `redeemed_at_most_once` — in every run in which no write of a status finds a used code;
* `redeemed_twice` — a batch update that overtakes a redemption reopens the code.
-/

namespace Sub2api.Redeem

open Database
open Interleave

/-! ### The invariant -/

/-- No administrator's write of a status has found a used code. -/
def Clean (s : State) : Prop := .used ∉ s.found

instance (s : State) : Decidable (Clean s) := inferInstanceAs (Decidable (_ ∉ _))

/-- The code is used, or gone. -/
def Spent (s : State) (id : ℤ) : Prop := ∀ row, s.codes id = some row → row.status = .used

structure Books (s : State) : Prop where
  once : (s.grants.map (·.codeID)).Nodup
  spent : ∀ g ∈ s.grants, Spent s g.codeID

def Inv (s : State) : Prop := Clean s → Books s

structure Extends (s s' : State) : Prop where
  found : s.found <+: s'.found
  spent : Clean s' → ∀ id, Spent s id → Spent s' id

theorem Clean.before {s s' : State} (found : s.found <+: s'.found) (clean : Clean s') : Clean s :=
  fun member => clean (found.subset member)

instance : Preorder State where
  le := Extends
  le_refl s := ⟨List.prefix_refl _, fun _ _ spent => spent⟩
  le_trans _ _ _ first second :=
    ⟨first.found.trans second.found, fun clean id spent =>
      second.spent clean id (first.spent (clean.before second.found) id spent)⟩

/-- The rows that a transaction has updated. -/
def lockedBy (s : State) (me : ℕ) (id : ℤ) : Option (Option RedeemCode) :=
  if s.locks id = some me then some (s.codes id) else none

section Steps

variable {s s' : State} {me other : ℕ} {id : ℤ}

/-- A step that grants nothing keeps the books as long as it keeps what is spent. -/
theorem Inv.kept (inv : Inv s) (grows : s ≤ s') (grants : s'.grants = s.grants) : Inv s' := by
  intro clean
  obtain ⟨once, spent⟩ := inv (clean.before grows.found)
  constructor
  · rw [grants]
    exact once
  · intro g member
    rw [grants] at member
    exact grows.spent clean _ (spent g member)

/-- Where the row of a lock holder is as it was, so is what the holder owns. -/
theorem lockedBy_of_free (free : ∀ id, s.locks id ≠ none → s'.codes id = s.codes id)
    (locks : s'.locks = s.locks) : lockedBy s' other = lockedBy s other := by
  funext id
  unfold lockedBy
  rw [locks]
  split
  · rename_i held
    rw [free id (by rw [held]; exact Option.some_ne_none _)]
  · rfl

/-- A single row's lock changes hands between nobody and one transaction. -/
theorem lockedBy_of_mine (differ : other ≠ me) (codes : ∀ j, j ≠ id → s'.codes j = s.codes j)
    (locks : ∀ j, j ≠ id → s'.locks j = s.locks j) (before : s.locks id = none ∨ s.locks id = some me)
    (after : s'.locks id = none ∨ s'.locks id = some me) :
    lockedBy s' other = lockedBy s other := by
  have notTheirs : ∀ {owner : Option ℕ}, owner = none ∨ owner = some me → owner ≠ some other := by
    rintro owner (rfl | rfl) same
    · cases same
    · exact differ (Option.some.inj same).symm
  funext j
  unfold lockedBy
  by_cases here : j = id
  · subst here
    rw [if_neg (notTheirs before), if_neg (notTheirs after)]
  · rw [codes j here, locks j here]

end Steps

/-! ### The statements -/

/-- Nothing in particular. -/
def anything (me : ℕ) : Assertion lockedBy me := .owning (fun _ => True) .none

/-- The transaction holds the row of an unused code. -/
def holdsUnused (me : ℕ) (id : ℤ) : Assertion lockedBy me :=
  .owning (fun own => ∃ row, own id = some (some row) ∧ row.status = .unused) .none

section Owns

variable {me : ℕ} {K : Assertion lockedBy me}

/-- A statement that changes nothing. -/
theorem read_owns {α : Type} {answer : Env → State → α} :
    Owns Inv lockedBy me K (.atomic fun env s => (answer env s, s)) fun _ => K :=
  .act fun _ _ inv holds => ⟨inv, le_rfl, fun _ _ => rfl, holds⟩

theorem use_owns {id : ℤ} :
    Owns Inv lockedBy me (anything me) (use me id)
      fun claimed => if claimed = some true then holdsUnused me id else anything me := by
  refine Owns.wait fun env s claimed s' inv _ acted => ?_
  split at acted
  · cases acted
    exact ⟨inv, le_rfl, fun _ _ => rfl, trivial, trivial⟩
  · split at acted
    · cases acted
    · rename_i free
      split at acted
      · rename_i row found
        split at acted
        · rename_i unused
          cases acted
          have grows : s ≤ { s with locks := Function.update s.locks id (some me) } :=
            ⟨List.prefix_refl _, fun _ _ spent => spent⟩
          refine ⟨inv.kept grows rfl, grows, fun other differ => ?_, ?_⟩
          · refine lockedBy_of_mine differ (fun _ _ => rfl) (fun j away => ?_) (Or.inl free) ?_
            · exact Function.update_of_ne away _ _
            · exact Or.inr (Function.update_self _ _ _)
          · rw [if_pos rfl]
            refine ⟨⟨row, ?_, unused⟩, trivial⟩
            simp [lockedBy, found]
        · cases acted
          exact ⟨inv, le_rfl, fun _ _ => rfl, trivial, trivial⟩
      · cases acted
        exact ⟨inv, le_rfl, fun _ _ => rfl, trivial, trivial⟩

/-- The benefit of a code whose unused row the transaction holds has not been granted before. -/
theorem finishRedeem_owns {id userID : ℤ} {benefit : Benefit} :
    Owns Inv lockedBy me (holdsUnused me id) (finishRedeem id userID benefit)
      fun _ => anything me := by
  refine Owns.act fun env s inv holds => ?_
  obtain ⟨⟨row, owned, unused⟩, _⟩ := holds
  have mine : s.locks id = some me := by
    by_contra notMine
    rw [lockedBy, if_neg notMine] at owned
    cases owned
  have found : s.codes id = some row := by
    rw [lockedBy, if_pos mine] at owned
    exact Option.some.inj owned
  have givenUp : Inv (s.rollback id) ∧ s ≤ s.rollback id ∧
      (∀ other, other ≠ me → lockedBy (s.rollback id) other = lockedBy s other) ∧
      (anything me).holds (s.rollback id) := by
    have grows : s ≤ s.rollback id := ⟨List.prefix_refl _, fun _ _ spent => spent⟩
    refine ⟨inv.kept grows rfl, grows, fun other differ => ?_, trivial, trivial⟩
    refine lockedBy_of_mine differ (fun _ _ => rfl) (fun j away => ?_) (Or.inr mine) ?_
    · exact Function.update_of_ne away _ _
    · exact Or.inl (Function.update_self _ _ _)
  by_cases fails : env.fails
  · rw [if_pos fails]
    exact givenUp
  · rw [if_neg fails]
    cases granted : benefit.grant env.now userID s.accounts with
    | none => exact givenUp
    | some accounts =>
        dsimp only
        have spentHere : ∀ new, Function.update s.codes id ((s.codes id).map fun row =>
            { row with status := .used, usedBy := some userID, usedAt := some env.now }) id =
            some new → new.status = .used := by
          intro new isNew
          rw [Function.update_self, found] at isNew
          cases isNew
          rfl
        have keeps : ∀ j, Spent s j → Spent { s with
            codes := Function.update s.codes id ((s.codes id).map fun row =>
              { row with status := .used, usedBy := some userID, usedAt := some env.now }) } j := by
          intro j spent new isNew
          by_cases here : j = id
          · subst here
            exact spentHere new isNew
          · dsimp only at isNew
            rw [Function.update_of_ne here] at isNew
            exact spent new isNew
        refine ⟨fun clean => ?_, ⟨List.prefix_refl _, fun _ j spent => keeps j spent⟩,
          fun other differ => ?_, trivial, trivial⟩
        · obtain ⟨once, spent⟩ := inv clean
          have first : id ∉ s.grants.map (·.codeID) := by
            intro granted
            obtain ⟨g, member, same⟩ := List.mem_map.mp granted
            have used := spent g member row (same ▸ found)
            rw [unused] at used
            cases used
          constructor
          · rw [List.map_append]
            refine List.nodup_append.mpr ⟨once, List.nodup_singleton _, ?_⟩
            rintro a old b new rfl
            have isNew : a = id := List.mem_singleton.mp new
            exact first (isNew ▸ old)
          · intro g member
            rcases List.mem_append.mp member with old | new
            · exact keeps _ (spent g old)
            · rw [List.mem_singleton.mp new]
              exact spentHere
        · refine lockedBy_of_mine differ (fun j away => ?_) (fun j away => ?_) (Or.inr mine) ?_
          · exact Function.update_of_ne away _ _
          · exact Function.update_of_ne away _ _
          · exact Or.inl (Function.update_self _ _ _)

/-- A write of rows that nobody holds keeps what is spent, if it is clean. -/
theorem write_owns {s : State} {codes : Table ℤ RedeemCode} {found : List CodeStatus}
    (inv : Inv s) (free : ∀ id, s.locks id ≠ none → codes id = s.codes id)
    (keeps : .used ∉ found → ∀ id, Spent s id → ∀ row, codes id = some row → row.status = .used) :
    let s' : State := { s with codes := codes, found := s.found ++ found }
    Inv s' ∧ s ≤ s' ∧ (∀ other, other ≠ me → lockedBy s' other = lockedBy s other) ∧
      (anything me).holds s' := by
  intro s'
  have grows : s ≤ s' := by
    refine ⟨List.prefix_append _ _, fun clean id spent row isRow => ?_⟩
    exact keeps (fun member => clean (List.mem_append_right _ member)) id spent row isRow
  exact ⟨inv.kept grows rfl, grows, fun other _ => lockedBy_of_free free rfl, trivial, trivial⟩

theorem updateByIDs_owns {ids : List ℤ} {f : RedeemCodeBatchUpdateFields} :
    Owns Inv lockedBy me (anything me) (updateByIDs ids f) fun _ => anything me := by
  refine Owns.wait fun env s answer s' inv holds acted => ?_
  split at acted
  · cases acted
    exact ⟨inv, le_rfl, fun _ _ => rfl, holds⟩
  · split at acted
    · cases acted
    · rename_i free
      split at acted
      · cases acted
        exact ⟨inv, le_rfl, fun _ _ => rfl, holds⟩
      · cases acted
        refine write_owns inv (fun id held => ?_) fun clean id spent row isRow => ?_
        · rw [if_neg]
          intro member
          exact free ⟨id, member, held⟩
        · split at isRow
          · rename_i member
            obtain ⟨old, isOld, rfl⟩ := Option.map_eq_some_iff.mp isRow
            have used := spent old isOld
            cases status : f.status with
            | none => simpa [RedeemCodeBatchUpdateFields.apply, status] using used
            | some new =>
                refine absurd ?_ clean
                rw [status]
                simp only [Option.isSome_some, if_true, State.statuses]
                rw [← used]
                exact List.mem_map_of_mem (List.mem_filterMap.mpr ⟨id, member, isOld⟩)
          · exact spent row isRow

theorem update_owns {id : ℤ} {row : RedeemCode} :
    Owns Inv lockedBy me (anything me) (update id row) fun _ => anything me := by
  refine Owns.wait fun env s answer s' inv holds acted => ?_
  split at acted
  · cases acted
    exact ⟨inv, le_rfl, fun _ _ => rfl, holds⟩
  · split at acted
    · cases acted
    · rename_i free
      split at acted
      · cases acted
        exact ⟨inv, le_rfl, fun _ _ => rfl, holds⟩
      · rename_i old isOld
        cases acted
        refine write_owns inv (fun j held => ?_) fun clean j spent new isNew => ?_
        · refine Function.update_of_ne (fun here => ?_) _ _
          exact held (here ▸ free)
        · by_cases here : j = id
          · subst here
            refine absurd ?_ clean
            rw [← spent old isOld]
            exact List.mem_map_of_mem (List.mem_filterMap.mpr ⟨j, List.mem_singleton_self _, isOld⟩)
          · rw [Function.update_of_ne here] at isNew
            exact spent new isNew

theorem deleteRow_owns {id : ℤ} :
    Owns Inv lockedBy me (anything me) (deleteRow id) fun _ => anything me := by
  refine Owns.wait fun env s answer s' inv holds acted => ?_
  split at acted
  · cases acted
    exact ⟨inv, le_rfl, fun _ _ => rfl, holds⟩
  · split at acted
    · cases acted
    · rename_i free
      cases acted
      have written := @write_owns me s (Function.update s.codes id none) [] inv ?_ ?_
      · simpa using written
      · intro j held
        refine Function.update_of_ne (fun here => ?_) _ _
        exact held (here ▸ free)
      · intro _ j spent new isNew
        by_cases here : j = id
        · subst here
          rw [Function.update_self] at isNew
          cases isNew
        · rw [Function.update_of_ne here] at isNew
          exact spent new isNew

/-! ### The calls -/

theorem redeemTx_owns {id userID : ℤ} {benefit : Benefit} :
    Owns Inv lockedBy me (anything me) (redeemTx me id userID benefit) fun _ => anything me := by
  refine Owns.bind use_owns fun claimed => ?_
  rcases claimed with none | claimed
  · exact .ret fun _ holds => holds
  · cases claimed with
    | true => exact finishRedeem_owns
    | false => exact .ret fun _ holds => holds

theorem redeem_owns {userID : ℤ} {code : String} :
    Owns Inv lockedBy me (anything me) (redeem me userID code) fun _ => anything me := by
  refine Owns.bind read_owns fun refused => ?_
  cases refused with
  | some err => exact .ret fun _ holds => holds
  | none =>
      refine Owns.bind read_owns fun got => ?_
      rcases got with none | ⟨id, row⟩
      · exact .ret fun _ holds => holds
      · refine Owns.bind read_owns fun now => ?_
        split
        · exact .ret fun _ holds => holds
        · split
          · exact .ret fun _ holds => holds
          · cases row.benefit with
            | error err => exact .ret fun _ holds => holds
            | ok benefit =>
                refine Owns.bind read_owns fun user => ?_
                cases user with
                | none => exact .ret fun _ holds => holds
                | some user => exact redeemTx_owns

theorem batchUpdate_owns {ids : List ℤ} {f : RedeemCodeBatchUpdateFields} :
    Owns Inv lockedBy me (anything me) (batchUpdate ids f) fun _ => anything me := by
  refine Owns.bind read_owns fun now => ?_
  cases f.refused ids now with
  | some err => exact .ret fun _ holds => holds
  | none =>
      refine Owns.bind read_owns fun existing => ?_
      cases existing with
      | none => exact .ret fun _ holds => holds
      | some rows =>
          dsimp only
          split
          · exact .ret fun _ holds => holds
          · split
            · exact .ret fun _ holds => holds
            · exact updateByIDs_owns

theorem batchDeleteRedeemCodes_owns {ids : List ℤ} :
    Owns Inv lockedBy me (anything me) (batchDeleteRedeemCodes ids) fun _ => anything me := by
  induction ids with
  | nil => exact .ret fun _ holds => holds
  | cons id rest ih => exact Owns.bind deleteRow_owns fun _ => ih

theorem program_owns (call : Call) :
    Owns Inv lockedBy me (anything me) (call.program me) fun _ => anything me := by
  have done : ∀ {α : Type} {a : α},
      Owns Inv lockedBy me (anything me) (pure a : Op α) fun _ => anything me :=
    .ret fun _ holds => holds
  cases call with
  | redeem userID code => exact Owns.bind redeem_owns fun _ => done
  | batchUpdate ids fields => exact Owns.bind batchUpdate_owns fun _ => done
  | expire id =>
      refine Owns.bind (Owns.bind read_owns fun got => ?_) fun _ => done
      cases got with
      | none => exact done
      | some row => exact update_owns
  | delete id =>
      refine Owns.bind (Owns.bind read_owns fun got => ?_) fun _ => done
      cases got with
      | none => exact done
      | some row =>
          dsimp only
          split
          · exact done
          · exact deleteRow_owns
  | batchDelete ids => exact batchDeleteRedeemCodes_owns

end Owns

/-! ### Every run -/

/-- **A redeem code is used at most once.** After every schedule of any calls, while no write of
a status has found a used code: no code has been granted twice, and whatever was used after the
first turns is used, or gone, after the later ones. -/
theorem redeemed_at_most_once (calls : ℕ → Call) (s : State) (fresh : s.grants = [])
    (first later : List (ℕ × Env)) (clean : Clean (run calls s (first ++ later)).shared) :
    ((run calls s (first ++ later)).shared.grants.map (·.codeID)).Nodup ∧
      ∀ id row row', (run calls s first).shared.codes id = some row → row.status = .used →
        (run calls s (first ++ later)).shared.codes id = some row' → row'.status = .used := by
  have start : Inv s := by
    intro _
    constructor
    · rw [fresh]
      exact List.nodup_nil
    · rw [fresh]
      exact fun _ member => (List.not_mem_nil member).elim
  obtain ⟨inv, grows⟩ : Inv (run calls s (first ++ later)).shared ∧
      (run calls s first).shared ≤ (run calls s (first ++ later)).shared :=
    Owns.run_append (c := { shared := s, threads := fun me => (calls me).program me })
      (K := fun me => anything me) start (fun _ => ⟨trivial, trivial⟩)
      (fun me => program_owns (calls me)) first later
  refine ⟨(inv clean).once, fun id row row' before used after => ?_⟩
  refine grows.spent clean id (fun r isRow => ?_) row' after
  rw [before] at isRow
  cases isRow
  exact used

/-! ### A batch update that overtakes a redemption -/

namespace Sample

/-- One unused code of 5, and two users. -/
def start : State where
  codes id := if id = 1 then some { value := ⟨500000000⟩ } else none
  byCode code := if code = "c" then some 1 else none
  accounts := { users := fun id => if id ∈ [1, 2] then some {} else none }

/-- Two redemptions of the code, and a batch update that makes it unused. -/
def calls : ℕ → Call
  | 0 => .redeem 1 "c"
  | 1 => .redeem 2 "c"
  | _ => .batchUpdate [1] { status := some .unused }

def turns (me n : ℕ) : List (ℕ × Env) := List.replicate n (me, {})

/-- The batch update checks the code before the first redemption and writes it afterwards. -/
def overtaken : List (ℕ × Env) := turns 2 2 ++ turns 0 6 ++ turns 2 1 ++ turns 1 6

/-- Both redemptions find the code unused; then the batch update comes. -/
def contended : List (ℕ × Env) := turns 0 4 ++ turns 1 4 ++ turns 0 1 ++ turns 1 1 ++ turns 0 1

end Sample

theorem redeemed_at_most_once_sample :
    (run Sample.calls Sample.start (Sample.contended ++ (Sample.turns 1 2 ++
        Sample.turns 2 3))).shared.grants =
      [{ codeID := 1, userID := 1, benefit := .balance 5 }] ∧
    ((run Sample.calls Sample.start (Sample.contended ++ (Sample.turns 1 2 ++
        Sample.turns 2 3))).shared.grants.map (·.codeID)).Nodup :=
  ⟨by decide +kernel,
    (redeemed_at_most_once Sample.calls Sample.start rfl Sample.contended
      (Sample.turns 1 2 ++ Sample.turns 2 3) (by decide +kernel)).1⟩

/-- The code is granted to both users. -/
theorem redeemed_twice :
    ¬∀ schedule, ((run Sample.calls Sample.start schedule).shared.grants.map (·.codeID)).Nodup := by
  intro once
  have granted : (run Sample.calls Sample.start Sample.overtaken).shared.grants.map (·.codeID) =
      [1, 1] := by
    decide +kernel
  have nodup := once Sample.overtaken
  rw [granted] at nodup
  exact absurd nodup (by decide)

end Sub2api.Redeem
