import Sub2api.Websearch.Manager

/-!
# The web search quota

`Ledger.Books` is what holds of every counter in every run: it shows the searches done and under way
since the last reset, less the counts taken back since then that were made before it. Where there are
none of these, the quota holds (`quota_never_exceeded`).
-/

namespace Sub2api.Websearch

open Interleave

/-! ### Ledgers -/

namespace Ledger

variable {l : Ledger} {t : Ticket} {me : ℕ} {limit : ℤ}

/-- The counts taken back since the last reset that were made before it. -/
def stale (l : Ledger) : ℕ := l.undone.countP fun u => u.made < u.undone && u.undone == l.resets

def pendingIn (l : Ledger) (e : ℕ) : ℕ := l.pending.countP fun t => t.resets == e

def admittedIn (l : Ledger) (e : ℕ) : ℕ := l.pending.countP fun t => t.admitted && t.resets == e

structure Books (l : Ledger) : Prop where
  accounts : l.used + l.stale = l.searched.count l.resets + l.pendingIn l.resets
  searched_le : ∀ e ∈ l.searched, e ≤ l.resets
  pending_le : ∀ t ∈ l.pending, t.resets ≤ l.resets
  undone_le : ∀ u ∈ l.undone, u.made ≤ u.undone ∧ u.undone ≤ l.resets

/-- No count was taken back after a reset that came after it was made. -/
def Clean (l : Ledger) : Prop := ∀ u ∈ l.undone, u.made = u.undone

instance (l : Ledger) : Decidable l.Clean := inferInstanceAs (Decidable (∀ u ∈ _, _))

/-- Of the reservations between two resets at most `limit` succeed or are under way. -/
def Capped (limit : ℤ) (l : Ledger) : Prop :=
  l.Clean → ∀ e, l.searched.count e + l.admittedIn e ≤ limit.toNat

theorem quotaIncrScript_eq (key : Option Counter) :
    quotaIncrScript key = (key.elim 0 Counter.value + 1, ⟨key.elim 0 Counter.value + 1, true⟩) := by
  cases key with
  | none => rfl
  | some c =>
      obtain ⟨value, volatile⟩ := c
      cases volatile with
      | true => simp [quotaIncrScript, Counter.add, Counter.expire]
      | false => simp [quotaIncrScript, Counter.add, Counter.expire]

theorem reserve_fst : (l.reserve me limit).1 = (l.used + 1, ⟨me, l.resets, l.used + 1 ≤ limit⟩) := by
  rw [reserve, quotaIncrScript_eq]
  rfl

theorem reserve_snd : (l.reserve me limit).2 =
    { l with
      counter := some ⟨l.used + 1, true⟩
      pending := ⟨me, l.resets, l.used + 1 ≤ limit⟩ :: l.pending } := by
  rw [reserve, quotaIncrScript_eq]
  rfl

theorem used_decr : (l.decr t).used = l.used - 1 := by
  cases key : l.counter with
  | none => simp [used, decr, Counter.add, key]
  | some c =>
      simp only [used, decr, Counter.add, key, Option.elim_some]
      omega

/-- What a step leaves pending beside a ticket, counted. -/
theorem countP_pending (mem : t ∈ l.pending) (p : Ticket → Bool) :
    l.pending.countP p = (l.pending.erase t).countP p + if p t then 1 else 0 := by
  rw [(List.perm_cons_erase mem).countP_eq p, List.countP_cons]

theorem filter_erase {other : ℕ} (differ : t.owner ≠ other) :
    (l.pending.erase t).filter (·.owner == other) = l.pending.filter (·.owner == other) := by
  rw [← List.erase_filter]
  apply List.erase_of_not_mem
  intro mem
  exact differ (beq_iff_eq.mp (List.mem_filter.mp mem).2)

theorem Clean.stale_eq (clean : l.Clean) : l.stale = 0 := by
  rw [stale, List.countP_eq_zero]
  intro u mem
  simp [clean u mem]

theorem reserve_books (books : l.Books) : (l.reserve me limit).2.Books := by
  rw [reserve_snd]
  constructor
  · have before := books.accounts
    have pending : ∀ t : Ticket, t.resets = l.resets →
        (t :: l.pending).countP (fun t => t.resets == l.resets) = l.pendingIn l.resets + 1 := by
      intro t here
      rw [List.countP_cons, if_pos (beq_iff_eq.mpr here), pendingIn]
    change (l.used + 1 + l.stale : ℤ) = l.searched.count l.resets + List.countP _ (_ :: l.pending)
    rw [pending _ rfl]
    omega
  · exact books.searched_le
  · intro t mem
    rcases List.mem_cons.mp mem with rfl | old
    · exact le_rfl
    · exact books.pending_le t old
  · exact books.undone_le

theorem stale_decr : (l.decr t).stale = l.stale + if t.resets < l.resets then 1 else 0 := by
  simp [stale, decr, List.countP_append, List.countP_cons]

theorem decr_books (books : l.Books) (mem : t ∈ l.pending) : (l.decr t).Books := by
  have le := books.pending_le t mem
  constructor
  · have before := books.accounts
    have left := countP_pending mem fun t => t.resets == l.resets
    rw [pendingIn, left] at before
    rw [used_decr, stale_decr]
    change (l.used - 1 + _ : ℤ) = l.searched.count l.resets +
      ((l.pending.erase t).countP fun t => t.resets == l.resets : ℕ)
    by_cases current : t.resets = l.resets
    · rw [if_pos (beq_iff_eq.mpr current)] at before
      rw [if_neg (by omega)]
      omega
    · rw [if_neg fun same => current (beq_iff_eq.mp same)] at before
      rw [if_pos (lt_of_le_of_ne le current)]
      omega
  · exact books.searched_le
  · exact fun t' left => books.pending_le t' (List.mem_of_mem_erase left)
  · intro u mem
    rcases List.mem_append.mp mem with old | new
    · exact books.undone_le u old
    · rw [List.mem_singleton.mp new]
      exact ⟨le, le_rfl⟩

theorem succeed_books (books : l.Books) (mem : t ∈ l.pending) : (l.succeed t).Books := by
  constructor
  · have before := books.accounts
    have left := countP_pending mem fun t => t.resets == l.resets
    rw [pendingIn, left] at before
    change (l.used + l.stale : ℤ) = ((t.resets :: l.searched).count l.resets : ℕ) +
      ((l.pending.erase t).countP fun t => t.resets == l.resets : ℕ)
    rw [List.count_cons]
    omega
  · intro e mem'
    rcases List.mem_cons.mp mem' with rfl | old
    · exact books.pending_le t mem
    · exact books.searched_le e old
  · exact fun t' left => books.pending_le t' (List.mem_of_mem_erase left)
  · exact books.undone_le

theorem reset_books (books : l.Books) : l.reset.Books := by
  constructor
  · have searched : l.searched.count (l.resets + 1) = 0 :=
      List.count_eq_zero.mpr fun mem => absurd (books.searched_le _ mem) (by omega)
    have pending : l.pendingIn (l.resets + 1) = 0 := by
      rw [pendingIn, List.countP_eq_zero]
      intro t mem
      have := books.pending_le t mem
      rw [beq_iff_eq]
      omega
    have stale : l.reset.stale = 0 := by
      rw [Ledger.stale, List.countP_eq_zero]
      intro u mem
      have := (books.undone_le u mem).2
      rw [Bool.and_eq_true, decide_eq_true_eq, beq_iff_eq]
      change ¬(u.made < u.undone ∧ u.undone = l.resets + 1)
      omega
    change (0 + l.reset.stale : ℤ) = l.searched.count (l.resets + 1) + l.pendingIn (l.resets + 1)
    rw [searched, pending, stale]
    rfl
  · exact fun e mem => (books.searched_le e mem).trans (Nat.le_succ _)
  · exact fun t mem => (books.pending_le t mem).trans (Nat.le_succ _)
  · exact fun u mem => ⟨(books.undone_le u mem).1, (books.undone_le u mem).2.trans (Nat.le_succ _)⟩

theorem Books.used_nonneg (books : l.Books) (clean : l.Clean) : 0 ≤ l.used := by
  have accounts := books.accounts
  rw [clean.stale_eq] at accounts
  omega

/-- With nothing under way the counter is the number of successful searches exactly when no count of
this period was taken back late. -/
theorem Books.used_eq_iff (books : l.Books) (settled : l.pending = []) :
    l.used = l.searched.count l.resets ↔ l.stale = 0 := by
  have accounts := books.accounts
  rw [pendingIn, settled, List.countP_nil] at accounts
  omega

/-- A reservation is admitted when the counter shows room, which in a clean ledger is the room that
the searches done and under way have left. -/
theorem reserve_capped (books : l.Books) (capped : l.Capped limit) :
    (l.reserve me limit).2.Capped limit := by
  rw [reserve_snd]
  intro clean e
  have clean : l.Clean := clean
  have before := capped clean e
  have accounts := books.accounts
  have admitted : l.admittedIn l.resets ≤ l.pendingIn l.resets := by
    apply List.countP_mono_left
    intro t _ both
    exact (Bool.and_eq_true _ _ ▸ both).2
  rw [clean.stale_eq] at accounts
  change l.searched.count e + List.countP (fun t => t.admitted && t.resets == e) (_ :: l.pending) ≤ _
  rw [List.countP_cons]
  change l.searched.count e + (l.admittedIn e + if (_ && l.resets == e) = true then 1 else 0) ≤ _
  by_cases here : l.resets = e
  · subst here
    by_cases room : l.used + 1 ≤ limit
    · rw [decide_eq_true room, beq_self_eq_true, Bool.and_true, if_pos rfl]
      omega
    · rw [decide_eq_false room, Bool.false_and, if_neg Bool.false_ne_true]
      omega
  · rw [beq_eq_false_iff_ne.mpr here, Bool.and_false, if_neg Bool.false_ne_true]
    exact before

theorem decr_capped (capped : l.Capped limit) (mem : t ∈ l.pending) : (l.decr t).Capped limit := by
  intro clean e
  have before := capped (fun u old => clean u (List.mem_append_left _ old)) e
  have left := countP_pending mem fun t => t.admitted && t.resets == e
  rw [admittedIn, left] at before
  change l.searched.count e +
    (l.pending.erase t).countP (fun t => t.admitted && t.resets == e) ≤ limit.toNat
  omega

theorem succeed_capped (capped : l.Capped limit) (mem : t ∈ l.pending) (admitted : t.admitted) :
    (l.succeed t).Capped limit := by
  intro clean e
  have before := capped clean e
  have left := countP_pending mem fun t => t.admitted && t.resets == e
  rw [admittedIn, left, admitted, Bool.true_and] at before
  change (t.resets :: l.searched).count e +
    (l.pending.erase t).countP (fun t => t.admitted && t.resets == e) ≤ limit.toNat
  rw [List.count_cons]
  omega

end Ledger

/-! ### States -/

/-- Counts taken back stay so. -/
instance : Preorder State where
  le s s' := ∀ type, (s.ledgers type).undone <+: (s'.ledgers type).undone
  le_refl _ _ := List.prefix_refl _
  le_trans _ _ _ first second type := (first type).trans (second type)

/-- The counts that a run has made and not ended. -/
def heldBy (s : State) (me : ℕ) (type : String) : List Ticket :=
  (s.ledgers type).pending.filter (·.owner == me)

structure Inv (type : String) (limit : ℤ) (s : State) : Prop where
  books : ∀ type, (s.ledgers type).Books
  capped : (s.ledgers type).Capped limit

/-- The configurations give a provider one limit. -/
def Constant (type : String) (limit : ℤ) (configs : List ProviderConfig) : Prop :=
  ∀ cfg ∈ configs, cfg.type = type → cfg.quotaLimit = limit

section Owns

variable {type : String} {limit : ℤ} {me : ℕ} {s : State} {cfg : ProviderConfig} {t : Ticket}

/-- Nothing about the counts, and a fact beside the state. -/
def knowing (me : ℕ) (p : Prop) : Assertion heldBy me := .owning (fun _ => p) .none

/-- The run has made a count of a provider. -/
def holding (me : ℕ) (type : String) (t : Ticket) : Assertion heldBy me :=
  .owning (fun held => t ∈ held type) .none

theorem mem_of_holding {type : String} (holds : (holding me type t).holds s) :
    t ∈ (s.ledgers type).pending ∧ t.owner = me := by
  obtain ⟨mem, own⟩ := List.mem_filter.mp holds.1
  exact ⟨mem, beq_iff_eq.mp own⟩

@[simp] theorem ledgers_updateLedger (l : Ledger) :
    (s.updateLedger type l).ledgers type = l := Function.update_self ..

theorem ledgers_updateLedger_of_ne {other : String} (differ : other ≠ type) (l : Ledger) :
    (s.updateLedger type l).ledgers other = s.ledgers other := Function.update_of_ne differ ..

/-- A step on the ledger of a provider. -/
theorem updateLedger_keeps {type' : String} {l : Ledger} (inv : Inv type limit s)
    (books : l.Books) (capped : type' = type → l.Capped limit)
    (grows : (s.ledgers type').undone <+: l.undone)
    (others : ∀ other, other ≠ me →
      l.pending.filter (·.owner == other) = (s.ledgers type').pending.filter (·.owner == other)) :
    Inv type limit (s.updateLedger type' l) ∧ s ≤ s.updateLedger type' l ∧
      ∀ other, other ≠ me → heldBy (s.updateLedger type' l) other = heldBy s other := by
  refine ⟨⟨fun type'' => ?_, ?_⟩, fun type'' => ?_, fun other differ => funext fun type'' => ?_⟩
  · by_cases here : type'' = type'
    · rw [here, ledgers_updateLedger]
      exact books
    · rw [ledgers_updateLedger_of_ne here]
      exact inv.books type''
  · by_cases here : type = type'
    · rw [here, ledgers_updateLedger]
      exact capped here.symm
    · rw [ledgers_updateLedger_of_ne here]
      exact inv.capped
  · by_cases here : type'' = type'
    · rw [here, ledgers_updateLedger]
      exact grows
    · have same := ledgers_updateLedger_of_ne (s := s) here l
      exact same ▸ List.prefix_refl _
  · by_cases here : type'' = type'
    · rw [here, heldBy, heldBy, ledgers_updateLedger]
      exact others other differ
    · rw [heldBy, heldBy, ledgers_updateLedger_of_ne here]

theorem read_owns {α : Type} {answer : Env → State → α} {K : Assertion heldBy me} :
    Owns (Inv type limit) heldBy me K (.atomic fun env s => (answer env s, s)) fun _ => K :=
  .act fun _ _ inv holds => ⟨inv, le_rfl, fun _ _ => rfl, holds⟩

/-! ### The counter -/

theorem quotaIncr_owns (constant : cfg.type = type → cfg.quotaLimit = limit) :
    Owns (Inv type limit) heldBy me (knowing me True) (quotaIncr me cfg) fun got =>
      .owning (fun held => got.2 ∈ held cfg.type ∧
        got.2.admitted = decide (got.1 ≤ cfg.quotaLimit)) .none := by
  refine .act fun env s inv _ => ?_
  have kept := @updateLedger_keeps type limit me s cfg.type
    ((s.ledgers cfg.type).reserve me cfg.quotaLimit).2 inv
    (Ledger.reserve_books (inv.books cfg.type)) ?_ ?_ ?_
  · refine ⟨kept.1, kept.2.1, kept.2.2, ⟨?_, ?_⟩, trivial⟩
    · rw [heldBy, ledgers_updateLedger, Ledger.reserve_fst, Ledger.reserve_snd]
      apply List.mem_filter.mpr
      exact ⟨List.mem_cons_self, beq_self_eq_true _⟩
    · rw [Ledger.reserve_fst]
  · rintro here
    rw [constant here, here]
    exact Ledger.reserve_capped (inv.books type) inv.capped
  · exact Ledger.reserve_snd ▸ List.prefix_refl _
  · intro other differ
    rw [Ledger.reserve_snd]
    exact List.filter_cons_of_neg fun same => differ (beq_iff_eq.mp same).symm

theorem quotaDecr_owns {type' : String} :
    Owns (Inv type limit) heldBy me (holding me type' t) (quotaDecr type' t) fun _ =>
      knowing me True := by
  refine .act fun env s inv holds => ?_
  obtain ⟨mem, own⟩ := mem_of_holding holds
  have kept := @updateLedger_keeps type limit me s type' ((s.ledgers type').decr t) inv
    (Ledger.decr_books (inv.books type') mem) ?_ (List.prefix_append _ _) ?_
  · exact ⟨kept.1, kept.2.1, kept.2.2, trivial, trivial⟩
  · rintro rfl
    exact Ledger.decr_capped inv.capped mem
  · exact fun other differ => Ledger.filter_erase fun same => differ (same.symm.trans own)

/-- What a search may start with: a count that was admitted, or none. -/
def reserved (me : ℕ) (type : String) : Option Ticket → Assertion heldBy me
  | some t => .owning (fun held => t ∈ held type ∧ t.admitted = true) .none
  | none => knowing me True

theorem tryReserveQuota_owns (constant : cfg.type = type → cfg.quotaLimit = limit) :
    Owns (Inv type limit) heldBy me (knowing me True) (tryReserveQuota me cfg) fun got =>
      if got.1 then reserved me cfg.type got.2 else knowing me True := by
  unfold tryReserveQuota
  split
  · exact .ret fun _ holds => holds
  · refine .bind (quotaIncr_owns constant) fun got => ?_
    obtain ⟨newVal, ticket⟩ := got
    dsimp only
    split
    · refine .bind (.mono quotaDecr_owns (fun s holds => ⟨holds.1.1, trivial⟩) fun _ _ post => post)
        fun _ => .ret fun _ holds => holds
    · rename_i room
      refine .ret fun s holds => ⟨⟨holds.1.1, ?_⟩, trivial⟩
      rw [holds.1.2]
      exact decide_eq_true (not_lt.mp room)

theorem executeSearch_owns {ticket : Option Ticket} :
    Owns (Inv type limit) heldBy me (reserved me cfg.type ticket) (executeSearch cfg ticket)
      fun failure => if failure.isSome then reserved me cfg.type ticket else knowing me True := by
  refine .act fun env s inv holds => ?_
  cases failed : env.failure with
  | some failure => exact ⟨inv, le_rfl, fun _ _ => rfl, holds⟩
  | none =>
      cases ticket with
      | none => exact ⟨inv, le_rfl, fun _ _ => rfl, holds⟩
      | some t =>
          obtain ⟨mem, own⟩ := mem_of_holding ⟨holds.1.1, trivial⟩
          have kept := @updateLedger_keeps type limit me s cfg.type
            ((s.ledgers cfg.type).succeed t) inv (Ledger.succeed_books (inv.books cfg.type) mem) ?_
            (List.prefix_refl _) ?_
          · exact ⟨kept.1, kept.2.1, kept.2.2, trivial, trivial⟩
          · intro here
            rw [here] at mem ⊢
            exact Ledger.succeed_capped inv.capped mem holds.1.2
          · exact fun other differ => Ledger.filter_erase fun same => differ (same.symm.trans own)

theorem rollbackQuota_owns :
    Owns (Inv type limit) heldBy me (holding me cfg.type t) (rollbackQuota cfg t) fun _ =>
      knowing me True := by
  unfold rollbackQuota
  split
  · exact .ret fun _ _ => ⟨trivial, trivial⟩
  · exact quotaDecr_owns

theorem rollbackIncremented_owns {ticket : Option Ticket} :
    Owns (Inv type limit) heldBy me (reserved me cfg.type ticket) (rollbackIncremented cfg ticket)
      fun _ => knowing me True := by
  cases ticket with
  | none => exact .ret fun _ holds => holds
  | some t =>
      exact .mono rollbackQuota_owns (fun _ holds => ⟨holds.1.1, trivial⟩) fun _ _ post => post

theorem markProxyUnavailable_owns {url : String} :
    Owns (Inv type limit) heldBy me (knowing me True) (markProxyUnavailable cfg url) fun _ =>
      knowing me True := by
  refine .act fun env s inv holds => ?_
  dsimp only
  split
  · exact ⟨inv, le_rfl, fun _ _ => rfl, holds⟩
  · exact ⟨⟨inv.books, inv.capped⟩, fun _ => List.prefix_refl _, fun _ _ => rfl, holds⟩

/-! ### The calls -/

variable {configs : List ProviderConfig} {req : SearchRequest}

theorem isProxyAvailable_owns {proxyID : ℤ} :
    Owns (Inv type limit) heldBy me (knowing me True) (isProxyAvailable proxyID) fun _ =>
      knowing me True := by
  unfold isProxyAvailable
  split
  · exact .ret fun _ holds => holds
  · exact read_owns

theorem remainingQuota_owns :
    Owns (Inv type limit) heldBy me (knowing me True) (remainingQuota cfg) fun _ =>
      knowing me True := by
  unfold remainingQuota
  split
  · exact .bind read_owns fun _ => .ret fun _ holds => holds
  · exact .ret fun _ holds => holds

theorem filterAvailableProviders_owns {url : String} :
    Owns (Inv type limit) heldBy me (knowing me True) (filterAvailableProviders url configs)
      fun out => knowing me (out ⊆ configs) := by
  induction configs with
  | nil => exact .ret fun _ _ => ⟨List.Subset.refl _, trivial⟩
  | cons cfg rest ih =>
      refine .bind read_owns fun now => ?_
      split
      · exact .mono ih (fun _ holds => holds)
          fun _ _ post => ⟨List.subset_cons_of_subset _ post.1, trivial⟩
      · refine .bind isProxyAvailable_owns fun available => .bind ih fun out => .ret fun s holds => ?_
        cases available with
        | true => exact ⟨List.cons_subset_cons _ holds.1, trivial⟩
        | false => exact ⟨List.subset_cons_of_subset _ holds.1, trivial⟩

theorem computeWeights_owns :
    Owns (Inv type limit) heldBy me (knowing me True) (computeWeights configs)
      fun items => knowing me (items.map Weighted.cfg = configs) := by
  induction configs with
  | nil => exact .ret fun _ _ => ⟨rfl, trivial⟩
  | cons cfg rest ih =>
      refine .bind remainingQuota_owns fun w => .bind ih fun items => .ret fun s holds => ?_
      exact ⟨by rw [List.map_cons, holds.1], trivial⟩

theorem mem_of_mem_sort {rand : ℕ → ℚ} {items : List Weighted} {item : Weighted}
    (mem : item ∈ sortByStableRandomWeight rand items) : item ∈ items := by
  unfold sortByStableRandomWeight at mem
  split at mem
  · exact mem
  · obtain ⟨pair, sorted, rfl⟩ := List.mem_map.mp mem
    obtain ⟨⟨item, i⟩, numbered, rfl⟩ := List.mem_map.mp (List.mem_mergeSort.mp sorted)
    exact List.fst_mem_of_mem_zipIdx numbered

theorem selectByQuotaWeight_owns :
    Owns (Inv type limit) heldBy me (knowing me True) (selectByQuotaWeight configs)
      fun selected => knowing me (selected ⊆ configs) := by
  refine .bind computeWeights_owns fun items => .bind read_owns fun rand => ?_
  refine .ret fun s holds => ⟨?_, trivial⟩
  rw [← holds.1]
  intro cfg mem
  obtain ⟨item, selected, rfl⟩ := List.mem_map.mp mem
  apply List.mem_map_of_mem
  rcases List.mem_append.mp selected with sorted | rest
  · exact (List.mem_filter.mp (mem_of_mem_sort sorted)).1
  · exact (List.mem_filter.mp rest).1

theorem searchProviders_owns (constant : Constant type limit configs) :
    Owns (Inv type limit) heldBy me (knowing me True) (searchProviders me req configs) fun _ =>
      knowing me True := by
  induction configs with
  | nil => exact .ret fun _ holds => holds
  | cons cfg rest ih =>
      have next := ih fun cfg' later => constant cfg' (List.mem_cons_of_mem _ later)
      refine .bind (tryReserveQuota_owns (constant cfg List.mem_cons_self)) fun got => ?_
      obtain ⟨allowed, ticket⟩ := got
      cases allowed with
      | false => exact next
      | true =>
          refine .bind executeSearch_owns fun failure => ?_
          cases failure with
          | none => exact .ret fun _ holds => holds
          | some failure =>
              refine .bind rollbackIncremented_owns fun _ => ?_
              cases failure with
              | other => exact next
              | proxy =>
                  refine .bind markProxyUnavailable_owns fun _ => ?_
                  split
                  · exact .ret fun _ holds => holds
                  · exact next

theorem searchWithBestProvider_owns (constant : Constant type limit configs) :
    Owns (Inv type limit) heldBy me (knowing me True) (searchWithBestProvider me configs req)
      fun _ => knowing me True := by
  unfold searchWithBestProvider
  split
  · exact .ret fun _ holds => holds
  · refine .bind filterAvailableProviders_owns fun candidates => ?_
    refine .given (fun _ holds => holds.1) fun available => ?_
    split
    · exact .ret fun _ _ => ⟨trivial, trivial⟩
    · refine .bind (.mono selectByQuotaWeight_owns (fun _ _ => ⟨trivial, trivial⟩)
        fun _ _ post => post) fun selected => ?_
      refine .given (fun _ holds => holds.1) fun chosen => ?_
      refine .mono (searchProviders_owns fun cfg mem => constant cfg (available (chosen mem)))
        (fun _ _ => ⟨trivial, trivial⟩) fun _ _ post => post

theorem reset_owns {type' : String} :
    Owns (Inv type limit) heldBy me (knowing me True) (resetUsage type') fun _ =>
      knowing me True := by
  refine .act fun env s inv holds => ?_
  have kept := @updateLedger_keeps type limit me s type' (s.ledgers type').reset inv
    (Ledger.reset_books (inv.books type')) ?_ (List.prefix_refl _) fun _ _ => rfl
  · exact ⟨kept.1, kept.2.1, kept.2.2, holds⟩
  · rintro rfl
    exact inv.capped

theorem expires_owns {type' : String} :
    Owns (Inv type limit) heldBy me (knowing me True)
      (.atomic fun _ s => ((), s.updateLedger type' (s.ledgers type').expires) : Op Unit) fun _ =>
      knowing me True := by
  refine .act fun env s inv holds => ?_
  have cases_ : (s.ledgers type').expires = (s.ledgers type').reset ∨
      (s.ledgers type').expires = s.ledgers type' := by
    unfold Ledger.expires
    split
    · exact Or.inl rfl
    · exact Or.inr rfl
  dsimp only
  rcases cases_ with gone | stays
  · rw [gone]
    have kept := @updateLedger_keeps type limit me s type' (s.ledgers type').reset inv
      (Ledger.reset_books (inv.books type')) ?_ (List.prefix_refl _) fun _ _ => rfl
    · exact ⟨kept.1, kept.2.1, kept.2.2, holds⟩
    · rintro rfl
      exact inv.capped
  · rw [stays]
    have kept := @updateLedger_keeps type limit me s type' (s.ledgers type') inv (inv.books type')
      (by rintro rfl; exact inv.capped) (List.prefix_refl _) fun _ _ => rfl
    exact ⟨kept.1, kept.2.1, kept.2.2, holds⟩

theorem program_owns (call : Call)
    (constant : ∀ configs req, call = .search configs req → Constant type limit configs) :
    Owns (Inv type limit) heldBy me (knowing me True) (call.program me) fun _ =>
      knowing me True := by
  cases call with
  | search configs req =>
      exact .bind (searchWithBestProvider_owns (constant configs req rfl)) fun _ =>
        .ret fun _ holds => holds
  | reset type' => exact reset_owns
  | counterExpires type' => exact expires_owns
  | proxyMarkExpires proxyID =>
      exact .act fun _ _ inv holds =>
        ⟨⟨inv.books, inv.capped⟩, fun _ => List.prefix_refl _, fun _ _ => rfl, holds⟩

end Owns

/-! ### Every run -/

/-- No key and no history yet. -/
def State.Fresh (s : State) : Prop := ∀ type, s.ledgers type = {}

theorem run_inv {type : String} {limit : ℤ} {calls : ℕ → Call} {s : State} (fresh : s.Fresh)
    (constant : ∀ me configs req, calls me = .search configs req → Constant type limit configs)
    (first later : List (ℕ × Env)) :
    Inv type limit (run calls s first).shared ∧
      (run calls s first).shared ≤ (run calls s (first ++ later)).shared := by
  have start : Inv type limit s := by
    constructor
    · intro type
      rw [fresh type]
      exact ⟨rfl, by simp, by simp, by simp⟩
    · intro _ e
      rw [fresh type]
      exact Nat.zero_le _
  have owns : ∀ me, Owns (Inv type limit) heldBy me (knowing me True) ((calls me).program me)
      fun _ => knowing me True := fun me => program_owns (calls me) (constant me)
  constructor
  · exact (Owns.run (c := { shared := s, threads := fun me => (calls me).program me })
      (K := fun me => knowing me True) start (fun _ => ⟨trivial, trivial⟩) owns first).1
  · exact (Owns.run_append (c := { shared := s, threads := fun me => (calls me).program me })
      (K := fun me => knowing me True) start (fun _ => ⟨trivial, trivial⟩) owns first later).2

/-- **The web search quota is never exceeded** while no count is taken back after a reset that came
after it was made: between two resets at most `limit` of the reservations lead to a successful
search, the counter is not negative, and with nothing under way it is the number of successful
searches reserved since the last reset. -/
theorem quota_never_exceeded (calls : ℕ → Call) (s : State) (fresh : s.Fresh) (type : String)
    (limit : ℤ)
    (constant : ∀ me configs req, calls me = .search configs req → Constant type limit configs)
    (first later : List (ℕ × Env)) (clean : ((run calls s (first ++ later)).shared.ledgers type).Clean) :
    let l := (run calls s first).shared.ledgers type
    (∀ e, l.searched.count e ≤ limit.toNat) ∧ 0 ≤ l.used ∧
      (l.pending = [] → l.used = l.searched.count l.resets) := by
  obtain ⟨inv, grows⟩ := run_inv fresh constant first later
  have clean : ((run calls s first).shared.ledgers type).Clean := fun u mem =>
    clean u ((grows type).subset mem)
  have books := inv.books type
  refine ⟨fun e => ?_, books.used_nonneg clean, fun settled => ?_⟩
  · exact (Nat.le_add_right _ _).trans (inv.capped clean e)
  · exact (books.used_eq_iff settled).mpr clean.stale_eq

/-! ### A search that fails after the reset -/

namespace Sample

def provider : ProviderConfig := { type := "brave", apiKey := "k", quotaLimit := 1 }

/-- An administrator resets the usage once; the others search. -/
def calls : ℕ → Call
  | 1 => .reset "brave"
  | _ => .search [provider] { query := "weather" }

theorem constant (me : ℕ) (configs : List ProviderConfig) (req : SearchRequest)
    (call : calls me = .search configs req) : Constant "brave" 1 configs := by
  have only : configs = [provider] := by
    unfold calls at call
    split at call
    · cases call
    · cases call
      rfl
  intro cfg mem _
  rw [only, List.mem_singleton] at mem
  rw [mem]
  rfl

def turns (me n : ℕ) : List (ℕ × Env) := List.replicate n (me, {})

/-- The first search counts itself before the reset and fails after it; two more follow. -/
def late : List (ℕ × Env) :=
  turns 0 4 ++ turns 1 1 ++ [(0, { failure := some .other })] ++ turns 0 1 ++ turns 2 5 ++
    turns 3 5

/-- A search counts itself, fails and takes its count back; another caller searches. -/
def refunded : List (ℕ × Env) :=
  turns 0 4 ++ [(0, { failure := some .other })] ++ turns 0 1 ++ turns 2 4

end Sample

theorem quota_never_exceeded_sample :
    let l := (run Sample.calls {} Sample.refunded).shared.ledgers "brave"
    (∀ e, l.searched.count e ≤ (1 : ℤ).toNat) ∧ 0 ≤ l.used ∧
      (l.pending = [] → l.used = l.searched.count l.resets) :=
  quota_never_exceeded Sample.calls {} (fun _ => rfl) "brave" 1 Sample.constant
    Sample.refunded (Sample.turns 2 1) (by decide +kernel)

/-- The late rollback lands on the new counter, which then admits two searches under a limit of
one. -/
theorem quota_exceeded :
    ¬∀ schedule : List (ℕ × Env),
      ∀ e, (((run Sample.calls {} schedule).shared.ledgers "brave").searched.count e : ℤ) ≤
        Sample.provider.quotaLimit := by
  intro never
  have twice : ((run Sample.calls {} Sample.late).shared.ledgers "brave").searched = [1, 1] := by
    decide +kernel
  have once := never Sample.late 1
  rw [twice] at once
  exact absurd once (by decide)

end Sub2api.Websearch
