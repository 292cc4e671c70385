import Mathlib.Data.Finmap
import Sub2api.Links.Trail

/-!
# Proxy fall-back

`ResolveProxyFallbackTarget` follows the backup links of an expired proxy. Its loop walks the trail
of the start (`resolve_of_chain`), whose finite length is the bound on its turns, and leaves it at
the first usable node.
-/

namespace Sub2api.Proxies

open Links

/-! ### The source -/

inductive FallbackMode where
  | none
  | proxy
  | direct
  | other (text : String)
  deriving DecidableEq

inductive Status where
  | active
  | other (text : String)
  deriving DecidableEq

structure Proxy where
  id : ℤ
  status : Status
  expiresAt : Option ℤ
  fallbackMode : FallbackMode
  backupProxyID : Option ℤ

def Proxy.isActive (p : Proxy) : Bool := p.status == .active

def Proxy.isExpired (p : Proxy) (now : ℤ) : Bool := p.expiresAt.any (· ≤ now)

/-- A Go map from ids to proxies. -/
abbrev ProxyMap := Finmap fun _ : ℤ => Proxy

/-- The target and the change flag that the function returns. -/
abbrev Resolution := Option ℤ × Bool

/-- The `for` loop: `none` when the turns given do not suffice. -/
def resolveLoop (byID : ProxyMap) (now : ℤ) : ℕ → Finset ℤ → Option ℤ → Option Resolution
  | 0, _, _ => none
  | _ + 1, _, none => some (none, false)
  | turns + 1, visited, some curID =>
      if curID ∈ visited then some (none, false)
      else
        match byID.lookup curID with
        | none => some (none, false)
        | some p =>
            if p.isActive && !p.isExpired now then some (some p.id, true)
            else
              match p.fallbackMode with
              | .direct => some (none, true)
              | .proxy => resolveLoop byID now turns (insert curID visited) p.backupProxyID
              | _ => some (none, false)

def resolveProxyFallbackTarget (turns : ℕ) (start : Proxy) (byID : ProxyMap) (now : ℤ) :
    Option Resolution :=
  match start.fallbackMode with
  | .direct => some (none, true)
  | .proxy => resolveLoop byID now turns {start.id} start.backupProxyID
  | _ => some (none, false)

/-! ### The backup chain -/

/-- A proxy leads to its backup when its mode says so. -/
def Proxy.backup (p : Proxy) : Option ℤ :=
  match p.fallbackMode with
  | .proxy => p.backupProxyID
  | _ => none

theorem Proxy.backup_eq_none {p : Proxy} (other : p.fallbackMode ≠ .proxy) : p.backup = none := by
  rw [Proxy.backup]
  cases mode : p.fallbackMode with
  | proxy => exact absurd mode other
  | none => rfl
  | direct => rfl
  | other _ => rfl

/-- Whether accounts may be moved to the proxy. -/
def Proxy.usable (now : ℤ) (p : Proxy) : Bool := p.isActive && !p.isExpired now

/-- The proxies visited from the start on, each once and never the start's id. -/
def BackupChain (byID : ProxyMap) (start : Proxy) : List Proxy → Stop ℤ → Prop :=
  Trail byID.lookup Proxy.backup {start.id} start.backup

/-- The last node visited, which is the start on an empty chain. -/
def lastVisited (start : Proxy) (chain : List Proxy) : Proxy := chain.getLast?.getD start

@[simp] theorem lastVisited_cons (start p : Proxy) (chain : List Proxy) :
    lastVisited start (p :: chain) = lastVisited p chain := by
  rw [lastVisited, List.getLast?_cons]
  rfl

/-- The answer that a chain gives. -/
def resolution (now : ℤ) (start : Proxy) (chain : List Proxy) : Resolution :=
  match chain.find? (Proxy.usable now) with
  | some p => (some p.id, true)
  | none => (none, (lastVisited start chain).fallbackMode == .direct)

variable {now : ℤ}

theorem resolution_usable {p : Proxy} (usable : p.usable now = true) (start : Proxy)
    (chain : List Proxy) : resolution now start (p :: chain) = (some p.id, true) := by
  simp [resolution, usable]

theorem resolution_unusable {p : Proxy} (unusable : p.usable now = false) (start : Proxy)
    (chain : List Proxy) : resolution now start (p :: chain) = resolution now p chain := by
  simp [resolution, unusable]

theorem resolution_nil (now : ℤ) (start : Proxy) :
    resolution now start [] = (none, start.fallbackMode == .direct) := rfl

variable {chain : List Proxy} {start : Proxy}

theorem resolution_fst :
    (resolution now start chain).1 = (chain.find? (Proxy.usable now)).map Proxy.id := by
  rw [resolution]
  cases chain.find? (Proxy.usable now) <;> rfl

theorem resolution_direct_iff :
    resolution now start chain = (none, true) ↔
      (∀ p ∈ chain, p.usable now = false) ∧
        (lastVisited start chain).fallbackMode = .direct := by
  rw [resolution]
  cases found : chain.find? (Proxy.usable now) with
  | some p =>
      constructor
      · intro same
        cases same
      · intro unusable
        have usable := List.find?_some found
        rw [unusable.1 p (List.mem_of_find?_eq_some found)] at usable
        cases usable
  | none =>
      rw [List.find?_eq_none] at found
      simp only [Prod.mk.injEq, true_and, beq_iff_eq]
      exact (and_iff_right fun p mem => Bool.eq_false_iff.mpr (found p mem)).symm

theorem resolution_unchanged_iff :
    (resolution now start chain).2 = false ↔
      (∀ p ∈ chain, p.usable now = false) ∧
        (lastVisited start chain).fallbackMode ≠ .direct := by
  rw [resolution]
  cases found : chain.find? (Proxy.usable now) with
  | some p =>
      constructor
      · intro same
        cases same
      · intro unusable
        have usable := List.find?_some found
        rw [unusable.1 p (List.mem_of_find?_eq_some found)] at usable
        cases usable
  | none =>
      rw [List.find?_eq_none] at found
      simp only [beq_eq_false_iff_ne]
      exact (and_iff_right fun p mem => Bool.eq_false_iff.mpr (found p mem)).symm

/-! ### The loop walks the chain -/

variable {stop : Stop ℤ} {byID : ProxyMap}

theorem resolveLoop_of_trail {seen : Finset ℤ} {link : Option ℤ}
    (trail : Trail byID.lookup Proxy.backup seen link chain stop) {turns : ℕ}
    (enough : chain.length < turns) {last : Proxy} (mode : last.fallbackMode = .proxy) :
    resolveLoop byID now turns seen link = some (resolution now last chain) := by
  have unchanged : resolution now last [] = (none, false) := by rw [resolution_nil, mode]; rfl
  induction trail generalizing turns last with
  | ends =>
      obtain ⟨turns, rfl⟩ := Nat.exists_eq_succ_of_ne_zero (Nat.ne_of_gt enough)
      rw [unchanged]
      rfl
  | closes mem =>
      obtain ⟨turns, rfl⟩ := Nat.exists_eq_succ_of_ne_zero (Nat.ne_of_gt enough)
      rw [unchanged, resolveLoop, if_pos mem]
  | dangles fresh missing =>
      obtain ⟨turns, rfl⟩ := Nat.exists_eq_succ_of_ne_zero (Nat.ne_of_gt enough)
      rw [unchanged, resolveLoop, if_neg fresh, missing]
  | @visits seen key p path stop fresh found rest ih =>
      obtain ⟨turns, rfl⟩ := Nat.exists_eq_succ_of_ne_zero (Nat.ne_of_gt (Nat.zero_lt_of_lt enough))
      have ended : p.fallbackMode ≠ .proxy → path = [] := by
        intro other
        rw [Proxy.backup_eq_none other] at rest
        exact rest.path_eq_nil.1
      rw [resolveLoop, if_neg fresh, found]
      change (if p.usable now = true then _ else _) = _
      cases usable : p.usable now with
      | true => rw [if_pos rfl, resolution_usable usable]
      | false =>
          rw [if_neg Bool.false_ne_true, resolution_unusable usable]
          cases mode' : p.fallbackMode with
          | proxy =>
              have backup : p.backup = p.backupProxyID := by rw [Proxy.backup, mode']
              rw [← backup]
              have unchanged' : resolution now p [] = (none, false) := by
                rw [resolution_nil, mode']
                rfl
              exact ih (Nat.lt_of_succ_lt_succ enough) mode' unchanged'
          | direct =>
              rw [ended (by rw [mode']; decide), resolution_nil, mode']
              rfl
          | none =>
              rw [ended (by rw [mode']; decide), resolution_nil, mode']
              rfl
          | other _ =>
              rw [ended (by rw [mode']; exact FallbackMode.noConfusion), resolution_nil, mode']
              rfl

/-- With a turn more than the chain is long, the loop ends with the chain's answer. -/
theorem resolve_of_chain (trail : BackupChain byID start chain stop) {turns : ℕ}
    (enough : chain.length < turns) :
    resolveProxyFallbackTarget turns start byID now = some (resolution now start chain) := by
  have ended : start.fallbackMode ≠ .proxy → chain = [] := by
    intro other
    rw [BackupChain, Proxy.backup_eq_none other] at trail
    exact trail.path_eq_nil.1
  rw [resolveProxyFallbackTarget]
  cases mode : start.fallbackMode with
  | proxy =>
      have backup : start.backup = start.backupProxyID := by rw [Proxy.backup, mode]
      rw [BackupChain, backup] at trail
      exact resolveLoop_of_trail trail enough mode
  | direct =>
      rw [ended (by rw [mode]; decide), resolution_nil, mode]
      rfl
  | none =>
      rw [ended (by rw [mode]; decide), resolution_nil, mode]
      rfl
  | other _ =>
      rw [ended (by rw [mode]; exact FallbackMode.noConfusion), resolution_nil, mode]
      rfl

/-- Every start has its chain, no longer than the map. -/
theorem BackupChain.exists (byID : ProxyMap) (start : Proxy) :
    ∃ chain stop, BackupChain byID start chain stop ∧ chain.length ≤ byID.keys.card := by
  have finite : ∀ id p, byID.lookup id = some p → id ∈ byID.keys := fun id p found =>
    Finmap.mem_keys.mpr (Finmap.mem_of_lookup_eq_some found)
  obtain ⟨chain, stop, trail, short⟩ := Trail.exists_of_finite finite {start.id} start.backup
  exact ⟨chain, stop, trail, short.trans (Finset.card_le_card Finset.sdiff_subset)⟩

/-- No proxy of the chain has the id of the start. -/
theorem BackupChain.id_ne (ids : ∀ id p, byID.lookup id = some p → p.id = id)
    (trail : BackupChain byID start chain stop) {p : Proxy} (mem : p ∈ chain) :
    p.id ≠ start.id := by
  obtain ⟨key, fresh, found⟩ := Trail.found_of_mem trail mem
  rw [ids key p found]
  exact fun same => fresh (Finset.mem_singleton.mpr same)

/-- A chain that dangles or closes a cycle does so from a node whose mode is to use its backup. -/
theorem BackupChain.mode_of_stop (trail : BackupChain byID start chain stop) (cut : stop ≠ .ends) :
    (lastVisited start chain).fallbackMode = .proxy := by
  have leads := Trail.isSome_of_cut trail cut
  by_contra other
  have stays := Proxy.backup_eq_none other
  rw [lastVisited] at stays
  cases last : chain.getLast? with
  | none =>
      rw [last] at leads stays
      rw [Option.elim_none, ← Option.getD_none (a := start), stays] at leads
      cases leads
  | some p =>
      rw [last] at leads stays
      rw [Option.elim_some, ← Option.getD_some (a := p) (b := start), stays] at leads
      cases leads

/-- What a chain says about the answer: its first usable proxy is the target; the answer is a direct
connection when no proxy of it is usable and the last node visited is direct; nothing changes when
it ends, dangles or closes a cycle without either. -/
structure Resolved (now : ℤ) (start : Proxy) (chain : List Proxy) (stop : Stop ℤ)
    (answer : Resolution) : Prop where
  first_usable : answer.1 = (chain.find? (Proxy.usable now)).map Proxy.id
  direct_iff : answer = (none, true) ↔
    (∀ p ∈ chain, p.usable now = false) ∧ (lastVisited start chain).fallbackMode = .direct
  not_start : answer.1 ≠ some start.id
  unchanged_iff : answer.2 = false ↔ (∀ p ∈ chain, p.usable now = false) ∧
    (stop = .ends → (lastVisited start chain).fallbackMode ≠ .direct)

theorem resolution_resolved (ids : ∀ id p, byID.lookup id = some p → p.id = id) (now : ℤ)
    (trail : BackupChain byID start chain stop) :
    Resolved now start chain stop (resolution now start chain) where
  first_usable := resolution_fst
  direct_iff := resolution_direct_iff
  not_start := by
    rw [resolution_fst]
    intro same
    obtain ⟨p, found, own⟩ := Option.map_eq_some_iff.mp same
    exact trail.id_ne ids (List.mem_of_find?_eq_some found) own
  unchanged_iff := by
    rw [resolution_unchanged_iff]
    apply and_congr_right
    intro _
    constructor
    · exact fun other _ => other
    · intro atEnd
      by_cases cut : stop = .ends
      · exact atEnd cut
      · rw [trail.mode_of_stop cut]
        decide

/-- With more turns than the map has entries the loop always ends, in the one answer that the
backup chain of the start gives. -/
theorem resolveProxyFallbackTarget_resolves (start : Proxy) (byID : ProxyMap) (now : ℤ)
    (ids : ∀ id p, byID.lookup id = some p → p.id = id) :
    ∃ chain stop answer, BackupChain byID start chain stop ∧
      (∀ turns, byID.keys.card < turns →
        resolveProxyFallbackTarget turns start byID now = some answer) ∧
      Resolved now start chain stop answer := by
  obtain ⟨chain, stop, trail, short⟩ := BackupChain.exists byID start
  exact ⟨chain, stop, _, trail, fun turns enough => resolve_of_chain trail (short.trans_lt enough),
    resolution_resolved ids now trail⟩

namespace Sample

/-- An expired proxy and its disabled backup, which name each other. -/
def first : Proxy := ⟨1, .active, some 5, .proxy, some 2⟩

def second : Proxy := ⟨2, .other "inactive", none, .proxy, some 1⟩

def both : ProxyMap := ((∅ : ProxyMap).insert 1 first).insert 2 second

theorem both_ids : ∀ id p, both.lookup id = some p → p.id = id := by
  intro id p found
  by_cases two : id = 2
  · rw [two, both, Finmap.lookup_insert] at found
    cases found
    exact two.symm
  · rw [both, Finmap.lookup_insert_of_ne _ two] at found
    by_cases one : id = 1
    · rw [one, Finmap.lookup_insert] at found
      cases found
      exact one.symm
    · rw [Finmap.lookup_insert_of_ne _ one, Finmap.lookup_empty] at found
      cases found

end Sample

theorem resolveProxyFallbackTarget_resolves_cycle :
    ∃ chain stop answer, BackupChain Sample.both Sample.first chain stop ∧
      (∀ turns, Sample.both.keys.card < turns →
        resolveProxyFallbackTarget turns Sample.first Sample.both 7 = some answer) ∧
      Resolved 7 Sample.first chain stop answer :=
  resolveProxyFallbackTarget_resolves Sample.first Sample.both 7 Sample.both_ids

example : resolveProxyFallbackTarget 3 Sample.first Sample.both 7 = some (none, false) := by
  decide +kernel

end Sub2api.Proxies
