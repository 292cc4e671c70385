import Mathlib.Logic.Function.Basic
import Sub2api.Sessions.LongestPrefix

/-!
# A conversation keeps a single live key

A conversation looks its chain up and saves it with the chain that was matched, while others use the
store in between. Its chains grow to `whole`; nobody else saves a part of it in its namespace.
-/

namespace Sub2api.Sessions

/-- The store, and what a conversation remembers: the chain that it looked up with the chain that
was matched, and the chain that it saved last. -/
structure Conversation where
  past : List (ℤ × Op)
  looked : Option (String × String) := none
  saved : Option String := none

inductive Act
  | other (op : Op)
  | look (digestChain : String)
  | keep (entry : SessionEntry)

section Namespace

variable [GoCache] (groupID : ℤ) (prefixHash whole : String)

/-- The matched chain is empty when nothing was found. -/
def Conversation.step (now : ℤ) (act : Act) (c : Conversation) : Conversation :=
  match act with
  | .other op => { c with past := (now, op) :: c.past }
  | .look chain =>
      let found := find (cacheAfter c.past) now groupID prefixHash chain
      { c with
        past := (now, .find groupID prefixHash chain) :: c.past
        looked := some (chain, (found.map (·.2)).getD "") }
  | .keep entry =>
      match c.looked with
      | none => c
      | some (chain, matched) =>
          { c with
            past := (now, .save groupID prefixHash chain entry matched) :: c.past
            saved := if chain = "" then c.saved else some chain }

def Conversation.run (c : Conversation) : List (ℤ × Act) → Conversation
  | [] => c
  | (now, act) :: rest => (c.step groupID prefixHash now act).run rest

/-- Every operation so far happened by then. -/
def Past (past : List (ℤ × Op)) (now : ℤ) : Prop := ∀ turn ∈ past, turn.1 ≤ now

/-- What may happen next: the clock does not go back, the conversation's chains grow, and the others
save no part of `whole` in the namespace. -/
def Conversation.Allows (c : Conversation) (now : ℤ) : Act → Prop
  | .other op => Past c.past now ∧ op.NoBar ∧
      ∀ chain entry old, op = .save groupID prefixHash chain entry old →
        ¬ IsSegmentPrefix chain whole
  | .look chain => Past c.past now ∧ IsSegmentPrefix chain whole ∧
      ∀ saved, c.saved = some saved → IsSegmentPrefix saved chain
  | .keep _ => Past c.past now

def Conversation.Follows (c : Conversation) : List (ℤ × Act) → Prop
  | [] => True
  | (now, act) :: rest =>
      c.Allows groupID prefixHash whole now act ∧ (c.step groupID prefixHash now act).Follows rest

/-- A conversation that has not begun: no part of `whole` is live in the namespace. -/
structure Conversation.Begins (c : Conversation) : Prop where
  looked : c.looked = none
  saved : c.saved = none
  bars : ∀ turn ∈ c.past, turn.2.NoBar
  dead : ∀ now, Past c.past now → ∀ chain, IsSegmentPrefix chain whole →
    live c.past now groupID prefixHash chain = none

/-- What holds of a conversation at any time. -/
structure Conversation.Keeps (c : Conversation) : Prop where
  bars : ∀ turn ∈ c.past, turn.2.NoBar
  single : ∀ now, Past c.past now → ∀ chain, IsSegmentPrefix chain whole →
    live c.past now groupID prefixHash chain ≠ none → c.saved = some chain
  looked : ∀ chain matched, c.looked = some (chain, matched) →
    IsSegmentPrefix chain whole ∧ ∀ now, Past c.past now → ∀ start, IsSegmentPrefix start whole →
      live c.past now groupID prefixHash start ≠ none → start = matched ∨ start = chain

end Namespace

variable {groupID : ℤ} {prefixHash whole : String} {c : Conversation}
variable {past : List (ℤ × Op)}

theorem Past.tail {turn : ℤ × Op} {now : ℤ} (past_ : Past (turn :: past) now) : Past past now :=
  fun earlier mem => past_ earlier (List.mem_cons_of_mem _ mem)

theorem Past.head {turn : ℤ × Op} {now : ℤ} (past_ : Past (turn :: past) now) : turn.1 ≤ now :=
  past_ turn (List.mem_cons_self ..)

theorem live_earlier {now now' : ℤ} {chain : String} (later : now ≤ now')
    (alive : live past now' groupID prefixHash chain ≠ none) :
    live past now groupID prefixHash chain ≠ none := by
  unfold live at alive ⊢
  cases saved : lastSaved groupID prefixHash chain past with
  | none =>
      rw [saved] at alive
      exact absurd rfl alive
  | some item =>
      rw [saved] at alive
      dsimp only at alive ⊢
      have fresh : ¬ item.Expired now' := fun gone => alive (if_pos gone)
      rw [if_neg fun gone => fresh ⟨gone.1, lt_of_lt_of_le gone.2 later⟩]
      exact Option.some_ne_none _

theorem live_other {now now' : ℤ} {op : Op} {chain : String}
    (foreign : ∀ entry old, op ≠ .save groupID prefixHash chain entry old)
    (alive : live ((now, op) :: past) now' groupID prefixHash chain ≠ none) :
    live past now' groupID prefixHash chain ≠ none := by
  cases op with
  | find => exact alive
  | deleteExpired => exact alive
  | save groupID' prefixHash' digestChain entry oldDigestChain =>
      rw [live_save] at alive
      by_cases own : digestChain ≠ "" ∧ groupID' = groupID ∧ prefixHash' = prefixHash
      · rw [if_pos own] at alive
        obtain ⟨-, rfl, rfl⟩ := own
        by_cases same : digestChain = chain
        · subst same
          exact absurd rfl (foreign entry oldDigestChain)
        · rw [if_neg same] at alive
          split at alive
          · exact absurd rfl alive
          · exact alive
      · rw [if_neg own] at alive
        exact alive

theorem Conversation.Begins.keeps (begins : c.Begins groupID prefixHash whole) :
    c.Keeps groupID prefixHash whole where
  bars := begins.bars
  single now past chain ahead alive := absurd (begins.dead now past chain ahead) alive
  looked chain matched looked := by
    rw [begins.looked] at looked
    cases looked

/-- A save leaves the chain that was looked up as the only one that is live. -/
theorem Conversation.Keeps.kept (keeps : c.Keeps groupID prefixHash whole) {now now' : ℤ}
    {chain matched start : String} {entry : SessionEntry} (nonempty : chain ≠ "")
    (looked : c.looked = some (chain, matched))
    (past : Past ((now, .save groupID prefixHash chain entry matched) :: c.past) now')
    (start_ : IsSegmentPrefix start whole)
    (alive : live ((now, .save groupID prefixHash chain entry matched) :: c.past) now' groupID
      prefixHash start ≠ none) : start = chain := by
  obtain ⟨-, known⟩ := keeps.looked chain matched looked
  rw [live_save, if_pos ⟨nonempty, rfl, rfl⟩] at alive
  by_contra other
  rw [if_neg (fun same => other same.symm)] at alive
  by_cases deleted : matched ≠ "" ∧ matched = start
  · rw [if_pos deleted] at alive
    exact alive rfl
  · rw [if_neg deleted] at alive
    rcases known now' past.tail start start_ alive with rfl | same
    · by_cases blank : start = ""
      · rw [blank, live_empty] at alive
        exact alive rfl
      · exact deleted ⟨blank, rfl⟩
    · exact other same

theorem live_blank_save (past : List (ℤ × Op)) (now now' : ℤ) (chain matched : String)
    (entry : SessionEntry) :
    live ((now, .save groupID prefixHash "" entry matched) :: past) now' groupID prefixHash chain =
      live past now' groupID prefixHash chain := by
  rw [live_save, if_neg (fun all => all.1 rfl)]

section Conversations

variable [GoCache]

theorem Conversation.Keeps.other (keeps : c.Keeps groupID prefixHash whole) {now : ℤ} {op : Op}
    (allowed : c.Allows groupID prefixHash whole now (.other op)) :
    (c.step groupID prefixHash now (.other op)).Keeps groupID prefixHash whole := by
  obtain ⟨-, noBar, foreign⟩ := allowed
  have earlier : ∀ now' chain, IsSegmentPrefix chain whole →
      live ((now, op) :: c.past) now' groupID prefixHash chain ≠ none →
        live c.past now' groupID prefixHash chain ≠ none := by
    intro now' chain ahead alive
    apply live_other _ alive
    exact fun entry old same => foreign chain entry old same ahead
  constructor
  · intro turn mem
    rcases List.mem_cons.mp mem with rfl | old
    · exact noBar
    · exact keeps.bars turn old
  · intro now' past chain ahead alive
    exact keeps.single now' past.tail chain ahead (earlier now' chain ahead alive)
  · intro chain matched looked
    obtain ⟨ahead, known⟩ := keeps.looked chain matched looked
    refine ⟨ahead, fun now' past start start_ alive => ?_⟩
    exact known now' past.tail start start_ (earlier now' start start_ alive)

/-- A look finds the key that is live, if there is one. -/
theorem Conversation.Keeps.look (keeps : c.Keeps groupID prefixHash whole)
    (noBar : NoBar prefixHash) {now : ℤ} {chain : String}
    (allowed : c.Allows groupID prefixHash whole now (.look chain)) :
    (c.step groupID prefixHash now (.look chain)).Keeps groupID prefixHash whole := by
  obtain ⟨past, ahead, grows⟩ := allowed
  constructor
  · intro turn mem
    rcases List.mem_cons.mp mem with rfl | old
    · trivial
    · exact keeps.bars turn old
  · intro now' past' chain' ahead' alive
    exact keeps.single now' past'.tail chain' ahead' alive
  · rintro chain' matched ⟨⟩
    refine ⟨ahead, fun now' past' start start_ alive => Or.inl ?_⟩
    have saved := keeps.single now' past'.tail start start_ alive
    have then_ := live_earlier past'.head alive
    have longest := @find_longest _ c.past now groupID prefixHash noBar keeps.bars past chain
    cases found : find (cacheAfter c.past) now groupID prefixHash chain with
    | none =>
        rw [found] at longest
        exact absurd (longest start (grows start saved)) then_
    | some result =>
        obtain ⟨entry, matched⟩ := result
        rw [found] at longest
        obtain ⟨matched_, held, -⟩ := longest
        have saved' := keeps.single now past matched (matched_.trans ahead) (by simp [held])
        rw [saved] at saved'
        exact Option.some_inj.mp saved'

theorem Conversation.Keeps.keep (keeps : c.Keeps groupID prefixHash whole)
    (noBar : NoBar prefixHash) (now : ℤ) (entry : SessionEntry) :
    (c.step groupID prefixHash now (.keep entry)).Keeps groupID prefixHash whole := by
  cases looked : c.looked with
  | none =>
      have same : c.step groupID prefixHash now (.keep entry) = c := by
        simp [Conversation.step, looked]
      rwa [same]
  | some last =>
      obtain ⟨chain, matched⟩ := last
      have next : c.step groupID prefixHash now (.keep entry) =
          { c with
            past := (now, .save groupID prefixHash chain entry matched) :: c.past
            saved := if chain = "" then c.saved else some chain } := by
        simp [Conversation.step, looked]
      rw [next]
      constructor
      · intro turn mem
        rcases List.mem_cons.mp mem with rfl | old
        · exact noBar
        · exact keeps.bars turn old
      · intro now' past start start_ alive
        by_cases blank : chain = ""
        · subst blank
          rw [live_blank_save] at alive
          exact keeps.single now' past.tail start start_ alive
        · dsimp only
          rw [if_neg blank, keeps.kept blank looked past start_ alive]
      · intro chain' matched' looked'
        rw [looked] at looked'
        obtain ⟨rfl, rfl⟩ := Prod.mk.inj (Option.some_inj.mp looked')
        obtain ⟨ahead, known⟩ := keeps.looked chain matched looked
        refine ⟨ahead, fun now' past start start_ alive => ?_⟩
        by_cases blank : chain = ""
        · subst blank
          rw [live_blank_save] at alive
          exact known now' past.tail start start_ alive
        · exact Or.inr (keeps.kept blank looked past start_ alive)

theorem Conversation.Keeps.step (keeps : c.Keeps groupID prefixHash whole)
    (noBar : NoBar prefixHash) {now : ℤ} {act : Act}
    (allowed : c.Allows groupID prefixHash whole now act) :
    (c.step groupID prefixHash now act).Keeps groupID prefixHash whole := by
  cases act with
  | other op => exact keeps.other allowed
  | look chain => exact keeps.look noBar allowed
  | keep entry => exact keeps.keep noBar now entry

theorem Conversation.Keeps.run (keeps : c.Keeps groupID prefixHash whole)
    (noBar : NoBar prefixHash) {acts : List (ℤ × Act)}
    (follows : c.Follows groupID prefixHash whole acts) :
    (c.run groupID prefixHash acts).Keeps groupID prefixHash whole := by
  induction acts generalizing c with
  | nil => exact keeps
  | cons turn rest ih => exact ih (keeps.step noBar follows.1) follows.2

theorem Conversation.run_append (before after : List (ℤ × Act)) :
    c.run groupID prefixHash (before ++ after) =
      (c.run groupID prefixHash before).run groupID prefixHash after := by
  induction before generalizing c with
  | nil => rfl
  | cons turn rest ih => exact ih

theorem Conversation.Follows.split {before after : List (ℤ × Act)}
    (follows : c.Follows groupID prefixHash whole (before ++ after)) :
    c.Follows groupID prefixHash whole before ∧
      (c.run groupID prefixHash before).Follows groupID prefixHash whole after := by
  induction before generalizing c with
  | nil => exact ⟨trivial, follows⟩
  | cons turn rest ih =>
      obtain ⟨first, second⟩ := ih follows.2
      exact ⟨⟨follows.1, first⟩, second⟩

/-- After a save of the chain that was looked up, that chain is live and no other part of `whole`
is. -/
theorem live_after_keep (noBar : NoBar prefixHash) (begins : c.Begins groupID prefixHash whole)
    {before : List (ℤ × Act)} {now : ℤ} {entry : SessionEntry} {chain matched : String}
    (follows : c.Follows groupID prefixHash whole (before ++ [(now, .keep entry)]))
    (looked : (c.run groupID prefixHash before).looked = some (chain, matched))
    (nonempty : chain ≠ "") (start : String) (start_ : IsSegmentPrefix start whole) :
    live (c.run groupID prefixHash (before ++ [(now, .keep entry)])).past now groupID prefixHash
      start ≠ none ↔ start = chain := by
  obtain ⟨first, second⟩ := follows.split
  have keeps := begins.keeps.run noBar first
  have past : Past (c.run groupID prefixHash before).past now := second.1
  have next : (c.run groupID prefixHash (before ++ [(now, .keep entry)])).past =
      (now, .save groupID prefixHash chain entry matched) ::
        (c.run groupID prefixHash before).past := by
    rw [Conversation.run_append]
    simp [Conversation.run, Conversation.step, looked]
  rw [next]
  constructor
  · intro alive
    apply keeps.kept nonempty looked _ start_ alive
    intro turn mem
    rcases List.mem_cons.mp mem with rfl | old
    · exact le_refl now
    · exact past turn old
  · rintro rfl
    rw [live_save, if_pos ⟨nonempty, rfl, rfl⟩, if_pos rfl, if_neg]
    · exact Option.some_ne_none _
    · rintro ⟨-, gone⟩
      simp only [digestSessionTTL] at gone
      omega

/-- The digest session store finds the longest saved prefix. In a namespace without a bar in its
prefix hash, after any operations in such namespaces, `Find` returns the entry of the longest
segment prefix that was saved in the namespace and is neither deleted nor expired. And a
conversation whose chains grow, and which saves each with the chain that its look matched, never has
two live keys, and after each save has exactly the one that it saved. -/
theorem digest_sessions (groupID : ℤ) (prefixHash : String) (noBar : NoBar prefixHash) :
    (∀ past now chain, (∀ turn ∈ past, turn.2.NoBar) → Past past now →
      FindsLongest (live past now groupID prefixHash) chain
        (find (cacheAfter past) now groupID prefixHash chain)) ∧
    ∀ whole (c : Conversation) acts, c.Begins groupID prefixHash whole →
      c.Follows groupID prefixHash whole acts →
      (∀ now chain chain', Past (c.run groupID prefixHash acts).past now →
        IsSegmentPrefix chain whole → IsSegmentPrefix chain' whole →
        live (c.run groupID prefixHash acts).past now groupID prefixHash chain ≠ none →
        live (c.run groupID prefixHash acts).past now groupID prefixHash chain' ≠ none →
          chain = chain') ∧
      ∀ before now entry chain matched, acts = before ++ [(now, .keep entry)] →
        (c.run groupID prefixHash before).looked = some (chain, matched) → chain ≠ "" →
        ∀ start, IsSegmentPrefix start whole →
          (live (c.run groupID prefixHash acts).past now groupID prefixHash start ≠ none ↔
            start = chain) := by
  refine ⟨fun past now chain bars past_ => find_longest noBar bars past_ chain, ?_⟩
  intro whole c acts begins follows
  constructor
  · intro now chain chain' past ahead ahead' alive alive'
    have keeps := begins.keeps.run noBar follows
    have saved := keeps.single now past chain ahead alive
    have saved' := keeps.single now past chain' ahead' alive'
    rw [saved] at saved'
    exact Option.some_inj.mp saved'
  · rintro before now entry chain matched rfl looked nonempty start start_
    exact live_after_keep noBar begins follows looked nonempty start start_

end Conversations

namespace Sample

/-- The package keeps its items in a map. -/
instance : GoCache where
  Cache := String → Option CacheItem
  new _ := none
  set cache now key entry :=
    Function.update cache key (some { entry := entry, expiration := now + digestSessionTTL })
  get cache now key := (cache key).bind fun item =>
    if item.Expired now then none else some item.entry
  delete cache key := Function.update cache key none
  deleteExpired cache now key := (cache key).bind fun item =>
    if item.Expired now then none else some item
  get_new _ _ := rfl
  get_set cache now now' key key' entry := by
    by_cases same : key' = key
    · simp [same]
    · simp [same]
  get_delete cache now key key' := by
    by_cases same : key' = key
    · simp [same]
    · simp [same]
  get_deleteExpired cache now now' later key := by
    cases held : cache key with
    | none => simp [held]
    | some item =>
        by_cases gone : item.Expired now
        · have gone' : item.Expired now' := ⟨gone.1, lt_of_le_of_lt' later gone.2⟩
          simp [held, gone, gone']
        · simp [held, gone]

def entry : SessionEntry := { uuid := "u", accountID := 7 }

/-- Two prefixes of a chain. -/
def saves : List (ℤ × Op) :=
  [(2, .save 1 "h" "s-u" { uuid := "v", accountID := 8 } ""), (1, .save 1 "h" "s" entry "")]

/-- The second chain goes on from the first one. -/
def acts : List (ℤ × Act) :=
  [(1, .look "s"), (2, .keep entry), (3, .look "s-u"), (4, .keep entry)]

end Sample

/-- A chain saved in one namespace is found in another one whose prefix hash contains a bar. -/
theorem bar_crosses_namespaces :
    find (cacheAfter [(0, .save 1 "a" "b|c" { uuid := "u", accountID := 7 } "")]) 1 1 "a|b" "c" =
      some ({ uuid := "u", accountID := 7 }, "c") := by
  decide +kernel

/-- A look for a chain of which two prefixes are saved, and a conversation of two turns. -/
theorem digest_sessions_sample :
    FindsLongest (live Sample.saves 3 1 "h") "s-u-m"
        (find (cacheAfter Sample.saves) 3 1 "h" "s-u-m") ∧
      ∀ start, IsSegmentPrefix start "s-u" →
        (live (Conversation.run 1 "h" { past := [] } Sample.acts).past 4 1 "h" start ≠ none ↔
          start = "s-u") := by
  constructor
  · apply (digest_sessions 1 "h" (by decide)).1
    · intro turn mem
      rcases List.mem_pair.mp mem with rfl | rfl
      · exact (by decide : NoBar "h")
      · exact (by decide : NoBar "h")
    · unfold Past
      decide
  · have begins : Conversation.Begins 1 "h" "s-u" { past := [] } := by
      refine ⟨rfl, rfl, ?_, fun _ _ _ _ => rfl⟩
      intro turn mem
      cases mem
    have follows : Conversation.Follows 1 "h" "s-u" { past := [] } Sample.acts := by
      unfold Sample.acts
      refine ⟨⟨?_, Or.inr ⟨"u", by decide⟩, ?_⟩, ?_, ⟨?_, Or.inl rfl, ?_⟩, ?_, trivial⟩
      · unfold Past
        decide +kernel
      · intro saved none_
        cases none_
      · unfold Conversation.Allows Past
        decide +kernel
      · unfold Past
        decide +kernel
      · rintro saved ⟨⟩
        exact Or.inr ⟨"u", by decide⟩
      · unfold Conversation.Allows Past
        decide +kernel
    exact ((digest_sessions 1 "h" (by decide)).2 "s-u" _ Sample.acts begins follows).2
      [(1, .look "s"), (2, .keep Sample.entry), (3, .look "s-u")] 4 Sample.entry "s-u" "s" rfl
      (by decide +kernel) (by decide)

end Sub2api.Sessions
