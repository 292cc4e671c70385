import Mathlib.Data.List.Infix

/-!
# Longest suffixes in a set of words

What an automaton that searches for many words at once remembers of a text: the longest suffix that
is in a set of words. When the text grows by a letter, the new longest suffix is an old suffix with
that letter, and the candidates are gone through from the longest to the shortest by taking the
longest proper suffix again and again.
-/

namespace Automaton

universe u

variable {α : Type u}

/-- The longest suffix of a text that is in the set and shorter than a bound. -/
structure LongestBelow (words : Set (List α)) (bound : ℕ) (text word : List α) : Prop where
  suffix : word <:+ text
  mem : word ∈ words
  within : word.length < bound
  longest : ∀ other ∈ words, other <:+ text → other.length < bound → other.length ≤ word.length

/-- The longest suffix of a text that is in the set. -/
abbrev Longest (words : Set (List α)) (text word : List α) : Prop :=
  LongestBelow words (text.length + 1) text word

/-- The longest suffix of a text that is in the set and is not the text itself. -/
abbrev LongestProper (words : Set (List α)) (text word : List α) : Prop :=
  LongestBelow words text.length text word

variable {words : Set (List α)} {bound : ℕ} {text word : List α} {letter : α}

/-- What is in the set and shorter than the bound is a suffix of the text exactly when it is one of
the longest suffix. -/
theorem LongestBelow.suffix_iff (below : LongestBelow words bound text word) {other : List α}
    (mem : other ∈ words) (within : other.length < bound) : other <:+ text ↔ other <:+ word := by
  constructor
  · intro suffix
    exact List.suffix_of_suffix_length_le suffix below.suffix
      (below.longest other mem suffix within)
  · intro suffix
    exact suffix.trans below.suffix

theorem Longest.suffix_iff (longest : Longest words text word) {other : List α}
    (mem : other ∈ words) : other <:+ text ↔ other <:+ word := by
  constructor
  · intro suffix
    exact (LongestBelow.suffix_iff longest mem (Nat.lt_succ_of_le suffix.length_le)).mp suffix
  · intro suffix
    exact suffix.trans longest.suffix

theorem LongestProper.suffix_iff (proper : LongestProper words text word) {other : List α}
    (mem : other ∈ words) (ne : other ≠ text) : other <:+ text ↔ other <:+ word := by
  constructor
  · intro suffix
    have shorter : other.length < text.length := by
      rcases Nat.lt_or_ge other.length text.length with shorter | long
      · exact shorter
      · exact absurd (suffix.eq_of_length (Nat.le_antisymm suffix.length_le long)) ne
    exact (LongestBelow.suffix_iff proper mem shorter).mp suffix
  · intro suffix
    exact suffix.trans proper.suffix

/-- The longest suffix of a word in the set is the word. -/
theorem Longest.self (mem : word ∈ words) : Longest words word word where
  suffix := List.suffix_refl _
  mem := mem
  within := Nat.lt_succ_self _
  longest _ _ suffix _ := suffix.length_le

/-- A suffix that may be what the next longest suffix extends by a letter: no longer one below the
bound can be extended. -/
structure Candidate (words : Set (List α)) (bound : ℕ) (text : List α) (letter : α)
    (word : List α) : Prop where
  suffix : word <:+ text
  mem : word ∈ words
  within : word.length < bound
  longest : ∀ other ∈ words, other <:+ text → other.length < bound →
    other ++ [letter] ∈ words → other.length ≤ word.length

theorem LongestBelow.candidate (below : LongestBelow words bound text word) (letter : α) :
    Candidate words bound text letter word where
  suffix := below.suffix
  mem := below.mem
  within := below.within
  longest other mem suffix within _ := below.longest other mem suffix within

/-- A candidate that cannot be extended is replaced by its longest proper suffix. -/
theorem Candidate.next (candidate : Candidate words bound text letter word)
    (stuck : word ++ [letter] ∉ words) {shorter : List α}
    (proper : LongestProper words word shorter) : Candidate words bound text letter shorter where
  suffix := proper.suffix.trans candidate.suffix
  mem := proper.mem
  within := Nat.lt_trans proper.within candidate.within
  longest other mem suffix within extends_ := by
    have le := candidate.longest other mem suffix within extends_
    have ofWord := List.suffix_of_suffix_length_le suffix candidate.suffix le
    apply proper.longest other mem ofWord
    rcases Nat.lt_or_ge other.length word.length with less | long
    · exact less
    · have same := ofWord.eq_of_length (Nat.le_antisymm le long)
      exact absurd (same ▸ extends_) stuck

/-- In a set that is closed under prefixes, a suffix of the text with the letter is empty or an
extended suffix of the text. -/
theorem suffix_concat_cases (closed : ∀ word letter, word ++ [letter] ∈ words → word ∈ words)
    {other : List α} (mem : other ∈ words) (ends : other <:+ text ++ [letter]) :
    other = [] ∨ ∃ before ∈ words, before <:+ text ∧ other = before ++ [letter] := by
  rcases List.suffix_concat_iff.mp ends with none_ | ⟨before, rfl, before_⟩
  · exact Or.inl none_
  · exact Or.inr ⟨before, closed _ _ mem, before_, rfl⟩

/-- A candidate that can be extended gives the longest suffix of the text with the letter. -/
theorem Candidate.extend (closed : ∀ word letter, word ++ [letter] ∈ words → word ∈ words)
    (candidate : Candidate words bound text letter word) (extends_ : word ++ [letter] ∈ words) :
    LongestBelow words (bound + 1) (text ++ [letter]) (word ++ [letter]) where
  suffix := by
    obtain ⟨before, rfl⟩ := candidate.suffix
    exact ⟨before, by simp⟩
  mem := extends_
  within := by simpa using candidate.within
  longest other mem ends within := by
    rcases suffix_concat_cases closed mem ends with rfl | ⟨before, known, before_, rfl⟩
    · exact Nat.zero_le _
    · simpa using candidate.longest before known before_ (by simpa using within) mem

/-- When not even the empty word can be extended, the longest suffix is empty. -/
theorem Candidate.restart (closed : ∀ word letter, word ++ [letter] ∈ words → word ∈ words)
    (candidate : Candidate words bound text letter []) (stuck : [letter] ∉ words) :
    LongestBelow words (bound + 1) (text ++ [letter]) [] where
  suffix := List.nil_suffix
  mem := candidate.mem
  within := Nat.succ_pos _
  longest other mem ends within := by
    rcases suffix_concat_cases closed mem ends with rfl | ⟨before, known, before_, rfl⟩
    · exact Nat.le_refl _
    · have le := candidate.longest before known before_ (by simpa using within) mem
      have none_ : before = [] := List.eq_nil_of_length_eq_zero (Nat.le_zero.mp le)
      subst none_
      exact absurd mem stuck

end Automaton
