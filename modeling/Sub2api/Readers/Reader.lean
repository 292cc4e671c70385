import Mathlib.Data.List.Basic
import Mathlib.Data.Nat.Basic

/-!
# Readers

A reader is a stream with what its reads give: at most so many elements each, perhaps none, and as
many as asked for when the list of sizes is used up. The stream ends properly or with an error; a
`prompt` reader says so together with its last elements, another one by a read of its own.

`fill` reads until a buffer is full, and `readAll` until the end of at most `limit` elements, which a
limit that is reached makes look like the end of the stream (`readAll_eq`).
-/

namespace Readers

variable {α ε : Type*}

inductive Ending (ε : Type*) where
  | eof
  | failed (e : ε)

/-- What is left of a stream, how it ends, and what its next reads give. -/
structure Reader (α ε : Type*) where
  content : List α
  ending : Ending ε
  prompt : Bool
  sizes : List ℕ

/-- What a read gives: elements, the end of the stream if it was reached, and what is left. -/
structure Reading (α ε : Type*) where
  data : List α
  ended : Option (Ending ε)
  rest : Reader α ε

namespace Reader

/-- One read that asks for `m` elements. -/
def read (r : Reader α ε) (m : ℕ) : Reading α ε :=
  if r.content.isEmpty && (r.prompt || r.sizes.isEmpty) then ⟨[], some r.ending, r⟩
  else
    let size := min m (r.sizes.headD m)
    let left := r.content.drop size
    { data := r.content.take size
      ended := if left.isEmpty && r.prompt then some r.ending else none
      rest := { r with content := left, sizes := r.sizes.tail } }

/-- How many reads a reader can have left. -/
def remaining (r : Reader α ε) : ℕ := r.content.length + r.sizes.length

variable (r : Reader α ε)

/-- Nothing is lost between the reads, and the end comes after everything. -/
theorem read_data (m : ℕ) : (r.read m).data ++ (r.read m).rest.content = r.content := by
  unfold read
  split
  · rename_i finished
    rw [Bool.and_eq_true, List.isEmpty_iff] at finished
    rw [finished.1]
    rfl
  · exact List.take_append_drop _ _

@[simp] theorem read_ending (m : ℕ) : (r.read m).rest.ending = r.ending := by
  unfold read
  split <;> rfl

@[simp] theorem read_prompt (m : ℕ) : (r.read m).rest.prompt = r.prompt := by
  unfold read
  split <;> rfl

theorem read_length (m : ℕ) : (r.read m).data.length ≤ m := by
  unfold read
  split
  · exact Nat.zero_le m
  · exact Nat.le_trans (List.length_take_le _ _) (Nat.min_le_left _ _)

theorem read_ended {m : ℕ} {e : Ending ε} (ended : (r.read m).ended = some e) :
    e = r.ending ∧ (r.read m).rest.content = [] := by
  unfold read at ended ⊢
  split at ended
  · rename_i finished
    rw [if_pos finished]
    rw [Bool.and_eq_true, List.isEmpty_iff] at finished
    cases ended
    exact ⟨rfl, finished.1⟩
  · rename_i unfinished
    rw [if_neg unfinished]
    dsimp only at ended ⊢
    split at ended
    · rename_i finished
      rw [Bool.and_eq_true, List.isEmpty_iff] at finished
      cases ended
      exact ⟨rfl, finished.1⟩
    · cases ended

/-- A prompt reader says that it is at the end. -/
theorem read_prompt_ended {m : ℕ} (prompt : r.prompt = true)
    (last : (r.read m).rest.content = []) : (r.read m).ended = some r.ending := by
  unfold read at last ⊢
  split
  · rfl
  · rename_i unfinished
    rw [if_neg unfinished] at last
    dsimp only at last ⊢
    rw [last, prompt]
    rfl

/-- Another reader says so only when it has nothing to give. -/
theorem read_late_ended {m : ℕ} (late : r.prompt = false) {e : Ending ε}
    (ended : (r.read m).ended = some e) : r.content = [] := by
  unfold read at ended
  split at ended
  · rename_i finished
    rw [Bool.and_eq_true, List.isEmpty_iff] at finished
    exact finished.1
  · dsimp only at ended
    rw [late, Bool.and_false] at ended
    cases ended

/-- A read that asks for something and is not the last one makes progress. -/
theorem read_remaining {m : ℕ} (some_ : 0 < m) (more : (r.read m).ended = none) :
    (r.read m).rest.remaining < r.remaining := by
  unfold read at more ⊢
  unfold remaining
  split at more
  · cases more
  · rename_i unfinished
    rw [if_neg unfinished]
    dsimp only
    rw [List.length_drop, List.length_tail]
    cases sizes : r.sizes with
    | cons size later =>
        rw [List.length_cons]
        omega
    | nil =>
        have left : r.content ≠ [] := by
          intro none_
          rw [none_, sizes] at unfinished
          exact unfinished (by simp)
        have length := List.length_pos_iff.mpr left
        rw [List.headD_nil, Nat.min_self, List.length_nil]
        omega

end Reader

/-! ### Filling a buffer -/

/-- Reads until `m` elements are there or the stream has ended. -/
def fill (r : Reader α ε) (m : ℕ) : Reading α ε :=
  if _some : 0 < m then
    match _more : (r.read m).ended with
    | some e => ⟨(r.read m).data, some e, (r.read m).rest⟩
    | none =>
      let later := fill (r.read m).rest (m - (r.read m).data.length)
      ⟨(r.read m).data ++ later.data, later.ended, later.rest⟩
  else ⟨[], none, r⟩
termination_by r.remaining
decreasing_by exact r.read_remaining _some _more

/-- What a call makes of a stream: nothing is lost, an end is the stream's, and without one there is
a full buffer. -/
structure Took (r : Reader α ε) (m : ℕ) (got : Reading α ε) : Prop where
  data : got.data ++ got.rest.content = r.content
  ended : ∀ e, got.ended = some e → e = r.ending ∧ got.rest.content = []
  ending : got.rest.ending = r.ending
  full : got.ended = none → got.data.length = m
  progress : 0 < m → got.ended = none → got.rest.remaining < r.remaining

theorem fill_took (r : Reader α ε) (m : ℕ) : Took r m (fill r m) := by
  induction r, m using fill.induct with
  | case1 r m some_ e ended =>
      have last := r.read_ended ended
      have filled : fill r m = ⟨(r.read m).data, some e, (r.read m).rest⟩ := by
        rw [fill, dif_pos some_]
        split
        · rename_i e' ended'
          rw [ended] at ended'
          cases ended'
          rfl
        · rename_i more
          rw [ended] at more
          cases more
      rw [filled]
      constructor
      · exact r.read_data m
      · intro e' same
        cases same
        exact last
      · exact r.read_ending m
      · nofun
      · nofun
  | case2 r m some_ more ih =>
      have filled : fill r m =
          ⟨(r.read m).data ++ (fill (r.read m).rest (m - (r.read m).data.length)).data,
            (fill (r.read m).rest (m - (r.read m).data.length)).ended,
            (fill (r.read m).rest (m - (r.read m).data.length)).rest⟩ := by
        rw [fill, dif_pos some_]
        split
        · rename_i e' ended'
          rw [more] at ended'
          cases ended'
        · rfl
      rw [filled]
      have first := r.read_remaining some_ more
      have length := r.read_length m
      constructor
      · dsimp only
        rw [List.append_assoc, ih.data, r.read_data]
      · intro e ended
        rw [← r.read_ending m]
        exact ih.ended e ended
      · exact ih.ending.trans (r.read_ending m)
      · intro unfinished
        dsimp only
        rw [List.length_append, ih.full unfinished]
        omega
      · intro _ unfinished
        by_cases all : 0 < m - (r.read m).data.length
        · exact Nat.lt_trans (ih.progress all unfinished) first
        · have stops : fill (r.read m).rest (m - (r.read m).data.length) =
              ⟨[], none, (r.read m).rest⟩ := by
            rw [fill, dif_neg all]
          dsimp only
          rw [stops]
          exact first
  | case3 r m none_ =>
      have filled : fill r m = ⟨[], none, r⟩ := by
        rw [fill, dif_neg none_]
      rw [filled]
      constructor
      · rfl
      · nofun
      · rfl
      · intro _
        simp only [List.length_nil]
        omega
      · intro some_
        exact absurd some_ none_

/-! ### Reading up to a limit -/

/-- A read through a limit, which ends the stream when it is used up. -/
def limitedRead (r : Reader α ε) (limit m : ℕ) : Reading α ε :=
  if limit = 0 then ⟨[], some .eof, r⟩ else r.read (min m limit)

theorem limitedRead_remaining (r : Reader α ε) {limit m : ℕ} (some_ : 0 < m)
    (more : (limitedRead r limit m).ended = none) :
    (limitedRead r limit m).rest.remaining < r.remaining := by
  unfold limitedRead at more ⊢
  split at more
  · cases more
  · rename_i open_
    rw [if_neg open_]
    exact r.read_remaining (by omega) more

/-- Reads until the limited stream has ended. After `length` elements the buffer has room for
`spare length + 1`. -/
def readAll (spare : ℕ → ℕ) (r : Reader α ε) (limit length : ℕ) : List α × Ending ε :=
  match _more : (limitedRead r limit (spare length + 1)).ended with
  | some e => ((limitedRead r limit (spare length + 1)).data, e)
  | none =>
    let first := limitedRead r limit (spare length + 1)
    let later := readAll spare first.rest (limit - first.data.length) (length + first.data.length)
    (first.data ++ later.1, later.2)
termination_by r.remaining
decreasing_by exact limitedRead_remaining r (Nat.succ_pos _) _more

/-- The stream is at its end within the limit: with at most so many elements, or, when it ends with
an error, with the error before the limit is used up. -/
def Within (r : Reader α ε) (limit : ℕ) : Prop :=
  match r.ending with
  | .eof => r.content.length ≤ limit
  | .failed _ => r.content.length < limit ∨ (r.content.length = limit ∧ r.prompt = true)

variable {r : Reader α ε}

theorem Within.length_le {limit : ℕ} (inside : Within r limit) :
    r.content.length ≤ limit := by
  unfold Within at inside
  split at inside <;> omega

theorem within_of_lt {limit : ℕ} (less : r.content.length < limit) :
    Within r limit := by
  unfold Within
  split
  · exact Nat.le_of_lt less
  · exact Or.inl less

theorem within_of_prompt {limit : ℕ} (le : r.content.length ≤ limit) (prompt : r.prompt = true) :
    Within r limit := by
  unfold Within
  split
  · exact le
  · rcases Nat.lt_or_eq_of_le le with less | same
    · exact Or.inl less
    · exact Or.inr ⟨same, prompt⟩

/-- What the first read has left is within what it has left of the limit. -/
theorem within_rest {limit m : ℕ} (le : (r.read m).data.length ≤ limit) :
    Within (r.read m).rest (limit - (r.read m).data.length) ↔ Within r limit := by
  have length := congrArg List.length (r.read_data m)
  rw [List.length_append] at length
  have fewer : (r.read m).rest.content.length < limit - (r.read m).data.length ↔
      r.content.length < limit := by omega
  have same : (r.read m).rest.content.length = limit - (r.read m).data.length ↔
      r.content.length = limit := by omega
  unfold Within
  rw [r.read_ending, r.read_prompt]
  split
  · omega
  · rw [fewer, same]

theorem readAll_of_ended {spare : ℕ → ℕ} {limit length : ℕ} {e : Ending ε}
    (ended : (limitedRead r limit (spare length + 1)).ended = some e) :
    readAll spare r limit length = ((limitedRead r limit (spare length + 1)).data, e) := by
  rw [readAll]
  split
  · rename_i e' ended'
    rw [ended] at ended'
    cases ended'
    rfl
  · rename_i more
    rw [ended] at more
    cases more

theorem readAll_of_more {spare : ℕ → ℕ} {limit length : ℕ}
    (more : (limitedRead r limit (spare length + 1)).ended = none) :
    readAll spare r limit length =
      ((limitedRead r limit (spare length + 1)).data ++
        (readAll spare (limitedRead r limit (spare length + 1)).rest
          (limit - (limitedRead r limit (spare length + 1)).data.length)
          (length + (limitedRead r limit (spare length + 1)).data.length)).1,
        (readAll spare (limitedRead r limit (spare length + 1)).rest
          (limit - (limitedRead r limit (spare length + 1)).data.length)
          (length + (limitedRead r limit (spare length + 1)).data.length)).2) := by
  rw [readAll]
  split
  · rename_i e' ended'
    rw [more] at ended'
    cases ended'
  · rfl

theorem readAll_closed (spare : ℕ → ℕ) (r : Reader α ε) (length : ℕ) :
    readAll spare r 0 length = ([], .eof) := readAll_of_ended rfl

/-- **What is read up to a limit.** A stream that is at its end within the limit is read as it is; of
any other the first elements are, and they look like the whole of it. -/
theorem readAll_eq (spare : ℕ → ℕ) (r : Reader α ε) (limit length : ℕ) (some_ : 0 < limit) :
    (Within r limit → readAll spare r limit length = (r.content, r.ending)) ∧
    (¬Within r limit → readAll spare r limit length = (r.content.take limit, .eof)) := by
  induction count : r.remaining using Nat.strong_induction_on generalizing r limit length with
  | _ count ih =>
      have first : limitedRead r limit (spare length + 1) = r.read (min (spare length + 1) limit) :=
        if_neg (by omega)
      generalize asked : min (spare length + 1) limit = m at first
      have m_le : m ≤ limit := by omega
      have m_pos : 0 < m := by omega
      have data := r.read_data m
      have short := r.read_length m
      have lengths := congrArg List.length data
      rw [List.length_append] at lengths
      cases ended : (r.read m).ended with
      | some e =>
          obtain ⟨rfl, all⟩ := r.read_ended ended
          rw [all, List.append_nil] at data
          rw [all, List.length_nil] at lengths
          have whole : readAll spare r limit length = (r.content, r.ending) := by
            rw [readAll_of_ended (by rw [first]; exact ended), first, data]
          have inside : Within r limit := by
            cases prompt : r.prompt with
            | true => exact within_of_prompt (by omega) prompt
            | false =>
                apply within_of_lt
                rw [r.read_late_ended prompt ended]
                exact some_
          exact ⟨fun _ => whole, fun outside => absurd inside outside⟩
      | none =>
          rw [readAll_of_more (by rw [first]; exact ended), first]
          have fewer := r.read_remaining m_pos ended
          by_cases left : limit - (r.read m).data.length = 0
          · -- the limit is used up, and the stream has not said that it is at its end
            have cut : (r.read m).data = r.content.take limit := by
              rw [← data, List.take_append_of_le_length (by omega), List.take_of_length_le (by omega)]
            rw [left, readAll_closed, List.append_nil]
            constructor
            · intro inside
              have le := inside.length_le
              have rest : (r.read m).rest.content = [] := List.length_eq_zero_iff.mp (by omega)
              have late : r.prompt = false := by
                cases prompt : r.prompt with
                | false => rfl
                | true =>
                    rw [r.read_prompt_ended prompt rest] at ended
                    cases ended
              rw [rest, List.append_nil] at data
              unfold Within at inside
              cases ending : r.ending with
              | eof => rw [data]
              | failed e =>
                  rw [ending, late] at inside
                  simp only [Bool.false_eq_true, and_false, or_false] at inside
                  omega
            · intro _
              rw [cut]
          · obtain ⟨whole, cut⟩ := ih _ (by omega) (r.read m).rest
              (limit - (r.read m).data.length) (length + (r.read m).data.length) (by omega) rfl
            rw [within_rest (by omega)] at whole cut
            constructor
            · intro inside
              rw [whole inside, r.read_ending, data]
            · intro outside
              have all : (r.read m).data.take limit = (r.read m).data :=
                List.take_of_length_le (by omega)
              have parts : r.content.take limit = (r.read m).data ++
                  (r.read m).rest.content.take (limit - (r.read m).data.length) := by
                rw [← data, List.take_append, all]
              rw [cut outside, parts]

end Readers
