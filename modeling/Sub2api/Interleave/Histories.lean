import Mathlib.Data.List.Induction
import Mathlib.Data.List.Nodup

/-!
# Histories that grow at their end

That some entries occur in an order is that the list of them is a sublist of the history.
-/

namespace Interleave

universe u

variable {α : Type u}

/-- A history with one more entry, split at an entry: it is the new one, or one of those before. -/
theorem concat_eq_split {history before after : List α} {last entry : α}
    (same : history ++ [last] = before ++ entry :: after) :
    (before = history ∧ entry = last) ∨ ∃ after', history = before ++ entry :: after' := by
  rcases List.eq_nil_or_concat after with rfl | ⟨after', other, rfl⟩
  · obtain ⟨before_, entry_⟩ := List.append_inj' same rfl
    exact Or.inl ⟨before_.symm, (List.singleton_inj.mp entry_).symm⟩
  · right
    have ends : history ++ [last] = (before ++ entry :: after') ++ [other] := by simpa using same
    exact ⟨after', (List.append_inj' ends rfl).1⟩

/-- What happened in a history with one more entry: it ends with the new one, or it had happened
before. -/
theorem concat_sublist_concat {l history : List α} {entry last : α} :
    (l ++ [entry]).Sublist (history ++ [last]) ↔
      (l ++ [entry]).Sublist history ∨ (entry = last ∧ l.Sublist history) := by
  constructor
  · intro sub
    obtain ⟨first, second, same, inFirst, inSecond⟩ := List.sublist_append_iff.mp sub
    rcases List.sublist_singleton.mp inSecond with rfl | rfl
    · rw [List.append_nil] at same
      exact Or.inl (same ▸ inFirst)
    · obtain ⟨rfl, last_⟩ := List.append_inj' same rfl
      exact Or.inr ⟨List.singleton_inj.mp last_, inFirst⟩
  · rintro (sub | ⟨rfl, sub⟩)
    · exact sub.trans (List.sublist_append_left ..)
    · exact sub.append_right _

/-- In a history without repetitions, what ends with an entry and what begins with it follow one
another. -/
theorem sublist_glue {l l' history : List α} {entry : α} (nodup : history.Nodup)
    (until_ : (l ++ [entry]).Sublist history) (since : (entry :: l').Sublist history) :
    (l ++ entry :: l').Sublist history := by
  induction history using List.reverseRecOn generalizing l' with
  | nil => cases since
  | append_singleton history last ih =>
      obtain ⟨nodup_, -, fresh⟩ := List.nodup_append.mp nodup
      rcases List.eq_nil_or_concat l' with rfl | ⟨rest, entry', rfl⟩
      · exact until_
      · have since_ : ((entry :: rest) ++ [entry']).Sublist (history ++ [last]) := by simpa using since
        have before : (l ++ [entry]).Sublist history := by
          rcases concat_sublist_concat.mp until_ with before | ⟨rfl, -⟩
          · exact before
          · exfalso
            rcases concat_sublist_concat.mp since_ with twice | ⟨-, twice⟩
            · exact fresh entry (twice.subset (by simp)) entry (by simp) rfl
            · exact fresh entry (twice.subset (by simp)) entry (by simp) rfl
        have glued : ((l ++ entry :: rest) ++ [entry']).Sublist (history ++ [last]) := by
          rcases concat_sublist_concat.mp since_ with sub | ⟨rfl, sub⟩
          · apply List.Sublist.trans _ (List.sublist_append_left ..)
            simpa using ih nodup_ before (by simpa using sub : (entry :: (rest ++ [entry'])).Sublist history)
          · exact (ih nodup_ before sub).append_right _
        simpa using glued

/-- Of two entries one is before the other. -/
theorem pair_sublist_or {history : List α} {a b : α} (ne : a ≠ b) (mem : a ∈ history)
    (mem' : b ∈ history) : [a, b].Sublist history ∨ [b, a].Sublist history := by
  obtain ⟨before, after, rfl⟩ := List.append_of_mem mem
  rcases List.mem_append.mp mem' with early | late
  · right
    exact (List.singleton_sublist.mpr early).append (List.singleton_sublist.mpr (by simp))
  · left
    have late : b ∈ after := (List.mem_cons.mp late).resolve_left ne.symm
    apply List.Sublist.trans _ (List.sublist_append_right ..)
    exact (List.singleton_sublist.mpr late).cons_cons a

end Interleave
