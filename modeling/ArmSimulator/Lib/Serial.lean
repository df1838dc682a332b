import Mathlib.Data.List.Flatten
import Mathlib.Tactic.Common

/-!
# Logs of whole transactions

A log is serial when it is a sequence of whole transactions, up to the beginning of one
that is still open. The log grows at its end: an element extends the open transaction, and
a transaction that is whole closes it.
-/

universe u

/-- The log is whole transactions, one after the other, and then the open elements. -/
def Serial {α : Type u} (Whole : List α → Prop) (log opened : List α) : Prop :=
  ∃ transactions : List (List α), (∀ transaction ∈ transactions, Whole transaction) ∧
    log = transactions.flatten ++ opened

namespace Serial

variable {α : Type u} {Whole : List α → Prop} {log opened : List α}

theorem start : Serial Whole [] [] := ⟨[], by simp, rfl⟩

theorem extend (serial : Serial Whole log opened) (element : α) :
    Serial Whole (log ++ [element]) (opened ++ [element]) := by
  rcases serial with ⟨transactions, whole, rfl⟩
  exact ⟨transactions, whole, List.append_assoc _ _ _⟩

theorem close (serial : Serial Whole log opened) (whole : Whole opened) :
    Serial Whole log [] := by
  rcases serial with ⟨transactions, earlier, rfl⟩
  refine ⟨transactions ++ [opened], ?_, by simp⟩
  intro transaction mem
  rcases List.mem_append.mp mem with mem | mem
  · exact earlier transaction mem
  · rw [List.mem_singleton.mp mem]
    exact whole

end Serial
