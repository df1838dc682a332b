import Mathlib.Data.List.Basic
import Mathlib.Tactic.Common

/-!
# First-in first-out queues with a delivery record

A queue keeps everything that was ever pushed and the number of elements already
taken, so that the element popped next carries its delivery number. The waiting
elements are a derived notion.
-/

universe u

/-- A queue together with the record of all its deliveries. -/
structure Fifo (α : Type u) where
  arrived : List α
  taken : ℕ
  taken_le : taken ≤ arrived.length

namespace Fifo

variable {α : Type u}

@[ext]
theorem ext {left right : Fifo α} (arrived : left.arrived = right.arrived)
    (taken : left.taken = right.taken) : left = right := by
  cases left
  cases right
  simp_all

def empty : Fifo α := ⟨[], 0, Nat.le_refl 0⟩

def pending (queue : Fifo α) : List α := queue.arrived.drop queue.taken

def pushAll (queue : Fifo α) (elements : List α) : Fifo α :=
  ⟨queue.arrived ++ elements, queue.taken, by
    have := queue.taken_le
    simp
    omega⟩

def push (queue : Fifo α) (element : α) : Fifo α := queue.pushAll [element]

def pop (queue : Fifo α) : Option (α × Fifo α) :=
  if waiting : queue.taken < queue.arrived.length then
    some (queue.arrived[queue.taken], ⟨queue.arrived, queue.taken + 1, waiting⟩)
  else none

@[simp]
theorem pushAll_arrived (queue : Fifo α) (elements : List α) :
    (queue.pushAll elements).arrived = queue.arrived ++ elements := rfl

@[simp]
theorem pushAll_taken (queue : Fifo α) (elements : List α) :
    (queue.pushAll elements).taken = queue.taken := rfl

@[simp]
theorem push_arrived (queue : Fifo α) (element : α) :
    (queue.push element).arrived = queue.arrived ++ [element] := rfl

@[simp]
theorem push_taken (queue : Fifo α) (element : α) :
    (queue.push element).taken = queue.taken := rfl

theorem length_pending (queue : Fifo α) :
    queue.pending.length = queue.arrived.length - queue.taken := by
  simp [pending]

/-- A popped element is the one delivered under the number `taken`. -/
theorem pop_eq_some_iff {queue rest : Fifo α} {element : α} :
    queue.pop = some (element, rest) ↔
      queue.arrived[queue.taken]? = some element ∧
        rest.arrived = queue.arrived ∧ rest.taken = queue.taken + 1 := by
  constructor
  · intro popped
    by_cases waiting : queue.taken < queue.arrived.length
    · simp only [pop, waiting, dite_true, Option.some.injEq, Prod.mk.injEq] at popped
      rcases popped with ⟨rfl, rfl⟩
      simp [waiting]
    · simp [pop, waiting] at popped
  · rintro ⟨delivered, arrived, taken⟩
    obtain ⟨waiting, rfl⟩ := List.getElem?_eq_some_iff.mp delivered
    simp only [pop, waiting, dite_true, Option.some.injEq, Prod.mk.injEq, true_and]
    ext1 <;> simp [arrived, taken]

end Fifo
