import Mathlib.Logic.Function.Basic
import ArmSimulator.Lib.Fifo

/-!
# Clients that share a reply queue

Several clients put requests whose replies arrive, in request order, on one queue. The
ledger records for each client the delivery number of the reply it waits for. While the
waiting replies are exactly those recorded, a client takes its own reply exactly when no
other client waits for an earlier one.
-/

universe u v

/-- The replies that clients wait for are exactly the ones waiting in the queue. -/
structure Ledger {α : Type u} {Client : Type v} (queue : Fifo α)
    (awaited : Client → Option ℕ) : Prop where
  waiting_iff : ∀ serial, (queue.taken ≤ serial ∧ serial < queue.arrived.length) ↔
    ∃ client, awaited client = some serial
  unique : ∀ {first second serial}, awaited first = some serial →
    awaited second = some serial → first = second

namespace Ledger

variable {α : Type u} {Client : Type v} {queue : Fifo α} {awaited : Client → Option ℕ}

/-- No client waits and the queue is empty. -/
theorem start : Ledger (.empty : Fifo α) (fun _ : Client => none) where
  waiting_iff serial := by simp [Fifo.empty]
  unique := by simp

/-- Another client waits for an earlier reply. -/
def Overtakes (awaited : Client → Option ℕ) (client other : Client) : Prop :=
  ∃ own earlier, awaited client = some own ∧ awaited other = some earlier ∧ earlier < own

variable [DecidableEq Client]

/-- A client that does not wait sends a request, and its reply is queued. -/
theorem send (ledger : Ledger queue awaited) {client : Client} (idle : awaited client = none)
    (reply : α) :
    Ledger (queue.push reply)
      (Function.update awaited client (some queue.arrived.length)) where
  waiting_iff serial := by
    rw [Fifo.push_taken, Fifo.push_arrived, List.length_append, List.length_singleton]
    have taken_le := queue.taken_le
    constructor
    · rintro ⟨lower, upper⟩
      by_cases last : serial = queue.arrived.length
      · exact ⟨client, by simp [last]⟩
      · rcases (ledger.waiting_iff serial).mp ⟨lower, by omega⟩ with ⟨other, waits⟩
        have different : other ≠ client := by
          rintro rfl
          simp [idle] at waits
        exact ⟨other, by rw [Function.update_of_ne different, waits]⟩
    · rintro ⟨other, waits⟩
      by_cases same : other = client
      · subst other
        simp only [Function.update_self, Option.some.injEq] at waits
        omega
      · rw [Function.update_of_ne same] at waits
        have := (ledger.waiting_iff serial).mpr ⟨other, waits⟩
        omega
  unique := by
    -- An old serial is below the new one.
    have old : ∀ {other serial}, awaited other = some serial → serial < queue.arrived.length :=
      fun waits => ((ledger.waiting_iff _).mpr ⟨_, waits⟩).2
    intro first second serial firstWaits secondWaits
    by_cases firstSame : first = client <;> by_cases secondSame : second = client
    · rw [firstSame, secondSame]
    · subst first
      simp only [Function.update_self, Option.some.injEq] at firstWaits
      rw [Function.update_of_ne secondSame] at secondWaits
      have := old secondWaits
      omega
    · subst second
      simp only [Function.update_self, Option.some.injEq] at secondWaits
      rw [Function.update_of_ne firstSame] at firstWaits
      have := old firstWaits
      omega
    · rw [Function.update_of_ne firstSame] at firstWaits
      rw [Function.update_of_ne secondSame] at secondWaits
      exact ledger.unique firstWaits secondWaits

omit [DecidableEq Client] in
/-- The oldest waiting reply is a client's own exactly when no other overtakes it. -/
theorem own_iff_not_overtaken (ledger : Ledger queue awaited) {client : Client} {own : ℕ}
    (waits : awaited client = some own) :
    queue.taken = own ↔ ∀ other, ¬Overtakes awaited client other := by
  have waiting := (ledger.waiting_iff own).mpr ⟨client, waits⟩
  constructor
  · rintro oldest other ⟨own', earlier, waits', otherWaits, less⟩
    have otherWaiting := (ledger.waiting_iff earlier).mpr ⟨other, otherWaits⟩
    rw [waits, Option.some.injEq] at waits'
    omega
  · intro first
    by_contra later
    rcases (ledger.waiting_iff queue.taken).mp ⟨Nat.le_refl _, by omega⟩ with ⟨other, oldest⟩
    exact first other ⟨own, queue.taken, waits, oldest, by omega⟩

/-- A client takes its own reply. -/
theorem receive (ledger : Ledger queue awaited) {client : Client}
    (waits : awaited client = some queue.taken) {rest : Fifo α}
    (arrived : rest.arrived = queue.arrived) (taken : rest.taken = queue.taken + 1) :
    Ledger rest (Function.update awaited client none) where
  waiting_iff serial := by
    rw [arrived, taken]
    constructor
    · rintro ⟨lower, upper⟩
      rcases (ledger.waiting_iff serial).mp ⟨by omega, upper⟩ with ⟨other, otherWaits⟩
      have different : other ≠ client := by
        rintro rfl
        rw [waits, Option.some.injEq] at otherWaits
        omega
      exact ⟨other, by rw [Function.update_of_ne different, otherWaits]⟩
    · rintro ⟨other, otherWaits⟩
      by_cases same : other = client
      · subst other
        simp at otherWaits
      · rw [Function.update_of_ne same] at otherWaits
        have bounds := (ledger.waiting_iff serial).mpr ⟨other, otherWaits⟩
        have different : queue.taken ≠ serial := by
          rintro rfl
          exact same (ledger.unique otherWaits waits)
        omega
  unique := by
    intro first second serial firstWaits secondWaits
    by_cases firstSame : first = client
    · subst first
      simp at firstWaits
    · by_cases secondSame : second = client
      · subst second
        simp at secondWaits
      · rw [Function.update_of_ne firstSame] at firstWaits
        rw [Function.update_of_ne secondSame] at secondWaits
        exact ledger.unique firstWaits secondWaits

end Ledger
