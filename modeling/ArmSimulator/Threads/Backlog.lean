import ArmSimulator.Threads.Commands

/-!
# The replies that wait

A handler that runs beside the unlocked half of a round can take its reply, but then the
round takes the handler's. With motors that answer at once every poll finds a frame, and as
many replies wait as there are frames that their senders have not polled for. A sender may
never do so: the last request of `close_all` has no poll, and a cancelled thread may stop
before its own.
-/

namespace ArmSimulator

/-- The frames that a thread has sent and not polled for. -/
def ControlPc.unpolled : ControlPc → ℕ
  | .elbowReceive | .shoulderReceive => 1
  | _ => 0

def KeyboardPc.unpolled : KeyboardPc → ℕ
  | .receive _ _ => 1
  | _ => 0

/-- `close_all` does not poll for the reply to its last request. -/
def ClosePc.unpolled : ClosePc → ℕ
  | .shutdownReceive _ | .busClose => 1
  | _ => 0

@[simp]
theorem ControlPc.unpolled_send (joint : Joint) : (ControlPc.send joint).unpolled = 0 := by
  cases joint <;> rfl

@[simp]
theorem ControlPc.unpolled_receive (joint : Joint) : (ControlPc.receive joint).unpolled = 1 := by
  cases joint <;> rfl

@[simp]
theorem ControlPc.unpolled_afterRead (joint : Joint) :
    (ControlPc.afterRead joint).unpolled = 0 := by
  cases joint <;> rfl

@[simp]
theorem unpolled_nextCommand (handler : Handler) (joint : Joint) :
    (Threads.nextCommand handler joint).unpolled = 0 := by
  cases joint <;> rfl

@[simp]
theorem unpolled_afterShutdown (joint : Joint) : (Program.afterShutdown joint).unpolled = 0 := by
  cases joint <;> rfl

/-- The socket holds so many replies. -/
def CanBus.Owes (bus : CanBus) (replies : ℕ) : Prop :=
  bus.sRecv.arrived.length = bus.sRecv.taken + replies

namespace CanBus.Owes

variable {bus : CanBus} {replies : ℕ}

theorem answer {sent : CanBus} (owes : bus.Owes replies) (same : sent.sRecv = bus.sRecv)
    (reply : Vector Byte 7) : (sent.answer reply).Owes (replies + 1) := by
  simp only [Owes, CanBus.answer, deliver_sRecv, Fifo.pushAll_arrived, Fifo.pushAll_taken, same,
    List.length_append, List.length_singleton] at owes ⊢
  omega

/-- A poll that a thread waits for finds a frame. -/
theorem receive (owes : bus.Owes (replies + 1)) (address : Word) (cmdNumber : Byte) :
    (canBusReceive address cmdNumber false bus).Owes replies := by
  have bound : bus.sRecv.taken < bus.sRecv.arrived.length := by
    rw [owes]
    omega
  have popped : bus.sRecv.pop =
      some (bus.sRecv.arrived[bus.sRecv.taken], ⟨_, bus.sRecv.taken + 1, bound⟩) :=
    Fifo.pop_eq_some_iff.mpr ⟨List.getElem?_eq_getElem bound, rfl, rfl⟩
  rw [Owes, (canBusReceive_of_pop address cmdNumber popped).1]
  simp only [Owes] at owes ⊢
  omega

theorem length_pending (owes : bus.Owes replies) : bus.sRecv.pending.length = replies := by
  rw [Fifo.length_pending, owes]
  omega

end CanBus.Owes

theorem Arm.readPositionReceive_owes {arm : Arm} {replies : ℕ} (owes : arm.bus.Owes (replies + 1))
    (joint : Joint) : (arm.readPositionReceive joint false).1.bus.Owes replies := by
  rw [CanBus.Owes, readPositionReceive_bus_sRecv]
  exact owes.receive (arm.motor joint).canAddress (cmdByte getPositionMsg)

namespace Threads

theorem sendCommand_sRecv {threads : Threads} {joint : Joint} {handler : Handler} {bus : CanBus}
    (sent : threads.sendCommand joint handler = some bus) :
    bus.sRecv = threads.arm.bus.sRecv := by
  cases handler with
  | b =>
      simp only [sendCommand, Option.ite_none_right_eq_some, Option.some.injEq] at sent
      rw [← sent.2]
      rfl
  | z =>
      simp only [sendCommand, Option.some.injEq] at sent
      rw [← sent]
      rfl

/-- A step of the threads leaves what others await in the socket. -/
theorem Move.owes {threads next : Threads} {action : ThreadsAction} {others : ℕ}
    (owes : threads.arm.bus.Owes (threads.control.unpolled + threads.keyboard.unpolled + others))
    (move : Move threads action next) :
    next.arm.bus.Owes (next.control.unpolled + next.keyboard.unpolled + others) := by
  cases move with
  | controlSend reply joint pc =>
      have sent := owes.answer (threads.arm.readPositionSend_sRecv joint) reply
      simpa [pc, afterSend, Nat.add_comm, Nat.add_left_comm] using sent
  | controlReceive reply joint pc =>
      have polled : (threads.arm.readPositionReceive joint false).1.bus.Owes
          (threads.keyboard.unpolled + others) := by
        apply Arm.readPositionReceive_owes
        simpa [pc, Nat.add_comm, Nat.add_left_comm] using owes
      simpa using polled
  | keyboardSend reply handler joint pc bus sent =>
      have sent := owes.answer (sendCommand_sRecv sent) reply
      simpa [pc, afterSend, KeyboardPc.unpolled, Nat.add_comm, Nat.add_left_comm] using sent
  | keyboardReceive reply handler joint pc =>
      have awaited : threads.arm.bus.Owes (threads.control.unpolled + others + 1) := by
        simpa [pc, KeyboardPc.unpolled, Nat.add_comm, Nat.add_left_comm] using owes
      have polled : (threads.receiveCommand joint handler).bus.Owes
          (threads.control.unpolled + others) := by
        cases handler <;> exact awaited.receive _ _
      simpa using polled
  | press handler pc =>
      cases handler <;> simpa [pc, startHandler, KeyboardPc.unpolled] using owes
  | keyboardSkip reply handler joint pc unsent =>
      rw [unpolled_nextCommand]
      simpa [pc, KeyboardPc.unpolled] using owes
  | controlLock reply pc free | controlUnlock reply pc | controlSignal reply pc nobody
  | keyboardLock reply handler pc free | keyboardWait reply handler pc
  | keyboardRelock reply handler pc free | keyboardUnlock reply pc =>
      simpa [pc, ControlPc.unpolled, KeyboardPc.unpolled] using owes
  | controlWake reply pc handler waits =>
      simpa [pc, waits, ControlPc.unpolled, KeyboardPc.unpolled] using owes
  | spuriousWakeup handler waits => simpa [waits, KeyboardPc.unpolled] using owes

end Threads

namespace Program

/-- The frames that the threads and `close_all` have sent and not polled for. -/
def unpolled (program : Program) : ℕ :=
  program.threads.control.unpolled + program.threads.keyboard.unpolled + program.closing.unpolled

theorem Move.owes {program next : Program} {action : ProgramAction}
    (owes : program.closing ≠ .exited → program.arm.bus.Owes program.unpolled)
    (move : Move program action next) (alive : next.closing ≠ .exited) :
    next.arm.bus.Owes next.unpolled := by
  cases move with
  | threads action admits next move => exact move.owes (owes alive)
  | escape running idle => simpa [unpolled, arm, running, ClosePc.unpolled] using owes
  | shutdownSend reply failed joint pc =>
      have sent := (owes (by simp [pc])).answer
        (rfl : ((program.arm.motor joint).shutdownCmdSend program.arm.bus).sRecv = _) reply
      simpa [unpolled, arm, pc, Threads.afterSend, ClosePc.unpolled] using sent
  | shutdownReceive reply failed joint pc =>
      have awaited : program.arm.bus.Owes
          (program.threads.control.unpolled + program.threads.keyboard.unpolled + 1) := by
        simpa [unpolled, pc, ClosePc.unpolled] using owes
      rw [unpolled, unpolled_afterShutdown]
      exact awaited.receive _ _
  | proceed reply failed closing cancelled pc =>
      rcases pc with ⟨pc, rfl | rfl⟩ | ⟨pc, rfl | rfl⟩ | ⟨pc, rfl⟩
      · contradiction
      · simpa [unpolled, arm, pc, ClosePc.unpolled] using owes
      · contradiction
      · simpa [unpolled, arm, pc, ClosePc.unpolled] using owes
      · contradiction
  | lastSend reply failed pc =>
      have sent := (owes (by simp [pc])).answer (canBusSend_sRecv sendBuf 0x142 _) reply
      simpa [unpolled, arm, pc, Threads.afterSend, ClosePc.unpolled] using sent
  | stopControl => exact owes alive

end Program

end ArmSimulator
