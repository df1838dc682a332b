import Mathlib.Data.List.Forall2
import ArmSimulator.Threads.Commands

/-!
# Cached positions when polls are out of order

When whole polls come out of order, the threads take each other's replies. Those replies are
lost, but they do no harm: a poll keeps a frame only if its identifier and its command are
the expected ones, so a cached position always comes from a reply to a request that was
sent to the same motor, and never goes back to an older one.
-/

namespace ArmSimulator

/-- What one step of the program may do to the motors and the sockets. -/
inductive Arm.Touched (arm : Arm) : Arm → Prop where
  | kept : Touched arm arm
  | sent (commandBuf : Vector Byte 8) (address : Word) (reply : Vector Byte 7) :
      Touched arm { arm with bus := (canBusSend commandBuf address arm.bus).answer reply }
  | read (joint : Joint) : Touched arm (arm.readPositionReceive joint false).1
  | polled (address : Word) (cmdNumber : Byte) :
      Touched arm { arm with bus := canBusReceive address cmdNumber false arm.bus }

theorem Threads.Move.touched {threads next : Threads} (sound : threads.Sound)
    {action : ThreadsAction} (move : threads.Move action next) : threads.arm.Touched next.arm := by
  cases move with
  | controlSend reply joint pc => exact .sent getPositionMsg _ reply
  | controlReceive reply joint pc => exact .read joint
  | keyboardSend reply handler joint pc bus sent =>
      rw [sound.sendCommand_eq, Option.some.injEq] at sent
      subst bus
      exact .sent _ joint.address reply
  | keyboardReceive reply handler joint pc => cases handler <;> exact .polled _ _
  | press handler pc => cases handler <;> exact .kept
  | _ => exact .kept

theorem Program.Move.touched {program next : Program} (sound : program.threads.Sound)
    {action : ProgramAction} (move : Program.Move program action next) :
    program.arm.Touched next.arm := by
  cases move with
  | threads action admits next move => exact move.touched sound
  | shutdownSend reply failed joint pc => exact .sent shutdownMsg _ reply
  | shutdownReceive reply failed joint pc => exact .polled _ _
  | lastSend reply failed pc => exact .sent sendBuf 0x142 reply
  | escape | proceed | stopControl => exact .kept

namespace Arm

/-- The motors have answered every frame sent, in order. -/
def Answered (arm : Arm) : Prop :=
  List.Forall₂ (fun frame answer => ∃ payload, answer =
    CanFrame.reply frame.canId (cmdByte frame.data) payload) arm.bus.sSend arm.bus.sRecv.arrived

/-- The value is the position in the reply to the numbered frame, a request to the motor. -/
structure Reports (arm : Arm) (joint : Joint) (serial : ℕ) (value : CFloat) : Prop where
  taken : serial < arm.bus.sRecv.taken
  asked : ∃ frame, arm.bus.sSend[serial]? = some frame ∧ frame.canId = joint.address ∧
    cmdByte frame.data = cmdByte getPositionMsg
  answered : ∃ payload, arm.bus.sRecv.arrived[serial]? = some (positionReply joint payload) ∧
    value = .finite (positionReply joint payload).reportedPosition

/-- The sockets only grow. -/
structure Grows (arm next : Arm) : Prop where
  sSend : arm.bus.sSend <+: next.bus.sSend
  arrived : arm.bus.sRecv.arrived <+: next.bus.sRecv.arrived
  taken : arm.bus.sRecv.taken ≤ next.bus.sRecv.taken

theorem Touched.grows {arm next : Arm} (touched : arm.Touched next) : arm.Grows next := by
  cases touched with
  | kept => exact ⟨List.prefix_rfl, List.prefix_rfl, le_rfl⟩
  | sent commandBuf address reply =>
      exact ⟨List.prefix_append _ _, List.prefix_append _ _, le_rfl⟩
  | read joint =>
      refine ⟨by simp, by simp, ?_⟩
      rw [readPositionReceive_bus_sRecv]
      rcases canBusReceive_taken (arm.motor joint).canAddress (cmdByte getPositionMsg) false
        arm.bus with taken | taken <;> omega
  | polled address cmdNumber =>
      refine ⟨by simp, by simp, ?_⟩
      rcases canBusReceive_taken address cmdNumber false arm.bus with taken | taken <;>
        simp only [taken] <;> omega

theorem Reports.mono {arm next : Arm} {joint : Joint} {serial : ℕ} {value : CFloat}
    (reports : arm.Reports joint serial value) (grows : arm.Grows next) :
    next.Reports joint serial value := by
  rcases reports with ⟨earlier, ⟨frame, asked, request⟩, payload, answered, position⟩
  rcases List.getElem?_eq_some_iff.mp asked with ⟨sentBound, -⟩
  rcases List.getElem?_eq_some_iff.mp answered with ⟨arrivedBound, -⟩
  rcases grows.sSend with ⟨laterSent, sSend⟩
  rcases grows.arrived with ⟨laterArrived, arrived⟩
  refine ⟨earlier.trans_le grows.taken, ⟨frame, ?_, request⟩, payload, ?_, position⟩
  · rwa [← sSend, List.getElem?_append_left sentBound]
  · rwa [← arrived, List.getElem?_append_left arrivedBound]

/-- A frame that answers a poll for a position is the reply to a request to that motor. -/
theorem Answered.of_answers {arm : Arm} (answered : arm.Answered) {serial : ℕ} {answer : CanFrame}
    (delivered : arm.bus.sRecv.arrived[serial]? = some answer) {joint : Joint} {cmdNumber : Byte}
    (answers : answer.Answers joint.address cmdNumber) :
    (∃ frame, arm.bus.sSend[serial]? = some frame ∧ frame.canId = joint.address ∧
        cmdByte frame.data = cmdNumber) ∧
      ∃ payload, answer = .reply joint.address cmdNumber payload := by
  rcases List.getElem?_eq_some_iff.mp delivered with ⟨bound, rfl⟩
  have sentBound : serial < arm.bus.sSend.length := answered.length_eq ▸ bound
  rcases answered.get sentBound bound with ⟨payload, reply⟩
  simp only [List.get_eq_getElem] at reply
  rw [reply] at answers ⊢
  rcases answers with ⟨command, canId⟩
  have command : cmdByte arm.bus.sSend[serial].data = cmdNumber := command.symm
  have address : arm.bus.sSend[serial].canId = joint.address := by
    simpa [CanFrame.reply] using canId
  refine ⟨⟨_, List.getElem?_eq_getElem sentBound, address, command⟩, payload, ?_⟩
  rw [address, command]

/-- The cached position is unchanged, or was reported in a later reply. -/
def Renewed (start arm : Arm) (joint : Joint) : Prop :=
  (arm.motor joint).position = (start.motor joint).position ∨
    ∃ serial, start.bus.sRecv.taken ≤ serial ∧ arm.Reports joint serial (arm.motor joint).position

/-- What the run from `start` keeps. -/
structure Traced (start arm : Arm) : Prop where
  addressed : arm.Addressed
  answered : arm.Answered
  taken_le : start.bus.sRecv.taken ≤ arm.bus.sRecv.taken
  renewed : ∀ joint, start.Renewed arm joint

theorem Traced.start {arm : Arm} (addressed : arm.Addressed) (answered : arm.Answered) :
    Traced arm arm :=
  ⟨addressed, answered, le_rfl, fun _ => Or.inl rfl⟩

theorem Traced.keep {start arm next : Arm} (traced : Traced start arm)
    (addressed : next.Addressed) (answered : next.Answered) (grows : arm.Grows next)
    (renewed : ∀ joint, arm.Renewed next joint) : Traced start next := by
  refine ⟨addressed, answered, traced.taken_le.trans grows.taken, ?_⟩
  intro joint
  rcases renewed joint with same | ⟨serial, fresh, reports⟩
  · rcases traced.renewed joint with unchanged | ⟨serial, fresh, reports⟩
    · exact Or.inl (same.trans unchanged)
    · exact Or.inr ⟨serial, fresh, same ▸ reports.mono grows⟩
  · exact Or.inr ⟨serial, traced.taken_le.trans fresh, reports⟩

theorem Answered.send {arm : Arm} (answered : arm.Answered) (commandBuf : Vector Byte 8)
    (address : Word) (reply : Vector Byte 7) :
    ({ arm with bus := (canBusSend commandBuf address arm.bus).answer reply } : Arm).Answered :=
  List.rel_append answered (.cons ⟨reply, rfl⟩ .nil)

theorem Answered.of_eq {arm next : Arm} (answered : arm.Answered)
    (sSend : next.bus.sSend = arm.bus.sSend)
    (arrived : next.bus.sRecv.arrived = arm.bus.sRecv.arrived) : next.Answered := by
  rw [Answered, sSend, arrived]
  exact answered

/-- A read either leaves the positions alone or stores what the reply to a request says. -/
theorem renewed_of_read {arm : Arm} (addressed : arm.Addressed) (answered : arm.Answered)
    (joint other : Joint) : arm.Renewed (arm.readPositionReceive joint false).1 other := by
  rcases arm.readPositionReceive_cases joint false with
    ⟨-, -, same⟩ | ⟨answer, delivered, answers, -, motor, taken⟩
  · exact Or.inl (by rw [same])
  · by_cases read : other = joint
    · subst other
      rw [addressed joint] at answers
      rcases answered.of_answers delivered answers with ⟨asked, payload, rfl⟩
      refine Or.inr ⟨arm.bus.sRecv.taken, le_rfl, ⟨by omega, by simpa using asked, payload, ?_, ?_⟩⟩
      · simpa [positionReply] using delivered
      · simp [motor, positionReply]
    · exact Or.inl (by rw [motor, Function.update_of_ne read])

theorem Traced.touched {start arm next : Arm} (traced : Traced start arm)
    (touched : arm.Touched next) : Traced start next := by
  have grows := touched.grows
  cases touched with
  | kept => exact traced
  | sent commandBuf address reply =>
      exact traced.keep traced.addressed (traced.answered.send _ _ _) grows fun _ => Or.inl rfl
  | read joint =>
      exact traced.keep (traced.addressed.readPositionReceive joint false)
        (traced.answered.of_eq (arm.readPositionReceive_bus_sSend joint false) (by simp)) grows
        (renewed_of_read traced.addressed traced.answered joint)
  | polled address cmdNumber =>
      exact traced.keep traced.addressed
        (traced.answered.of_eq (canBusReceive_sSend address cmdNumber false arm.bus)
          (canBusReceive_arrived address cmdNumber false arm.bus)) grows fun _ => Or.inl rfl

end Arm

namespace Program

/-- After a reachable state, a position changes only to what a later reply says. -/
theorem traced_of_run {program final : Program} {keys : List Key}
    (follows : program.Follows keys) (answered : program.arm.Answered)
    {actions : List ProgramAction} {events : List Reception}
    (ran : machine.run program actions = some (final, events)) :
    program.arm.Traced final.arm := by
  have holds := Machine.run_preserves machine
    (fun middle => (∃ keys, middle.Follows keys) ∧ program.arm.Traced middle.arm)
    (by
      rintro middle next action reported ⟨⟨keys, follows⟩, traced⟩ taken
      have move := step_move taken
      exact ⟨⟨_, follows.move move⟩, traced.touched (move.touched follows.sound)⟩)
    ⟨⟨keys, follows⟩, .start follows.sound.addressed answered⟩ ran
  exact holds.2

/--
With motors that answer at once, whatever replies the threads take from each other in whole
polls, each cached position stays as it is or comes from a reply that is taken later, to a
position request sent to the same motor.
-/
theorem positions_from_requests (position : Joint → CFloat) {early late : List ProgramAction}
    {middle final : Program} {before after : List Reception}
    (ranEarly : machine.run (initial position) early = some (middle, before))
    (ranLate : machine.run middle late = some (final, after)) (joint : Joint) :
    (final.arm.motor joint).position = (middle.arm.motor joint).position ∨
      ∃ serial, middle.arm.bus.sRecv.taken ≤ serial ∧
        final.arm.Reports joint serial (final.arm.motor joint).position :=
  (traced_of_run (follows_of_run position ranEarly)
    (traced_of_run (follows_initial position) .nil ranEarly).answered ranLate).renewed joint

theorem positions_from_requests_zeroAndQuit : ∃ final events,
    machine.run (initial fun _ => .nan) zeroAndQuit = some (final, events) ∧
      ∀ joint, (final.arm.motor joint).position = .nan ∨
        ∃ serial, 0 ≤ serial ∧ final.arm.Reports joint serial (final.arm.motor joint).position := by
  rcases zeroAndQuit_run with ⟨final, events, ran⟩
  refine ⟨final, events, ran, ?_⟩
  intro joint
  exact positions_from_requests (fun _ => .nan) (Machine.run_nil _) ran joint

end Program

end ArmSimulator
