import ArmSimulator.Threads.Backlog

/-!
# Rounds between the keys

With motors that answer at once, no reply outlives the handlers that are in progress with it. So
once they are done, and until the next key, the program is the loop of `Control_thread` with
every reply on time, whatever the threads took from each other before.
-/

namespace ArmSimulator

/-! ## Timely rounds -/

namespace Arm

/-- The arm in the middle of a timely round that began with `start`. -/
def Underway (start arm : Arm) : ControlPc → Prop
  | .lock | .elbowSend => arm = start
  | .elbowReceive => ∃ elbow,
      arm = (start.readPositionSend .elbow).deliver [positionReply .elbow elbow]
  | .unlock | .signal | .shoulderSend => ∃ elbow, arm = (start.timelyRead .elbow elbow).1
  | .shoulderReceive => ∃ elbow shoulder,
      arm = ((start.timelyRead .elbow elbow).1.readPositionSend .shoulder).deliver
        [positionReply .shoulder shoulder]

/-- The answer to a request is the reply with the position of that motor. -/
theorem Addressed.answer {arm : Arm} (addressed : arm.Addressed) (joint : Joint)
    (reply : Vector Byte 7) :
    ({ arm with bus := (arm.readPositionSend joint).bus.answer reply } : Arm) =
      (arm.readPositionSend joint).deliver [positionReply joint reply] := by
  simp only [readPositionSend, Motor.readPositionSend, canBusSend, CanBus.answer, deliver,
    positionReply, addressed joint]

end Arm

/-- The operations of `Control_thread` that leave the bus alone. -/
def ControlPc.next? : ControlPc → Option ControlPc
  | .lock => some .elbowSend
  | .unlock => some .signal
  | .signal => some .shoulderSend
  | _ => none

theorem Arm.Underway.next {start arm : Arm} {pc next : ControlPc}
    (underway : start.Underway arm pc) (passes : pc.next? = some next) :
    start.Underway arm next := by
  cases pc <;> cases passes <;> exact underway

namespace Threads

/-- While the keyboard thread is idle and no key comes, only the control thread steps. -/
theorem Move.alone {threads next : Threads} (idle : threads.keyboard = .idle)
    {action : ThreadsAction} (keyless : action.key? = none) (move : Move threads action next) :
    next.keyboard = .idle ∧
      ((threads.control.next? = some next.control ∧ next.arm = threads.arm) ∨
        (∃ joint reply, threads.control = .send joint ∧ next.control = .receive joint ∧
          next.arm =
            { threads.arm with bus := (threads.arm.readPositionSend joint).bus.answer reply }) ∨
        ∃ joint, threads.control = .receive joint ∧ next.control = .afterRead joint ∧
          next.arm = (threads.arm.readPositionReceive joint false).1) := by
  have busy : ∀ pc, pc ≠ .idle → threads.keyboard ≠ pc := by
    rintro pc other rfl
    exact other idle
  cases move with
  | controlLock reply pc free => exact ⟨idle, Or.inl ⟨by rw [pc]; rfl, rfl⟩⟩
  | controlSend reply joint pc => exact ⟨idle, Or.inr (Or.inl ⟨joint, reply, pc, rfl, rfl⟩)⟩
  | controlReceive reply joint pc => exact ⟨idle, Or.inr (Or.inr ⟨joint, pc, rfl, rfl⟩)⟩
  | controlUnlock reply pc => exact ⟨idle, Or.inl ⟨by rw [pc]; rfl, rfl⟩⟩
  | controlSignal reply pc nobody => exact ⟨idle, Or.inl ⟨by rw [pc]; rfl, rfl⟩⟩
  | controlWake reply pc handler waits => exact absurd waits (busy _ (by simp))
  | spuriousWakeup handler waits => exact absurd waits (busy _ (by simp))
  | press handler pc => simp [ThreadsAction.key?] at keyless
  | keyboardLock reply handler pc free => exact absurd pc (busy _ (by simp))
  | keyboardWait reply handler pc => exact absurd pc (busy _ (by simp))
  | keyboardRelock reply handler pc free => exact absurd pc (busy _ (by simp))
  | keyboardSend reply handler joint pc bus sent => exact absurd pc (busy _ (by simp))
  | keyboardSkip reply handler joint pc unsent => exact absurd pc (busy _ (by simp))
  | keyboardReceive reply handler joint pc => exact absurd pc (busy _ (by simp))
  | keyboardUnlock reply pc => exact absurd pc (busy _ (by simp))

/-- While the keyboard thread is idle, a step goes on with the round or completes it. -/
theorem Move.underway {threads next : Threads} {start : Arm} (addressed : start.Addressed)
    (idle : threads.keyboard = .idle) (underway : start.Underway threads.arm threads.control)
    {action : ThreadsAction} (keyless : action.key? = none) (move : Move threads action next) :
    next.keyboard = .idle ∧
      (start.Underway next.arm next.control ∨
        ∃ payloads, (start.timelyRound payloads).1.Underway next.arm next.control) := by
  rcases move.alone idle keyless with
    ⟨stays, ⟨pc, same⟩ | ⟨joint, reply, pc, nextPc, sent⟩ | ⟨joint, pc, nextPc, polled⟩⟩
  · refine ⟨stays, Or.inl ?_⟩
    rw [same]
    exact underway.next pc
  · refine ⟨stays, Or.inl ?_⟩
    rw [pc] at underway
    rw [nextPc, sent]
    cases joint with
    | elbow =>
        have begun : threads.arm = start := underway
        subst start
        exact ⟨reply, addressed.answer .elbow reply⟩
    | shoulder =>
        rcases underway with ⟨elbow, read⟩
        rw [read]
        exact ⟨elbow, reply, (addressed.timelyRead .elbow elbow).answer .shoulder reply⟩
  · refine ⟨stays, ?_⟩
    rw [pc] at underway
    rw [nextPc, polled]
    cases joint with
    | elbow =>
        rcases underway with ⟨elbow, sent⟩
        rw [sent]
        exact Or.inl ⟨elbow, rfl⟩
    | shoulder =>
        rcases underway with ⟨elbow, shoulder, sent⟩
        rw [sent]
        exact Or.inr ⟨(elbow, shoulder), rfl⟩

end Threads

namespace Program

/-- No handler is in progress, and the control thread is in a round that began with `start`. -/
structure Quiet (program : Program) (start : Arm) : Prop where
  running : program.closing = .running
  idle : program.threads.keyboard = .idle
  addressed : start.Addressed
  underway : start.Underway program.arm program.threads.control

/-- Until a key is pressed, `close_all` is not called and only the threads step. -/
theorem Move.alone {program next : Program} (running : program.closing = .running)
    {action : ProgramAction} (keyless : action.key? = none) (move : Move program action next) :
    next.closing = .running ∧ (next.threads = program.threads ∨
      ∃ action : ThreadsAction, action.key? = none ∧ program.threads.Move action next.threads) := by
  cases move with
  | threads action admits next move => exact ⟨running, Or.inr ⟨action, keyless, move⟩⟩
  | stopControl cancelled => exact ⟨running, Or.inl rfl⟩
  | escape running idle => simp [ProgramAction.key?] at keyless
  | shutdownSend reply failed joint pc => simp [running] at pc
  | shutdownReceive reply failed joint pc => simp [running] at pc
  | proceed reply failed closing cancelled pc => simp [running] at pc
  | lastSend reply failed pc => simp [running] at pc

/-- Until a key is pressed, each step is matched by no round or by one. -/
theorem Quiet.move {program next : Program} {start : Arm} (quiet : program.Quiet start)
    {action : ProgramAction} (keyless : action.key? = none) (move : Move program action next) :
    next.Quiet start ∨ ∃ payloads, next.Quiet (start.timelyRound payloads).1 := by
  rcases quiet with ⟨running, idle, addressed, underway⟩
  rcases move.alone running keyless with ⟨running, same | ⟨action, keyless, move⟩⟩
  · left
    exact ⟨running, by rw [same, idle], addressed, by rwa [arm, same]⟩
  · rcases move.underway addressed idle underway keyless with
      ⟨stays, goesOn | ⟨payloads, completed⟩⟩
    · exact Or.inl ⟨running, stays, addressed, goesOn⟩
    · right
      refine ⟨payloads, running, stays, ?_, completed⟩
      exact (addressed.timelyRead .elbow payloads.1).timelyRead .shoulder payloads.2

/-- The seven operations of one round. -/
def oneRound : List ProgramAction := .replicate 7 (.threads (.control (.replicate 7 0)))

end Program

/-! ## The loop of `Control_thread` -/

/-- The control loop that the threads show: each reply is delivered with its request. -/
def Threads.loop (threads : Threads) : ControlLoop where
  arm := threads.arm
  inFlight := []
  joint :=
    match threads.control with
    | .lock | .elbowSend | .elbowReceive => .elbow
    | .unlock | .signal | .shoulderSend | .shoulderReceive => .shoulder
  awaiting :=
    match threads.control with
    | .elbowReceive | .shoulderReceive => true
    | _ => false

theorem Threads.loop_eq_of_next {threads next : Threads} (same : next.arm = threads.arm)
    (passes : threads.control.next? = some next.control) : next.loop = threads.loop := by
  rw [loop, loop, same]
  generalize next.control = later at passes
  cases pc : threads.control <;> rw [pc] at passes <;> cases passes <;> rfl

/-- A request and its reply are two events of the loop, a poll is one. -/
theorem Threads.Move.run_loop {threads next : Threads} (addressed : threads.arm.Addressed)
    (idle : threads.keyboard = .idle) {action : ThreadsAction} (keyless : action.key? = none)
    (move : Move threads action next) :
    ∃ events updates, ControlLoop.machine.run threads.loop events = some (next.loop, updates) := by
  rcases (move.alone idle keyless).2 with
    ⟨pc, same⟩ | ⟨joint, reply, pc, nextPc, sent⟩ | ⟨joint, pc, nextPc, polled⟩
  · refine ⟨[], [], ?_⟩
    rw [Machine.run_nil, loop_eq_of_next same pc]
  · refine ⟨[.send, .arrive 0 reply], [], ?_⟩
    rw [addressed.answer joint reply] at sent
    rw [loop, loop, pc, nextPc, sent]
    cases joint <;> rfl
  · refine ⟨[.receive], (threads.arm.readPositionReceive joint false).2, ?_⟩
    apply Machine.run_cons_eq_some.mpr
    rw [loop, loop, pc, nextPc, polled]
    cases joint <;> exact ⟨_, _, [], rfl, rfl, (List.append_nil _).symm⟩

namespace Program

/--
Until the first key, each run of the whole program, whose motors answer at once, is a run of the
control loop, whose replies may also be late: the loop on its own allows all that the threads
can do together.
-/
theorem refines_controlLoop (position : Joint → CFloat) {actions : List ProgramAction}
    {final : Program} {events : List Reception}
    (ran : machine.run (initial position) actions = some (final, events))
    (keyless : keysPressed actions = []) :
    ∃ history updates, ControlLoop.machine.run (.initial position) history =
      some (final.threads.loop, updates) := by
  have simulated := Machine.run_simulated machine ControlLoop.machine
    (fun action => action.key? = none)
    (fun program loop => (∃ keys, program.Follows keys) ∧ program.closing = .running ∧
      program.threads.keyboard = .idle ∧ program.threads.loop = loop)
    ?_ ⟨⟨_, follows_initial position⟩, rfl, rfl, rfl⟩ (List.filterMap_eq_nil_iff.mp keyless) ran
  · rcases simulated with ⟨history, loop, updates, ranLoop, -, -, -, rfl⟩
    exact ⟨history, updates, ranLoop⟩
  · rintro program next action reported loop ⟨⟨keys, follows⟩, running, idle, rfl⟩ keyless taken
    have move := step_move taken
    have nextFollows := follows.move move
    rcases move.alone running keyless with ⟨running, same | ⟨action, keyless, move⟩⟩
    · refine ⟨[], _, [], Machine.run_nil _, ⟨_, nextFollows⟩, running, ?_, ?_⟩
      · rw [same, idle]
      · rw [same]
    · rcases move.run_loop follows.sound.addressed idle keyless with ⟨history, updates, ranLoop⟩
      exact ⟨history, _, updates, ranLoop, ⟨_, nextFollows⟩, running,
        (move.alone idle keyless).1, rfl⟩

theorem refines_controlLoop_oneRound : ∃ final events,
    machine.run (initial fun _ => .nan) oneRound = some (final, events) ∧
      ∃ history updates, ControlLoop.machine.run (.initial fun _ => .nan) history =
        some (final.threads.loop, updates) := by
  have ran : ∃ final events,
      machine.run (initial fun _ => .nan) oneRound = some (final, events) := ⟨_, _, rfl⟩
  rcases ran with ⟨final, events, ran⟩
  exact ⟨final, events, ran, refines_controlLoop (fun _ => .nan) ran rfl⟩

end Program

end ArmSimulator
