import ArmSimulator.Threads.Program

/-!
# The commands that reach the motors

However the threads interleave their sends and polls, the frames other than position requests
are those that the keys ask for, in the order of the keys: none is lost, repeated or
overtaken. At any time the frames already sent, followed by those that the keyboard thread
still has to send, are the script of the keys read so far.
-/

namespace ArmSimulator

/-- The keys that the keyboard thread acts on. -/
inductive Key where
  | command (handler : Handler)
  | escape
  deriving DecidableEq, Repr

def ThreadsAction.key? : ThreadsAction → Option Key
  | .press handler => some (.command handler)
  | _ => none

def ProgramAction.key? : ProgramAction → Option Key
  | .threads action => action.key?
  | .escape => some .escape
  | _ => none

def keysPressed (actions : List ProgramAction) : List Key :=
  actions.filterMap ProgramAction.key?

/-! ## What the keys ask for -/

def Handler.message (elbowSetPos : CFloat) : Handler → Vector Byte 8
  | .b => Motor.setPositionBuf (Motor.newPositionScaled elbowSetPos 0)
  | .z => setZeroPosMsg

def Handler.frame (elbowSetPos : CFloat) (handler : Handler) (joint : Joint) : CanFrame :=
  ⟨joint.address, 8, handler.message elbowSetPos⟩

def shutdownFrame (joint : Joint) : CanFrame := ⟨joint.address, 8, shutdownMsg⟩

/-- The set point that the next `b` chooses. -/
def setPoint (flip : Bool) : CFloat := if flip then .ofInt 20 else .ofInt 0

/-- Twenty degrees are `0x7D0` hundredths. -/
def Handler.bytes (flip : Bool) : Handler → Vector Byte 8
  | .b =>
      if flip then #v[0xA4#8, 0x00#8, 0x0A#8, 0x00#8, 0xD0#8, 0x07#8, 0x00#8, 0x00#8]
      else #v[0xA4#8, 0x00#8, 0x0A#8, 0x00#8, 0x00#8, 0x00#8, 0x00#8, 0x00#8]
  | .z => #v[0x64#8, 0x00#8, 0x00#8, 0x00#8, 0x00#8, 0x00#8, 0x00#8, 0x00#8]

def Handler.ordered (flip : Bool) (handler : Handler) (joint : Joint) : CanFrame :=
  ⟨joint.address, 8, handler.bytes flip⟩

theorem Handler.frame_setPoint (flip : Bool) (handler : Handler) (joint : Joint) :
    handler.frame (setPoint flip) joint = handler.ordered flip joint := by
  have message : handler.message (setPoint flip) = handler.bytes flip := by
    cases handler <;> cases flip <;> decide +kernel
  rw [frame, ordered, message]

def Key.frames (flip : Bool) : Key → List CanFrame
  | .command handler => [.elbow, .shoulder].map (handler.ordered flip)
  | .escape => [.elbow, .shoulder].map shutdownFrame

def Key.flip (flip : Bool) : Key → Bool
  | .command .b => !flip
  | _ => flip

/-- Every key moves both motors, the elbow first; the `b` keys go to `20` and `0` in turn. -/
def script (flip : Bool) : List Key → List CanFrame
  | [] => []
  | key :: keys => key.frames flip ++ script (key.flip flip) keys

theorem script_append (flip : Bool) (early late : List Key) :
    script flip (early ++ late) = script flip early ++ script (early.foldl Key.flip flip) late := by
  induction early generalizing flip with
  | nil => rfl
  | cons key early ih => simp [script, ih]

theorem script_concat (keys : List Key) (key : Option Key) :
    script true (keys ++ key.toList) =
      script true keys ++ key.elim [] (Key.frames (keys.foldl Key.flip true)) := by
  cases key <;> simp [script_append, script]

/-! ## What is still to be sent -/

def KeyboardPc.outstanding (elbowSetPos : CFloat) : KeyboardPc → List CanFrame
  | .idle | .unlock | .receive _ .shoulder => []
  | .lock handler | .wait handler | .waiting handler | .relock handler | .send handler .elbow =>
      [.elbow, .shoulder].map (handler.frame elbowSetPos)
  | .receive handler .elbow | .send handler .shoulder => [handler.frame elbowSetPos .shoulder]

def ClosePc.outstanding : ClosePc → List CanFrame
  | .shutdownSend .elbow => [.elbow, .shoulder].map shutdownFrame
  | .shutdownReceive .elbow | .shutdownSend .shoulder => [shutdownFrame .shoulder]
  | _ => []

/-- Every frame but a position request. -/
def CanFrame.IsCommand (frame : CanFrame) : Prop :=
  cmdByte frame.data ≠ cmdByte getPositionMsg

instance (frame : CanFrame) : Decidable frame.IsCommand :=
  inferInstanceAs (Decidable (_ ≠ _))

def commandsIn (sent : List CanFrame) : List CanFrame := sent.filter fun frame => frame.IsCommand

namespace Program

def commands (program : Program) : List CanFrame := commandsIn program.sent

def outstanding (program : Program) : List CanFrame :=
  program.threads.keyboard.outstanding program.threads.elbowSetPos ++ program.closing.outstanding

end Program

@[simp]
theorem isCommand_handlerFrame (elbowSetPos : CFloat) (handler : Handler) (joint : Joint) :
    (handler.frame elbowSetPos joint).IsCommand := by
  cases handler <;> simp [CanFrame.IsCommand, Handler.frame, Handler.message, cmdByte,
    Motor.setPositionBuf, setPositionMsg, setZeroPosMsg, getPositionMsg]

@[simp]
theorem isCommand_shutdownFrame (joint : Joint) : (shutdownFrame joint).IsCommand := by
  simp [CanFrame.IsCommand, shutdownFrame, cmdByte, shutdownMsg, getPositionMsg]

theorem commandsIn_snoc_command {frame : CanFrame} (isCommand : frame.IsCommand)
    (sent : List CanFrame) : commandsIn (sent ++ [frame]) = commandsIn sent ++ [frame] := by
  simp [commandsIn, List.filter_append, isCommand]

theorem commandsIn_snoc_request (canId : Word) (sent : List CanFrame) :
    commandsIn (sent ++ [⟨canId, 8#8, getPositionMsg⟩]) = commandsIn sent := by
  simp [commandsIn, List.filter_append, CanFrame.IsCommand]

namespace Arm

@[simp]
theorem readPositionReceive_bus_sSend (arm : Arm) (joint : Joint) (readFails : Bool) :
    (arm.readPositionReceive joint readFails).1.bus.sSend = arm.bus.sSend := by
  rcases (arm.motor joint).readPositionReceive_bus readFails arm.bus with ⟨recBuf, busEq⟩
  simp [readPositionReceive, afterRead, busEq]

end Arm

namespace Threads

@[simp]
theorem afterSend_sSend (threads : Threads) (thread : Thread) (bus : CanBus)
    (reply : Vector Byte 7) : (threads.afterSend thread bus reply).arm.bus.sSend = bus.sSend := rfl

@[simp]
theorem afterReceive_arm (threads : Threads) (thread : Thread) (arm : Arm) :
    (threads.afterReceive thread arm).arm = arm := rfl

@[simp]
theorem receiveCommand_sSend (threads : Threads) (joint : Joint) (handler : Handler) :
    (threads.receiveCommand joint handler).bus.sSend = threads.arm.bus.sSend := by
  cases handler <;> simp [receiveCommand, Motor.setPositionReceive, Motor.setZeroCmdReceive]

/-- What every run of the threads keeps, whichever polls are in order. -/
structure Sound (threads : Threads) : Prop where
  locked : threads.Locked
  addressed : threads.arm.Addressed
  setPoint_eq : ∃ flip, threads.elbowSetPos = setPoint flip

theorem sound_initial (position : Joint → CFloat) : (initial position).Sound :=
  ⟨locked_initial position, Arm.addressed_initial position, false, rfl⟩

theorem inRangeOf_setPoint (flip : Bool) : Motor.inRangeOf (setPoint flip) = true := by
  cases flip <;> decide

theorem Sound.sendCommand_eq {threads : Threads} (sound : threads.Sound) (joint : Joint)
    (handler : Handler) :
    threads.sendCommand joint handler = some
      (canBusSend (handler.message threads.elbowSetPos) joint.address threads.arm.bus) := by
  rcases sound.setPoint_eq with ⟨flip, chosen⟩
  have address := sound.addressed joint
  cases handler with
  | b => simp [sendCommand, chosen, inRangeOf_setPoint, Motor.setPositionSend, Handler.message,
      address]
  | z => simp [sendCommand, Motor.setZeroCmdSend, Handler.message, address]

theorem Sound.move {threads next : Threads} (sound : threads.Sound) {action : ThreadsAction}
    (move : Move threads action next) : next.Sound := by
  have locked := sound.locked.move move
  rcases sound with ⟨-, addressed, chosen⟩
  cases move with
  | controlReceive reply joint pc =>
      exact ⟨locked, addressed.readPositionReceive joint false, chosen⟩
  | keyboardReceive reply handler joint pc =>
      refine ⟨locked, ?_, chosen⟩
      cases handler <;> exact addressed
  | press handler pc =>
      cases handler with
      | b => exact ⟨locked, addressed, threads.flip, rfl⟩
      | z => exact ⟨locked, addressed, chosen⟩
  | _ => exact ⟨locked, addressed, chosen⟩

/-- The commands that have been sent or that the running handler will send. -/
def committed (threads : Threads) : List CanFrame :=
  commandsIn threads.arm.bus.sSend ++ threads.keyboard.outstanding threads.elbowSetPos

theorem outstanding_nextCommand (handler : Handler) (joint : Joint) (elbowSetPos : CFloat) :
    (nextCommand handler joint).outstanding elbowSetPos =
      (KeyboardPc.receive handler joint).outstanding elbowSetPos := by
  cases joint <;> rfl

theorem outstanding_send (handler : Handler) (joint : Joint) (elbowSetPos : CFloat) :
    (KeyboardPc.send handler joint).outstanding elbowSetPos =
      handler.frame elbowSetPos joint ::
        (KeyboardPc.receive handler joint).outstanding elbowSetPos := by
  cases joint <;> rfl

theorem outstanding_startHandler (threads : Threads) (handler : Handler) :
    (threads.startHandler handler).keyboard.outstanding
        (threads.startHandler handler).elbowSetPos =
      (Key.command handler).frames threads.flip := by
  cases handler with
  | b => exact List.map_congr_left fun joint _ => Handler.frame_setPoint threads.flip .b joint
  | z => rfl

/-- Only a key adds commands; a step of a handler moves them from its plan to the bus. -/
theorem committed_move {threads next : Threads} (sound : threads.Sound) {action : ThreadsAction}
    (move : Move threads action next) :
    next.committed = threads.committed ++ action.key?.elim [] (Key.frames threads.flip) := by
  cases move with
  | controlSend reply joint pc =>
      simp [committed, ThreadsAction.key?, Arm.readPositionSend, Motor.readPositionSend,
        commandsIn_snoc_request]
  | controlWake reply pc handler waits =>
      simp [committed, waits, ThreadsAction.key?, KeyboardPc.outstanding]
  | keyboardLock reply handler pc free =>
      simp [committed, pc, ThreadsAction.key?, KeyboardPc.outstanding]
  | keyboardWait reply handler pc =>
      simp [committed, pc, ThreadsAction.key?, KeyboardPc.outstanding]
  | keyboardRelock reply handler pc free =>
      simp [committed, pc, ThreadsAction.key?, KeyboardPc.outstanding]
  | keyboardSend reply handler joint pc bus sent =>
      rw [sound.sendCommand_eq, Option.some.injEq] at sent
      subst bus
      have frame := commandsIn_snoc_command
        (isCommand_handlerFrame threads.elbowSetPos handler joint) threads.arm.bus.sSend
      simp only [Handler.frame, BitVec.ofNat_eq_ofNat] at frame
      simp [committed, pc, ThreadsAction.key?, outstanding_send, frame, Handler.frame]
  | keyboardSkip reply handler joint pc unsent => simp [sound.sendCommand_eq] at unsent
  | keyboardReceive reply handler joint pc =>
      simp [committed, pc, ThreadsAction.key?, outstanding_nextCommand]
  | keyboardUnlock reply pc => simp [committed, pc, ThreadsAction.key?, KeyboardPc.outstanding]
  | press handler pc =>
      have sent : (threads.startHandler handler).arm = threads.arm := by cases handler <;> rfl
      have nothing : threads.keyboard.outstanding threads.elbowSetPos = [] := by rw [pc]; rfl
      simp [committed, sent, outstanding_startHandler, nothing, ThreadsAction.key?]
  | spuriousWakeup handler waits =>
      simp [committed, waits, ThreadsAction.key?, KeyboardPc.outstanding]
  | _ => simp [committed, ThreadsAction.key?]

theorem flip_move {threads next : Threads} {action : ThreadsAction}
    (move : Move threads action next) :
    next.flip = action.key?.elim threads.flip (Key.flip threads.flip) := by
  cases move with
  | press handler pc => cases handler <;> rfl
  | _ => rfl

end Threads

theorem sendBuf_eq : sendBuf = getPositionMsg := rfl

theorem keysPressed_snoc (actions : List ProgramAction) (action : ProgramAction) :
    keysPressed (actions ++ [action]) = keysPressed actions ++ action.key?.toList := by
  simp only [keysPressed, List.filterMap_append]
  cases pressed : action.key? <;> simp [pressed]

namespace Program

/-- The commands that have been sent or that the keyboard thread still has to send. -/
def committed (program : Program) : List CanFrame :=
  program.threads.committed ++ program.closing.outstanding

/-- The invariant of a run in which the given keys have been pressed. -/
structure Follows (program : Program) (keys : List Key) : Prop where
  sound : program.threads.Sound
  idle : program.closing ≠ .running → program.threads.keyboard = .idle
  flip_eq : program.threads.flip = keys.foldl Key.flip true
  committed_eq : program.committed = script true keys

theorem follows_initial (position : Joint → CFloat) : (initial position).Follows [] where
  sound := Threads.sound_initial position
  idle := by simp [initial]
  flip_eq := rfl
  committed_eq := rfl

theorem outstanding_afterShutdown (joint : Joint) :
    (afterShutdown joint).outstanding = (ClosePc.shutdownReceive joint).outstanding := by
  cases joint <;> rfl

theorem outstanding_shutdownSend (joint : Joint) :
    (ClosePc.shutdownSend joint).outstanding =
      shutdownFrame joint :: (ClosePc.shutdownReceive joint).outstanding := by
  cases joint <;> rfl

theorem keyboard_of_admits {program : Program} {action : ThreadsAction} {next : Threads}
    (idle : program.threads.keyboard = .idle) (closing : program.closing ≠ .running)
    (admits : program.Admits action) (move : program.threads.Move action next) :
    next.keyboard = .idle := by
  cases move with
  | controlSend | controlReceive | controlLock | controlUnlock | controlSignal => exact idle
  | controlWake reply pc handler waits => simp [idle] at waits
  | _ => exact absurd admits closing

/-- Neither the sends nor the polls of `close_all` touch what the threads keep. -/
theorem sound_afterSend {threads : Threads} (sound : threads.Sound) (bus : CanBus)
    (reply : Vector Byte 7) : (threads.afterSend .keyboard bus reply).Sound :=
  ⟨⟨sound.locked.control_iff, sound.locked.keyboard_iff⟩, sound.addressed, sound.setPoint_eq⟩

theorem sound_afterReceive {threads : Threads} (sound : threads.Sound) (bus : CanBus) :
    (threads.afterReceive .keyboard { threads.arm with bus }).Sound :=
  ⟨⟨sound.locked.control_iff, sound.locked.keyboard_iff⟩, sound.addressed, sound.setPoint_eq⟩

/-- Only a key adds commands to those that are sent or planned. -/
theorem Follows.committed_move {program next : Program} {keys : List Key}
    (follows : program.Follows keys) {action : ProgramAction} (move : Move program action next) :
    next.committed = program.committed ++
      action.key?.elim [] (Key.frames program.threads.flip) := by
  rcases follows with ⟨sound, idle, -, -⟩
  cases move with
  | threads action admits next move =>
      have planned := Threads.committed_move sound move
      cases action with
      | press handler =>
          have running : program.closing = .running := admits
          simp [committed, running, planned, ClosePc.outstanding, ProgramAction.key?]
      | _ => simp [committed, planned, ProgramAction.key?, ThreadsAction.key?]
  | escape running atRest =>
      simp [committed, running, ClosePc.outstanding, ProgramAction.key?, Key.frames]
  | shutdownSend reply failed joint pc =>
      have atRest := idle (by simp [pc])
      have address := sound.addressed joint
      have frame := commandsIn_snoc_command (isCommand_shutdownFrame joint)
        program.threads.arm.bus.sSend
      simp only [shutdownFrame, BitVec.ofNat_eq_ofNat] at frame
      simp [committed, Threads.committed, pc, atRest, arm, KeyboardPc.outstanding,
        outstanding_shutdownSend, Motor.shutdownCmdSend, address, frame, shutdownFrame,
        ProgramAction.key?]
  | shutdownReceive reply failed joint pc =>
      simp [committed, Threads.committed, pc, arm, outstanding_afterShutdown,
        Motor.shutdownCmdReceive, ProgramAction.key?]
  | proceed reply failed closing cancelled pc =>
      have nothing : program.closing.outstanding = closing.outstanding := by
        rcases pc with ⟨pc, rfl | rfl⟩ | ⟨pc, rfl | rfl⟩ | ⟨pc, rfl⟩ <;> rw [pc] <;> rfl
      simp [committed, nothing, ProgramAction.key?]
  | lastSend reply failed pc =>
      simp [committed, Threads.committed, pc, arm, sendBuf_eq, commandsIn_snoc_request,
        ClosePc.outstanding, ProgramAction.key?]
  | stopControl => simp [committed, ProgramAction.key?]

theorem Follows.move {program next : Program} {keys : List Key} (follows : program.Follows keys)
    {action : ProgramAction} (move : Move program action next) :
    next.Follows (keys ++ action.key?.toList) := by
  have committedEq := follows.committed_move move
  rw [follows.committed_eq, follows.flip_eq, ← script_concat] at committedEq
  rcases follows with ⟨sound, idle, flip, -⟩
  cases move with
  | threads action admits next move =>
      refine ⟨sound.move move, ?_, ?_, committedEq⟩
      · intro closing
        exact keyboard_of_admits (idle closing) closing admits move
      · rw [Threads.flip_move move, flip, ProgramAction.key?]
        cases action.key? <;> simp
  | escape running atRest =>
      exact ⟨sound, fun _ => atRest, by simpa [ProgramAction.key?, Key.flip], committedEq⟩
  | shutdownSend reply failed joint pc =>
      exact ⟨sound_afterSend sound _ reply, fun _ => idle (by simp [pc]),
        by simpa [ProgramAction.key?], committedEq⟩
  | shutdownReceive reply failed joint pc =>
      exact ⟨sound_afterReceive sound _, fun _ => idle (by simp [pc]),
        by simpa [ProgramAction.key?], committedEq⟩
  | proceed reply failed closing cancelled pc =>
      refine ⟨sound, fun _ => idle ?_, by simpa [ProgramAction.key?], committedEq⟩
      rcases pc with ⟨pc, -⟩ | ⟨pc, -⟩ | ⟨pc, -⟩ <;> simp [pc]
  | lastSend reply failed pc =>
      exact ⟨sound_afterSend sound _ reply, fun _ => idle (by simp [pc]),
        by simpa [ProgramAction.key?], committedEq⟩
  | stopControl => exact ⟨sound, idle, by simpa [ProgramAction.key?], committedEq⟩

theorem follows_of_run (position : Joint → CFloat) {actions : List ProgramAction}
    {final : Program} {events : List Reception}
    (ran : machine.run (initial position) actions = some (final, events)) :
    final.Follows (keysPressed actions) := by
  refine Machine.run_history machine (fun program past => program.Follows (keysPressed past)) ?_
    [] (follows_initial position) ran
  intro program next action past reported follows taken
  rw [keysPressed_snoc]
  exact follows.move (step_move taken)

/-- A `z` key that is served, and then the escape key: the process ends when `close_all` cancels
the null `IMU_tid`. -/
def zeroAndQuit : List ProgramAction :=
  let reply : Vector Byte 7 := .replicate 7 0
  let control : ProgramAction := .threads (.control reply)
  let keyboard : ProgramAction := .threads (.keyboard reply)
  let close : ProgramAction := .closeAll reply false
  [.threads (.press .z), keyboard, keyboard, control, control, control, control, control,
    keyboard, keyboard, keyboard, keyboard, keyboard, keyboard, control, .escape,
    close, close, close, close, .closeAll reply true]

theorem zeroAndQuit_run : ∃ final events,
    machine.run (initial fun _ => .nan) zeroAndQuit = some (final, events) := by
  have finishes : (machine.run (initial fun _ => .nan) zeroAndQuit).isSome = true := by
    decide +kernel
  rcases Option.isSome_iff_exists.mp finishes with ⟨⟨final, events⟩, ran⟩
  exact ⟨final, events, ran⟩

end Program

end ArmSimulator
