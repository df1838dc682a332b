import Mathlib.Logic.Function.Basic
import ArmSimulator.Can.Motor
import ArmSimulator.Lib.Machine

/-!
# The two motors on one bus

The elbow and the shoulder motor share the driver's buffers and the receive socket. An
assignment to a cached position is recorded as an update that names the motor, the
delivery number of the frame taken in that call, and the value.
-/

namespace ArmSimulator

inductive Joint where
  | elbow
  | shoulder
  deriving DecidableEq, Repr

/-- The CAN addresses `main.h` gives to `elbow_motor` and `shoulder_motor`. -/
def Joint.address : Joint → Word
  | .elbow => 0x141
  | .shoulder => 0x142

structure Arm where
  bus : CanBus
  motor : Joint → Motor

structure Update where
  joint : Joint
  /-- The delivery number of the frame the call took from the socket. -/
  serial : ℕ
  value : CFloat
  deriving DecidableEq, Repr

namespace Arm

/-- The program start. `position_` is not initialised, so its content is arbitrary. -/
def initial (position : Joint → CFloat) : Arm where
  bus := .initial
  motor joint := ⟨position joint, joint.address⟩

def deliver (arm : Arm) (frames : List CanFrame) : Arm :=
  { arm with bus := arm.bus.deliver frames }

/-- Store the result of reading one motor, and report the assignment it made. -/
def afterRead (arm : Arm) (joint : Joint) (result : Motor × CanBus × Option CFloat) :
    Arm × List Update :=
  ({ bus := result.2.1, motor := Function.update arm.motor joint result.1 },
    result.2.2.toList.map fun value => ⟨joint, arm.bus.sRecv.taken, value⟩)

def readPositionSend (arm : Arm) (joint : Joint) : Arm :=
  { arm with bus := (arm.motor joint).readPositionSend arm.bus }

def readPositionReceive (arm : Arm) (joint : Joint) (readFails : Bool) : Arm × List Update :=
  arm.afterRead joint ((arm.motor joint).readPositionReceive readFails arm.bus)

def readPosition (arm : Arm) (joint : Joint) (during : List CanFrame) (readFails : Bool) :
    Arm × List Update :=
  arm.afterRead joint ((arm.motor joint).readPosition during readFails arm.bus)

end Arm

/-- What happens in a single-threaded run: frames arrive, or a motor method is called. -/
inductive Call where
  | arrive (frames : List CanFrame)
  | readPosition (joint : Joint) (during : List CanFrame) (readFails : Bool)
  | setPosition (joint : Joint) (newPosition : CFloat) (unrepresentable : Word)
      (during : List CanFrame) (readFails : Bool)
  | setZeroCmd (joint : Joint) (during : List CanFrame) (readFails : Bool)
  | shutdownCmd (joint : Joint) (during : List CanFrame) (readFails : Bool)

def Arm.call (arm : Arm) : Call → Arm × List Update
  | .arrive frames => (arm.deliver frames, [])
  | .readPosition joint during readFails => arm.readPosition joint during readFails
  | .setPosition joint newPosition unrepresentable during readFails =>
      ({ arm with
          bus := (arm.motor joint).setPosition newPosition unrepresentable during readFails
            arm.bus }, [])
  | .setZeroCmd joint during readFails =>
      ({ arm with bus := (arm.motor joint).setZeroCmd during readFails arm.bus }, [])
  | .shutdownCmd joint during readFails =>
      ({ arm with bus := (arm.motor joint).shutdownCmd during readFails arm.bus }, [])

namespace Arm

theorem readPosition_eq (arm : Arm) (joint : Joint) (during : List CanFrame)
    (readFails : Bool) :
    arm.readPosition joint during readFails =
      ((arm.readPositionSend joint).deliver during).readPositionReceive joint readFails := rfl

theorem readPositionReceive_cases (arm : Arm) (joint : Joint) (readFails : Bool) :
    ((canBusReceive (arm.motor joint).canAddress (cmdByte getPositionMsg) readFails
        arm.bus).canReply = false ∧
      (arm.readPositionReceive joint readFails).2 = [] ∧
      (arm.readPositionReceive joint readFails).1.motor = arm.motor) ∨
    ∃ frame, arm.bus.sRecv.arrived[arm.bus.sRecv.taken]? = some frame ∧
      frame.Answers (arm.motor joint).canAddress (cmdByte getPositionMsg) ∧
      (arm.readPositionReceive joint readFails).2 =
        [⟨joint, arm.bus.sRecv.taken, .finite frame.reportedPosition⟩] ∧
      (arm.readPositionReceive joint readFails).1.motor =
        Function.update arm.motor joint
          { arm.motor joint with position := .finite frame.reportedPosition } ∧
      (arm.readPositionReceive joint readFails).1.bus.sRecv.taken =
        arm.bus.sRecv.taken + 1 := by
  rcases (arm.motor joint).readPositionReceive_cases readFails arm.bus with
    ⟨noReply, silent, same⟩ | ⟨frame, delivered, answers, assigned, changed, taken⟩
  · left
    simp [readPositionReceive, afterRead, noReply, silent, same]
  · right
    refine ⟨frame, delivered, answers, ?_, ?_, ?_⟩ <;>
      simp [readPositionReceive, afterRead, assigned, changed, taken]

@[simp]
theorem readPositionReceive_bus_sRecv (arm : Arm) (joint : Joint) (readFails : Bool) :
    (arm.readPositionReceive joint readFails).1.bus.sRecv =
      (canBusReceive (arm.motor joint).canAddress (cmdByte getPositionMsg) readFails
        arm.bus).sRecv :=
  (arm.motor joint).readPositionReceive_sRecv readFails arm.bus

@[simp]
theorem readPositionReceive_bus_canReply (arm : Arm) (joint : Joint) (readFails : Bool) :
    (arm.readPositionReceive joint readFails).1.bus.canReply =
      (canBusReceive (arm.motor joint).canAddress (cmdByte getPositionMsg) readFails
        arm.bus).canReply :=
  (arm.motor joint).readPositionReceive_canReply readFails arm.bus

/-- A read that finds a waiting frame takes it, and uses it exactly when it answers. -/
theorem readPositionReceive_of_waiting (arm : Arm) {frame : CanFrame}
    (waiting : arm.bus.sRecv.arrived[arm.bus.sRecv.taken]? = some frame) (joint : Joint) :
    (arm.readPositionReceive joint false).1.bus.sRecv.taken = arm.bus.sRecv.taken + 1 ∧
      (arm.readPositionReceive joint false).2 =
        if frame.Answers (arm.motor joint).canAddress (cmdByte getPositionMsg) then
          [⟨joint, arm.bus.sRecv.taken, .finite frame.reportedPosition⟩]
        else [] := by
  rcases List.getElem?_eq_some_iff.mp waiting with ⟨bound, -⟩
  have popped : arm.bus.sRecv.pop =
      some (frame, ⟨arm.bus.sRecv.arrived, arm.bus.sRecv.taken + 1, bound⟩) :=
    Fifo.pop_eq_some_iff.mpr ⟨waiting, rfl, rfl⟩
  rcases canBusReceive_of_pop (arm.motor joint).canAddress (cmdByte getPositionMsg) popped with
    ⟨socket, replied⟩
  refine ⟨by rw [readPositionReceive_bus_sRecv, socket], ?_⟩
  rcases arm.readPositionReceive_cases joint false with
    ⟨noReply, silent, -⟩ | ⟨taken, delivered, answers, update, -⟩
  · rw [silent, if_neg (by simpa [noReply] using replied)]
  · rw [waiting, Option.some.injEq] at delivered
    subst taken
    rw [update, if_pos answers]

@[simp]
theorem readPositionReceive_canAddress (arm : Arm) (joint other : Joint) (readFails : Bool) :
    ((arm.readPositionReceive joint readFails).1.motor other).canAddress =
      (arm.motor other).canAddress := by
  by_cases same : other = joint
  · subst other
    simp [readPositionReceive, afterRead, Motor.readPositionReceive_canAddress]
  · simp [readPositionReceive, afterRead, same]

@[simp]
theorem readPositionSend_sRecv (arm : Arm) (joint : Joint) :
    (arm.readPositionSend joint).bus.sRecv = arm.bus.sRecv := rfl

@[simp]
theorem deliver_sRecv (arm : Arm) (frames : List CanFrame) :
    (arm.deliver frames).bus.sRecv = arm.bus.sRecv.pushAll frames := rfl

end Arm

end ArmSimulator
