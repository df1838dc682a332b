import Mathlib.Data.List.Basic
import ArmSimulator.CTypes

/-!
# The joystick thread

`joystick_thread` polls the device without blocking and handles the global `joyEvent` after
every poll, whether the poll filled it or not. An axis event sets the position that the arm
is steered to in one direction. The arithmetic of the set points is exact.
-/

namespace ArmSimulator

structure JoystickEvent where
  time : Word
  value : BitVec 16
  type : Byte
  number : Byte
  deriving DecidableEq, Repr

namespace JoystickEvent

def jsEventButton : Byte := 0x01

def jsEventAxis : Byte := 0x02

/-- The lower end of the declared range of an axis. -/
def minAxesValue : ℤ := -32768

/-- The global event before the first sample. -/
def zero : JoystickEvent := ⟨0, 0, 0, 0⟩

def isButton (event : JoystickEvent) : Bool := event.type &&& jsEventButton != 0

def isAxis (event : JoystickEvent) : Bool := event.type &&& jsEventAxis != 0

end JoystickEvent

/-- What the `read` of a poll gives: an error, which fills nothing, or a whole event. -/
inductive Poll where
  | failed
  | delivered (event : JoystickEvent)
  deriving DecidableEq, Repr

/-- `Joystick::sample` on an event. -/
def sample (event : JoystickEvent) : Poll → JoystickEvent
  | .failed => event
  | .delivered read => read

/-- The globals that `joystick_thread` works on. -/
structure JoystickThread where
  joyEvent : JoystickEvent
  joyValue : ℤ
  joyNumber : ℤ
  joyXValue : ℤ
  joyXCurrent : ℚ
  joyXValueNorm : ℚ
  joyAxisNumber : ℤ
  joyYValue : ℤ
  joyYValueNorm : ℚ
  joyYCurrent : ℚ
  deriving DecidableEq, Repr

namespace JoystickThread

def initial : JoystickThread := ⟨.zero, 0, 0, 0, 0, 0, 0, 0, 0, 0⟩

def handleX (thread : JoystickThread) : JoystickThread :=
  let joyXValue := thread.joyEvent.value.toInt * -1
  let joyXValueNorm : ℚ := joyXValue / 32767
  { thread with
    joyXValue
    joyAxisNumber := thread.joyEvent.number.toNat
    joyXValueNorm
    joyXCurrent := joyXValueNorm * 0.63 }

def handleY (thread : JoystickThread) : JoystickThread :=
  let joyYValue := thread.joyEvent.value.toInt * -1
  let joyYValueNorm : ℚ := joyYValue / 32767
  { thread with
    joyYValue
    joyAxisNumber := thread.joyEvent.number.toNat
    joyYValueNorm
    joyYCurrent := joyYValueNorm * 0.63 }

/-- The loop body of `joystick_thread` behind the sample. -/
def handle (thread : JoystickThread) : JoystickThread :=
  if thread.joyEvent.isButton then
    { thread with
      joyValue := thread.joyEvent.value.toInt
      joyNumber := thread.joyEvent.number.toNat }
  else if thread.joyEvent.isAxis then
    let thread := if thread.joyEvent.number = 0 then thread.handleX else thread
    if thread.joyEvent.number = 1 then thread.handleY else thread
  else thread

def poll (thread : JoystickThread) (poll : Poll) : JoystickThread :=
  { thread with joyEvent := sample thread.joyEvent poll }.handle

/-- The thread after a sequence of polls. -/
def run (polls : List Poll) : JoystickThread := polls.foldl poll initial

theorem run_snoc (polls : List Poll) (poll : Poll) :
    run (polls ++ [poll]) = (run polls).poll poll := by
  rw [run, List.foldl_concat, run]

end JoystickThread

/-! ## The two axes -/

/-- The axes that are steered with. -/
inductive Axis where
  | x
  | y
  deriving DecidableEq, Repr

def Axis.number : Axis → Byte
  | .x => 0
  | .y => 1

namespace JoystickThread

def current (thread : JoystickThread) : Axis → ℚ
  | .x => thread.joyXCurrent
  | .y => thread.joyYCurrent

/-- The set point that an event gives its axis. -/
def setPoint (event : JoystickEvent) : ℚ := -(event.value.toInt : ℚ) / 32767 * 0.63

@[simp]
theorem handle_joyEvent (thread : JoystickThread) : thread.handle.joyEvent = thread.joyEvent := by
  simp only [handle, handleX, handleY]
  split_ifs <;> rfl

/-- The set point of an axis changes only with an event of this axis. -/
theorem handle_current (thread : JoystickThread) (axis : Axis) :
    thread.handle.current axis =
      if thread.joyEvent.isButton = false ∧ thread.joyEvent.isAxis = true ∧
          thread.joyEvent.number = axis.number then
        setPoint thread.joyEvent
      else thread.current axis := by
  cases button : thread.joyEvent.isButton with
  | true => cases axis <;> simp [handle, button, current]
  | false =>
      cases isAxis : thread.joyEvent.isAxis with
      | false => simp [handle, button, isAxis]
      | true =>
          rcases eq_or_ne thread.joyEvent.number 0 with zero | notZero
          · cases axis <;>
              simp [handle, handleX, button, isAxis, zero, current, setPoint, Axis.number]
          · rcases eq_or_ne thread.joyEvent.number 1 with one | notOne
            · cases axis <;>
                simp [handle, handleY, button, isAxis, one, current, setPoint, Axis.number]
            · cases axis <;>
                simp only [handle, button, isAxis, notZero, notOne, Axis.number, and_false,
                  Bool.false_eq_true, if_true, if_false]

end JoystickThread

end ArmSimulator
