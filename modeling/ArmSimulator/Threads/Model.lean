import ArmSimulator.Can.ControlLoop
import ArmSimulator.Lib.Ledger

/-!
# The two threads that use the bus

`Control_thread` and the `b` and `z` handlers of `keyboard_event_thread`, at the
granularity of mutex and condition operations, sends and polls. The control thread
reads the elbow under the mutex and the shoulder after releasing it; the handlers hold
the mutex, which waiting on the condition releases and takes again.

A call of `CAN_BUS_Send` is one step, and so is a call of `CAN_BUS_Receive` with the use of
its reply. Both work in buffers that the threads share without a lock, so this leaves out the
runs in which one thread interrupts another there. Each motor answers a frame before the next
step. A step reports its poll, if it makes one, together with the delivery number of the
reply the polling thread waits for.
-/

namespace ArmSimulator

inductive Thread where
  | control
  | keyboard
  deriving DecidableEq, Repr

/-- The key handlers that use the bus: `b` moves both motors, `z` sets both zeros. -/
inductive Handler where
  | b
  | z
  deriving DecidableEq, Repr

inductive ControlPc where
  | lock
  | elbowSend
  | elbowReceive
  | unlock
  | signal
  | shoulderSend
  | shoulderReceive
  deriving DecidableEq, Repr

inductive KeyboardPc where
  | idle
  | lock (handler : Handler)
  | wait (handler : Handler)
  /-- Blocked in `pthread_cond_wait`, which has released the mutex. -/
  | waiting (handler : Handler)
  /-- Woken in `pthread_cond_wait`, which takes the mutex again. -/
  | relock (handler : Handler)
  | send (handler : Handler) (joint : Joint)
  | receive (handler : Handler) (joint : Joint)
  | unlock
  deriving DecidableEq, Repr

structure Reception where
  thread : Thread
  /-- The number of the reply to the thread's last frame. -/
  awaited : Option ℕ
  /-- The number of the frame the poll took, if one was waiting. -/
  taken : Option ℕ
  /-- Whether `CAN_BUS_Receive` returned a buffer. -/
  accepted : Bool
  deriving DecidableEq, Repr

structure Threads where
  arm : Arm
  mutex : Option Thread
  control : ControlPc
  keyboard : KeyboardPc
  flip : Bool
  elbowSetPos : CFloat
  /-- The number of the reply each thread waits for, between its send and its poll. -/
  awaited : Thread → Option ℕ

/-- What is scheduled next; `reply` is the payload of the answer to a frame sent. -/
inductive ThreadsAction where
  | control (reply : Vector Byte 7)
  | keyboard (reply : Vector Byte 7)
  | press (handler : Handler)
  /-- A wait on a condition may also return without a signal. -/
  | spuriousWakeup

/-- The motor addressed by the last frame sent answers it. -/
def CanBus.answer (bus : CanBus) (payload : Vector Byte 7) : CanBus :=
  bus.deliver [.reply bus.frameSend.canId (cmdByte bus.frameSend.data) payload]

namespace Threads

def initial (position : Joint → CFloat) : Threads where
  arm := .initial position
  mutex := none
  control := .lock
  keyboard := .idle
  flip := true
  elbowSetPos := .ofInt 0
  awaited _ := none

/-- A thread has sent a frame: the answer is queued, and the thread waits for it. -/
def afterSend (threads : Threads) (thread : Thread) (bus : CanBus) (reply : Vector Byte 7) :
    Threads :=
  { threads with
    arm := { threads.arm with bus := bus.answer reply }
    awaited := Function.update threads.awaited thread (some bus.sRecv.arrived.length) }

def afterReceive (threads : Threads) (thread : Thread) (arm : Arm) : Threads :=
  { threads with arm, awaited := Function.update threads.awaited thread none }

def reception (threads : Threads) (thread : Thread) (arm : Arm) : Reception where
  thread := thread
  awaited := threads.awaited thread
  taken :=
    if arm.bus.sRecv.taken = threads.arm.bus.sRecv.taken + 1 then
      some threads.arm.bus.sRecv.taken
    else none
  accepted := arm.bus.canReply

/-- One operation of `Control_thread`; a locked mutex blocks it. -/
def stepControl (threads : Threads) (reply : Vector Byte 7) :
    Option (Threads × List Reception) :=
  match threads.control with
  | .lock =>
      if threads.mutex = none then
        some ({ threads with mutex := some .control, control := .elbowSend }, [])
      else none
  | .elbowSend =>
      let bus := (threads.arm.readPositionSend .elbow).bus
      some ({ threads.afterSend .control bus reply with control := .elbowReceive }, [])
  | .elbowReceive =>
      let arm := (threads.arm.readPositionReceive .elbow false).1
      some ({ threads.afterReceive .control arm with control := .unlock },
        [threads.reception .control arm])
  | .unlock => some ({ threads with mutex := none, control := .signal }, [])
  | .signal =>
      match threads.keyboard with
      | .waiting handler =>
          some ({ threads with keyboard := .relock handler, control := .shoulderSend }, [])
      | _ => some ({ threads with control := .shoulderSend }, [])
  | .shoulderSend =>
      let bus := (threads.arm.readPositionSend .shoulder).bus
      some ({ threads.afterSend .control bus reply with control := .shoulderReceive }, [])
  | .shoulderReceive =>
      let arm := (threads.arm.readPositionReceive .shoulder false).1
      some ({ threads.afterReceive .control arm with control := .lock },
        [threads.reception .control arm])

def nextCommand (handler : Handler) : Joint → KeyboardPc
  | .elbow => .send handler .shoulder
  | .shoulder => .unlock

/--
The first half of a handler's command. `elbow_set_pos` goes to both motors; it is `20` or
`0`, so that the last argument of the conversion is never used. `set_position` does nothing
with a position out of range.
-/
def sendCommand (threads : Threads) (joint : Joint) : Handler → Option CanBus
  | .b =>
      if Motor.inRangeOf threads.elbowSetPos then
        some ((threads.arm.motor joint).setPositionSend threads.elbowSetPos 0 threads.arm.bus)
      else none
  | .z => some ((threads.arm.motor joint).setZeroCmdSend threads.arm.bus)

def receiveCommand (threads : Threads) (joint : Joint) : Handler → Arm
  | .b =>
      { threads.arm with
        bus := (threads.arm.motor joint).setPositionReceive false threads.arm.bus }
  | .z =>
      { threads.arm with
        bus := (threads.arm.motor joint).setZeroCmdReceive false threads.arm.bus }

/-- One operation of a key handler; a locked mutex and the condition block it. -/
def stepKeyboard (threads : Threads) (reply : Vector Byte 7) :
    Option (Threads × List Reception) :=
  match threads.keyboard with
  | .idle => none
  | .lock handler =>
      if threads.mutex = none then
        some ({ threads with mutex := some .keyboard, keyboard := .wait handler }, [])
      else none
  | .wait handler => some ({ threads with mutex := none, keyboard := .waiting handler }, [])
  | .waiting _ => none
  | .relock handler =>
      if threads.mutex = none then
        some ({ threads with mutex := some .keyboard, keyboard := .send handler .elbow }, [])
      else none
  | .send handler joint =>
      match threads.sendCommand joint handler with
      | some bus =>
          some ({ threads.afterSend .keyboard bus reply with
            keyboard := .receive handler joint }, [])
      | none => some ({ threads with keyboard := nextCommand handler joint }, [])
  | .receive handler joint =>
      let arm := threads.receiveCommand joint handler
      some ({ threads.afterReceive .keyboard arm with keyboard := nextCommand handler joint },
        [threads.reception .keyboard arm])
  | .unlock => some ({ threads with mutex := none, keyboard := .idle }, [])

/-- A key starts its handler. The `b` handler chooses the new position before it locks. -/
def startHandler (threads : Threads) : Handler → Threads
  | .b =>
      { threads with
        keyboard := .lock .b
        elbowSetPos := if threads.flip then .ofInt 20 else .ofInt 0
        flip := !threads.flip }
  | .z => { threads with keyboard := .lock .z }

def step (threads : Threads) : ThreadsAction → Option (Threads × List Reception)
  | .control reply => threads.stepControl reply
  | .keyboard reply => threads.stepKeyboard reply
  | .press handler =>
      if threads.keyboard = .idle then some (threads.startHandler handler, []) else none
  | .spuriousWakeup =>
      match threads.keyboard with
      | .waiting handler => some ({ threads with keyboard := .relock handler }, [])
      | _ => none

def machine : Machine Threads ThreadsAction Reception := ⟨step⟩

end Threads

end ArmSimulator
