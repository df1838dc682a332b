import ArmSimulator.Threads.Model

/-!
# What a step of the two threads can do

One constructor for each kind of operation, with its guard and the state it leaves. The two
reads of `Control_thread` differ only in the program counters around them. Every invariant
over the runs of the threads, ordered polls or not, is a case analysis over these moves.
-/

namespace ArmSimulator

def ControlPc.HoldsMutex : ControlPc → Prop
  | .elbowSend | .elbowReceive | .unlock => True
  | _ => False

def KeyboardPc.HoldsMutex : KeyboardPc → Prop
  | .wait _ | .send _ _ | .receive _ _ | .unlock => True
  | _ => False

def ControlPc.send : Joint → ControlPc
  | .elbow => .elbowSend
  | .shoulder => .shoulderSend

def ControlPc.receive : Joint → ControlPc
  | .elbow => .elbowReceive
  | .shoulder => .shoulderReceive

/-- Where `Control_thread` goes on after the poll for a motor's position. -/
def ControlPc.afterRead : Joint → ControlPc
  | .elbow => .unlock
  | .shoulder => .lock

@[simp]
theorem ControlPc.holdsMutex_send (joint : Joint) :
    (ControlPc.send joint).HoldsMutex ↔ joint = .elbow := by
  cases joint <;> simp [ControlPc.send, ControlPc.HoldsMutex]

@[simp]
theorem ControlPc.holdsMutex_receive (joint : Joint) :
    (ControlPc.receive joint).HoldsMutex ↔ joint = .elbow := by
  cases joint <;> simp [ControlPc.receive, ControlPc.HoldsMutex]

@[simp]
theorem ControlPc.holdsMutex_afterRead (joint : Joint) :
    (ControlPc.afterRead joint).HoldsMutex ↔ joint = .elbow := by
  cases joint <;> simp [ControlPc.afterRead, ControlPc.HoldsMutex]

namespace Threads

@[simp]
theorem holdsMutex_nextCommand (handler : Handler) (joint : Joint) :
    (nextCommand handler joint).HoldsMutex := by
  cases joint <;> simp [nextCommand, KeyboardPc.HoldsMutex]

section Updates

variable (threads : Threads) (thread : Thread)

@[simp]
theorem afterSend_mutex (bus : CanBus) (reply : Vector Byte 7) :
    (threads.afterSend thread bus reply).mutex = threads.mutex := rfl

@[simp]
theorem afterSend_keyboard (bus : CanBus) (reply : Vector Byte 7) :
    (threads.afterSend thread bus reply).keyboard = threads.keyboard := rfl

@[simp]
theorem afterSend_elbowSetPos (bus : CanBus) (reply : Vector Byte 7) :
    (threads.afterSend thread bus reply).elbowSetPos = threads.elbowSetPos := rfl

@[simp]
theorem afterReceive_mutex (arm : Arm) :
    (threads.afterReceive thread arm).mutex = threads.mutex := rfl

@[simp]
theorem afterReceive_control (arm : Arm) :
    (threads.afterReceive thread arm).control = threads.control := rfl

@[simp]
theorem afterReceive_keyboard (arm : Arm) :
    (threads.afterReceive thread arm).keyboard = threads.keyboard := rfl

@[simp]
theorem afterReceive_elbowSetPos (arm : Arm) :
    (threads.afterReceive thread arm).elbowSetPos = threads.elbowSetPos := rfl

end Updates

inductive Move (threads : Threads) : ThreadsAction → Threads → Prop where
  | controlLock (reply : Vector Byte 7) (pc : threads.control = .lock)
      (free : threads.mutex = none) :
      Move threads (.control reply)
        { threads with mutex := some .control, control := .elbowSend }
  | controlSend (reply : Vector Byte 7) (joint : Joint) (pc : threads.control = .send joint) :
      Move threads (.control reply)
        { threads.afterSend .control (threads.arm.readPositionSend joint).bus reply with
          control := .receive joint }
  | controlReceive (reply : Vector Byte 7) (joint : Joint)
      (pc : threads.control = .receive joint) :
      Move threads (.control reply)
        { threads.afterReceive .control (threads.arm.readPositionReceive joint false).1 with
          control := .afterRead joint }
  | controlUnlock (reply : Vector Byte 7) (pc : threads.control = .unlock) :
      Move threads (.control reply) { threads with mutex := none, control := .signal }
  | controlWake (reply : Vector Byte 7) (pc : threads.control = .signal) (handler : Handler)
      (waits : threads.keyboard = .waiting handler) :
      Move threads (.control reply)
        { threads with keyboard := .relock handler, control := .shoulderSend }
  /-- A signal that no thread waits for is lost. -/
  | controlSignal (reply : Vector Byte 7) (pc : threads.control = .signal)
      (nobody : ∀ handler, threads.keyboard ≠ .waiting handler) :
      Move threads (.control reply) { threads with control := .shoulderSend }
  | keyboardLock (reply : Vector Byte 7) (handler : Handler)
      (pc : threads.keyboard = .lock handler) (free : threads.mutex = none) :
      Move threads (.keyboard reply)
        { threads with mutex := some .keyboard, keyboard := .wait handler }
  | keyboardWait (reply : Vector Byte 7) (handler : Handler)
      (pc : threads.keyboard = .wait handler) :
      Move threads (.keyboard reply)
        { threads with mutex := none, keyboard := .waiting handler }
  | keyboardRelock (reply : Vector Byte 7) (handler : Handler)
      (pc : threads.keyboard = .relock handler) (free : threads.mutex = none) :
      Move threads (.keyboard reply)
        { threads with mutex := some .keyboard, keyboard := .send handler .elbow }
  | keyboardSend (reply : Vector Byte 7) (handler : Handler) (joint : Joint)
      (pc : threads.keyboard = .send handler joint) (bus : CanBus)
      (sent : threads.sendCommand joint handler = some bus) :
      Move threads (.keyboard reply)
        { threads.afterSend .keyboard bus reply with keyboard := .receive handler joint }
  | keyboardSkip (reply : Vector Byte 7) (handler : Handler) (joint : Joint)
      (pc : threads.keyboard = .send handler joint)
      (unsent : threads.sendCommand joint handler = none) :
      Move threads (.keyboard reply) { threads with keyboard := nextCommand handler joint }
  | keyboardReceive (reply : Vector Byte 7) (handler : Handler) (joint : Joint)
      (pc : threads.keyboard = .receive handler joint) :
      Move threads (.keyboard reply)
        { threads.afterReceive .keyboard (threads.receiveCommand joint handler) with
          keyboard := nextCommand handler joint }
  | keyboardUnlock (reply : Vector Byte 7) (pc : threads.keyboard = .unlock) :
      Move threads (.keyboard reply) { threads with mutex := none, keyboard := .idle }
  | press (handler : Handler) (pc : threads.keyboard = .idle) :
      Move threads (.press handler) (threads.startHandler handler)
  | spuriousWakeup (handler : Handler) (waits : threads.keyboard = .waiting handler) :
      Move threads .spuriousWakeup { threads with keyboard := .relock handler }

theorem stepControl_move {threads next : Threads} {reply : Vector Byte 7}
    {events : List Reception} (taken : threads.stepControl reply = some (next, events)) :
    Move threads (.control reply) next := by
  cases pc : threads.control with
  | lock =>
      simp only [stepControl, pc, Option.ite_none_right_eq_some, Option.some.injEq,
        Prod.mk.injEq] at taken
      rcases taken with ⟨free, rfl, -⟩
      exact .controlLock reply pc free
  | elbowSend =>
      simp only [stepControl, pc, Option.some.injEq, Prod.mk.injEq] at taken
      rcases taken with ⟨rfl, -⟩
      exact .controlSend reply .elbow pc
  | elbowReceive =>
      simp only [stepControl, pc, Option.some.injEq, Prod.mk.injEq] at taken
      rcases taken with ⟨rfl, -⟩
      exact .controlReceive reply .elbow pc
  | unlock =>
      simp only [stepControl, pc, Option.some.injEq, Prod.mk.injEq] at taken
      rcases taken with ⟨rfl, -⟩
      exact .controlUnlock reply pc
  | signal =>
      simp only [stepControl, pc] at taken
      split at taken
      · rename_i handler waits
        simp only [Option.some.injEq, Prod.mk.injEq] at taken
        rcases taken with ⟨rfl, -⟩
        exact .controlWake reply pc handler waits
      · rename_i nobody
        simp only [Option.some.injEq, Prod.mk.injEq] at taken
        rcases taken with ⟨rfl, -⟩
        exact .controlSignal reply pc nobody
  | shoulderSend =>
      simp only [stepControl, pc, Option.some.injEq, Prod.mk.injEq] at taken
      rcases taken with ⟨rfl, -⟩
      exact .controlSend reply .shoulder pc
  | shoulderReceive =>
      simp only [stepControl, pc, Option.some.injEq, Prod.mk.injEq] at taken
      rcases taken with ⟨rfl, -⟩
      exact .controlReceive reply .shoulder pc

theorem stepKeyboard_move {threads next : Threads} {reply : Vector Byte 7}
    {events : List Reception} (taken : threads.stepKeyboard reply = some (next, events)) :
    Move threads (.keyboard reply) next := by
  cases pc : threads.keyboard with
  | idle => simp [stepKeyboard, pc] at taken
  | lock handler =>
      simp only [stepKeyboard, pc, Option.ite_none_right_eq_some, Option.some.injEq,
        Prod.mk.injEq] at taken
      rcases taken with ⟨free, rfl, -⟩
      exact .keyboardLock reply handler pc free
  | wait handler =>
      simp only [stepKeyboard, pc, Option.some.injEq, Prod.mk.injEq] at taken
      rcases taken with ⟨rfl, -⟩
      exact .keyboardWait reply handler pc
  | waiting handler => simp [stepKeyboard, pc] at taken
  | relock handler =>
      simp only [stepKeyboard, pc, Option.ite_none_right_eq_some, Option.some.injEq,
        Prod.mk.injEq] at taken
      rcases taken with ⟨free, rfl, -⟩
      exact .keyboardRelock reply handler pc free
  | send handler joint =>
      simp only [stepKeyboard, pc] at taken
      split at taken
      · rename_i bus sent
        simp only [Option.some.injEq, Prod.mk.injEq] at taken
        rcases taken with ⟨rfl, -⟩
        exact .keyboardSend reply handler joint pc bus sent
      · rename_i unsent
        simp only [Option.some.injEq, Prod.mk.injEq] at taken
        rcases taken with ⟨rfl, -⟩
        exact .keyboardSkip reply handler joint pc unsent
  | receive handler joint =>
      simp only [stepKeyboard, pc, Option.some.injEq, Prod.mk.injEq] at taken
      rcases taken with ⟨rfl, -⟩
      exact .keyboardReceive reply handler joint pc
  | unlock =>
      simp only [stepKeyboard, pc, Option.some.injEq, Prod.mk.injEq] at taken
      rcases taken with ⟨rfl, -⟩
      exact .keyboardUnlock reply pc

theorem step_move {threads next : Threads} {action : ThreadsAction} {events : List Reception}
    (taken : threads.step action = some (next, events)) : Move threads action next := by
  cases action with
  | control reply => exact stepControl_move taken
  | keyboard reply => exact stepKeyboard_move taken
  | press handler =>
      simp only [step, Option.ite_none_right_eq_some, Option.some.injEq, Prod.mk.injEq] at taken
      rcases taken with ⟨pc, rfl, -⟩
      exact .press handler pc
  | spuriousWakeup =>
      simp only [step] at taken
      split at taken
      · rename_i handler waits
        simp only [Option.some.injEq, Prod.mk.injEq] at taken
        rcases taken with ⟨rfl, -⟩
        exact .spuriousWakeup handler waits
      · contradiction

/-! ## The mutex -/

/-- A thread owns the mutex exactly while it is in one of its critical sections. -/
structure Locked (threads : Threads) : Prop where
  control_iff : threads.control.HoldsMutex ↔ threads.mutex = some .control
  keyboard_iff : threads.keyboard.HoldsMutex ↔ threads.mutex = some .keyboard

theorem locked_initial (position : Joint → CFloat) : (initial position).Locked := by
  constructor <;> simp [initial, ControlPc.HoldsMutex, KeyboardPc.HoldsMutex]

theorem Locked.exclusive {threads : Threads} (locked : threads.Locked) :
    ¬(threads.control.HoldsMutex ∧ threads.keyboard.HoldsMutex) := by
  rintro ⟨control, keyboard⟩
  have := (locked.control_iff.mp control).symm.trans (locked.keyboard_iff.mp keyboard)
  simp at this

theorem Locked.free {threads : Threads} (locked : threads.Locked)
    (unlocked : threads.mutex = none) :
    ¬threads.control.HoldsMutex ∧ ¬threads.keyboard.HoldsMutex := by
  rw [locked.control_iff, locked.keyboard_iff, unlocked]
  simp

theorem Locked.move {threads next : Threads} (locked : threads.Locked) {action : ThreadsAction}
    (move : Move threads action next) : next.Locked := by
  rcases locked with ⟨control, keyboard⟩
  cases move with
  | controlLock reply pc free =>
      exact ⟨by simp [ControlPc.HoldsMutex], by simpa [free] using keyboard⟩
  | controlSend reply joint pc => exact ⟨by simpa [pc] using control, keyboard⟩
  | controlReceive reply joint pc => exact ⟨by simpa [pc] using control, keyboard⟩
  | controlUnlock reply pc =>
      have owner : threads.mutex = some .control := control.mp (by simp [pc, ControlPc.HoldsMutex])
      exact ⟨by simp [ControlPc.HoldsMutex], by simpa [owner] using keyboard⟩
  | controlWake reply pc handler waits =>
      exact ⟨by simpa [pc, ControlPc.HoldsMutex] using control,
        by simpa [waits, KeyboardPc.HoldsMutex] using keyboard⟩
  | controlSignal reply pc nobody =>
      exact ⟨by simpa [pc, ControlPc.HoldsMutex] using control, keyboard⟩
  | keyboardLock reply handler pc free =>
      exact ⟨by simpa [free] using control, by simp [KeyboardPc.HoldsMutex]⟩
  | keyboardWait reply handler pc =>
      have owner : threads.mutex = some .keyboard :=
        keyboard.mp (by simp [pc, KeyboardPc.HoldsMutex])
      exact ⟨by simpa [owner] using control, by simp [KeyboardPc.HoldsMutex]⟩
  | keyboardRelock reply handler pc free =>
      exact ⟨by simpa [free] using control, by simp [KeyboardPc.HoldsMutex]⟩
  | keyboardSend reply handler joint pc bus sent =>
      have owner := keyboard.mp (by simp [pc, KeyboardPc.HoldsMutex])
      exact ⟨control, by simp [owner, KeyboardPc.HoldsMutex]⟩
  | keyboardSkip reply handler joint pc unsent =>
      have owner := keyboard.mp (by simp [pc, KeyboardPc.HoldsMutex])
      exact ⟨control, by simp [owner]⟩
  | keyboardReceive reply handler joint pc =>
      have owner := keyboard.mp (by simp [pc, KeyboardPc.HoldsMutex])
      exact ⟨control, by simp [owner]⟩
  | keyboardUnlock reply pc =>
      have owner : threads.mutex = some .keyboard :=
        keyboard.mp (by simp [pc, KeyboardPc.HoldsMutex])
      exact ⟨by simpa [owner] using control, by simp [KeyboardPc.HoldsMutex]⟩
  | press handler pc =>
      have free : threads.mutex ≠ some .keyboard := by
        simpa [pc, KeyboardPc.HoldsMutex] using keyboard
      cases handler <;> exact ⟨control, by simpa [startHandler, KeyboardPc.HoldsMutex] using free⟩
  | spuriousWakeup handler waits =>
      exact ⟨control, by simpa [waits, KeyboardPc.HoldsMutex] using keyboard⟩

end Threads

end ArmSimulator
