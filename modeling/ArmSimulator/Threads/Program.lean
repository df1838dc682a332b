import ArmSimulator.Threads.Moves

/-!
# The program with its shutdown

`keyboard_event_thread` also reads the escape key, for which it calls `close_all`. That
function takes no lock: it shuts both motors down while `Control_thread` may be between the
send and the poll of a read, asks for the threads' cancellation, sends one more position
request to the shoulder, and ends the process. A cancelled thread goes on until it notices.

The sends and polls of `close_all` are single steps like those of the threads, and the
motors answer before the next step. `main` creates the threads without an error, and a key is
what `getchar` returns to the idle keyboard thread.
-/

namespace ArmSimulator

/-- `send_buf` of `main.h`. -/
def sendBuf : Vector Byte 8 :=
  #v[0x92#8, 0x00#8, 0x00#8, 0x00#8, 0x00#8, 0x00#8, 0x00#8, 0x00#8]

/-- Where `close_all` is, if it has been called. -/
inductive ClosePc where
  | running
  | shutdownSend (joint : Joint)
  | shutdownReceive (joint : Joint)
  | cancelImu
  | cancelControl
  | lastSend
  | busClose
  | exited
  deriving DecidableEq, Repr

structure Program where
  threads : Threads
  closing : ClosePc
  /-- `pthread_cancel` has been called for `Control_thread`. -/
  cancelled : Bool
  /-- `Control_thread` has come to a cancellation point since. -/
  stopped : Bool

inductive ProgramAction where
  | threads (action : ThreadsAction)
  | escape
  /-- The next operation of `close_all`; `failed` if the process ends in a `pthread_cancel`. -/
  | closeAll (reply : Vector Byte 7) (failed : Bool)
  | stopControl

namespace Program

def initial (position : Joint → CFloat) : Program := ⟨.initial position, .running, false, false⟩

def arm (program : Program) : Arm := program.threads.arm

/-- All frames sent so far, in order. -/
def sent (program : Program) : List CanFrame := program.arm.bus.sSend

/-- `close_all` runs on the keyboard thread, which takes no other key meanwhile. -/
def Admits (program : Program) : ThreadsAction → Prop
  | .control _ => program.closing ≠ .exited ∧ program.stopped = false
  | _ => program.closing = .running

instance (program : Program) (action : ThreadsAction) : Decidable (program.Admits action) := by
  cases action <;> simp only [Admits] <;> infer_instance

def afterShutdown : Joint → ClosePc
  | .elbow => .shutdownSend .shoulder
  | .shoulder => .cancelImu

/-- One operation of `close_all`. -/
def stepCloseAll (program : Program) (reply : Vector Byte 7) (failed : Bool) :
    Option (Program × List Reception) :=
  match program.closing with
  | .running => none
  | .shutdownSend joint =>
      let bus := (program.arm.motor joint).shutdownCmdSend program.arm.bus
      some ({ program with
        threads := program.threads.afterSend .keyboard bus reply
        closing := .shutdownReceive joint }, [])
  | .shutdownReceive joint =>
      let bus := (program.arm.motor joint).shutdownCmdReceive false program.arm.bus
      let arm := { program.arm with bus }
      some ({ program with
        threads := program.threads.afterReceive .keyboard arm
        closing := afterShutdown joint }, [program.threads.reception .keyboard arm])
  | .cancelImu =>
      some ({ program with closing := if failed then .exited else .cancelControl }, [])
  | .cancelControl =>
      if failed then some ({ program with closing := .exited }, [])
      else some ({ program with closing := .lastSend, cancelled := true }, [])
  | .lastSend =>
      -- The reply to this request is never polled for.
      let bus := canBusSend sendBuf 0x142 program.arm.bus
      some ({ program with
        threads := program.threads.afterSend .keyboard bus reply
        closing := .busClose }, [])
  | .busClose => some ({ program with closing := .exited }, [])
  | .exited => none

def step (program : Program) : ProgramAction → Option (Program × List Reception)
  | .threads action =>
      if program.Admits action then
        (program.threads.step action).map fun result =>
          ({ program with threads := result.1 }, result.2)
      else none
  | .escape =>
      if program.closing = .running ∧ program.threads.keyboard = .idle then
        some ({ program with closing := .shutdownSend .elbow }, [])
      else none
  | .closeAll reply failed => program.stepCloseAll reply failed
  | .stopControl =>
      if program.cancelled = true ∧ program.stopped = false then
        some ({ program with stopped := true }, [])
      else none

def machine : Machine Program ProgramAction Reception := ⟨step⟩

/-! ## What a step can do -/

inductive Move (program : Program) : ProgramAction → Program → Prop where
  | threads (action : ThreadsAction) (admits : program.Admits action) (next : Threads)
      (move : program.threads.Move action next) :
      Move program (.threads action) { program with threads := next }
  | escape (running : program.closing = .running) (idle : program.threads.keyboard = .idle) :
      Move program .escape { program with closing := .shutdownSend .elbow }
  | shutdownSend (reply : Vector Byte 7) (failed : Bool) (joint : Joint)
      (pc : program.closing = .shutdownSend joint) :
      Move program (.closeAll reply failed)
        { program with
          threads := program.threads.afterSend .keyboard
            ((program.arm.motor joint).shutdownCmdSend program.arm.bus) reply
          closing := .shutdownReceive joint }
  | shutdownReceive (reply : Vector Byte 7) (failed : Bool) (joint : Joint)
      (pc : program.closing = .shutdownReceive joint) :
      Move program (.closeAll reply failed)
        { program with
          threads := program.threads.afterReceive .keyboard
            { program.arm with
              bus := (program.arm.motor joint).shutdownCmdReceive false program.arm.bus }
          closing := afterShutdown joint }
  /-- The tests of `pthread_cancel`, and the end of the process. -/
  | proceed (reply : Vector Byte 7) (failed : Bool) (closing : ClosePc) (cancelled : Bool)
      (pc : program.closing = .cancelImu ∧ (closing = .exited ∨ closing = .cancelControl) ∨
        program.closing = .cancelControl ∧ (closing = .exited ∨ closing = .lastSend) ∨
        program.closing = .busClose ∧ closing = .exited) :
      Move program (.closeAll reply failed) { program with closing, cancelled }
  | lastSend (reply : Vector Byte 7) (failed : Bool) (pc : program.closing = .lastSend) :
      Move program (.closeAll reply failed)
        { program with
          threads := program.threads.afterSend .keyboard
            (canBusSend sendBuf 0x142 program.arm.bus) reply
          closing := .busClose }
  | stopControl (cancelled : program.cancelled = true) :
      Move program .stopControl { program with stopped := true }

theorem stepCloseAll_move {program next : Program} {reply : Vector Byte 7} {failed : Bool}
    {events : List Reception}
    (taken : program.stepCloseAll reply failed = some (next, events)) :
    Move program (.closeAll reply failed) next := by
  cases pc : program.closing with
  | running => simp [stepCloseAll, pc] at taken
  | exited => simp [stepCloseAll, pc] at taken
  | shutdownSend joint =>
      simp only [stepCloseAll, pc, Option.some.injEq, Prod.mk.injEq] at taken
      rcases taken with ⟨rfl, -⟩
      exact .shutdownSend reply failed joint pc
  | shutdownReceive joint =>
      simp only [stepCloseAll, pc, Option.some.injEq, Prod.mk.injEq] at taken
      rcases taken with ⟨rfl, -⟩
      exact .shutdownReceive reply failed joint pc
  | cancelImu =>
      simp only [stepCloseAll, pc, Option.some.injEq, Prod.mk.injEq] at taken
      rcases taken with ⟨rfl, -⟩
      exact .proceed reply failed _ program.cancelled (Or.inl ⟨pc, by cases failed <;> simp⟩)
  | cancelControl =>
      simp only [stepCloseAll, pc] at taken
      split at taken
      · simp only [Option.some.injEq, Prod.mk.injEq] at taken
        rcases taken with ⟨rfl, -⟩
        exact .proceed reply failed _ program.cancelled (Or.inr (Or.inl ⟨pc, by simp⟩))
      · simp only [Option.some.injEq, Prod.mk.injEq] at taken
        rcases taken with ⟨rfl, -⟩
        exact .proceed reply failed _ true (Or.inr (Or.inl ⟨pc, by simp⟩))
  | lastSend =>
      simp only [stepCloseAll, pc, Option.some.injEq, Prod.mk.injEq] at taken
      rcases taken with ⟨rfl, -⟩
      exact .lastSend reply failed pc
  | busClose =>
      simp only [stepCloseAll, pc, Option.some.injEq, Prod.mk.injEq] at taken
      rcases taken with ⟨rfl, -⟩
      exact .proceed reply failed _ program.cancelled (Or.inr (Or.inr ⟨pc, rfl⟩))

theorem step_move {program next : Program} {action : ProgramAction} {events : List Reception}
    (taken : program.step action = some (next, events)) : Move program action next := by
  cases action with
  | threads action =>
      simp only [step, Option.ite_none_right_eq_some, Option.map_eq_some_iff, Prod.exists,
        Prod.mk.injEq] at taken
      rcases taken with ⟨admits, next, reported, moved, rfl, -⟩
      exact .threads action admits next (Threads.step_move moved)
  | escape =>
      simp only [step, Option.ite_none_right_eq_some, Option.some.injEq, Prod.mk.injEq] at taken
      rcases taken with ⟨⟨running, idle⟩, rfl, -⟩
      exact .escape running idle
  | closeAll reply failed => exact stepCloseAll_move taken
  | stopControl =>
      simp only [step, Option.ite_none_right_eq_some, Option.some.injEq, Prod.mk.injEq] at taken
      rcases taken with ⟨⟨cancelled, -⟩, rfl, -⟩
      exact .stopControl cancelled

end Program

end ArmSimulator
