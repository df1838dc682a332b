import ArmSimulator.Lib.Serial
import ArmSimulator.Threads.Commands

/-!
# The order of the frames on the bus

Where sends and polls are single steps, everything the program sends is a sequence of whole
transactions: single position requests, single shutdown frames, and pairs of frames of a key
handler, elbow first. The mutex keeps the elbow's requests out of the pairs. The shoulder's
requests are sent without it, and at most one of them can come between the two frames of a pair.
-/

namespace ArmSimulator

def request (joint : Joint) : CanFrame := ⟨joint.address, 8, getPositionMsg⟩

inductive Transaction : List CanFrame → Prop where
  | read (joint : Joint) : Transaction [request joint]
  | command (handler : Handler) (flip : Bool) :
      Transaction [handler.ordered flip .elbow, handler.ordered flip .shoulder]
  | overtaken (handler : Handler) (flip : Bool) :
      Transaction [handler.ordered flip .elbow, request .shoulder, handler.ordered flip .shoulder]
  | shutdown (joint : Joint) : Transaction [shutdownFrame joint]

/-- The handler that has sent its first frame but not its second. -/
def KeyboardPc.halfway : KeyboardPc → Option Handler
  | .receive handler .elbow | .send handler .shoulder => some handler
  | _ => none

/-- The frames of the transaction that is not finished. -/
inductive Opened (threads : Threads) : List CanFrame → Prop where
  | nothing (idle : threads.keyboard.halfway = none) : Opened threads []
  | first (handler : Handler) (halfway : threads.keyboard.halfway = some handler) :
      Opened threads [handler.frame threads.elbowSetPos .elbow]
  /-- After its request, `Control_thread` needs the mutex before it sends another one. -/
  | overtaken (handler : Handler) (halfway : threads.keyboard.halfway = some handler)
      (control : threads.control = .shoulderReceive ∨ threads.control = .lock) :
      Opened threads [handler.frame threads.elbowSetPos .elbow, request .shoulder]

theorem Threads.halfway_of_not_holds {threads : Threads} (free : ¬threads.keyboard.HoldsMutex) :
    threads.keyboard.halfway = none := by
  cases pc : threads.keyboard with
  | send handler joint => simp [pc, KeyboardPc.HoldsMutex] at free
  | receive handler joint => simp [pc, KeyboardPc.HoldsMutex] at free
  | _ => rfl

theorem Opened.eq_nil {threads : Threads} {opened : List CanFrame}
    (isOpened : Opened threads opened) (idle : threads.keyboard.halfway = none) : opened = [] := by
  cases isOpened with
  | nothing _ => rfl
  | first handler halfway => simp [idle] at halfway
  | overtaken handler halfway pc => simp [idle] at halfway

/-- A step that neither sends a frame nor changes where the handler stands. -/
theorem Opened.keep {threads next : Threads} {opened : List CanFrame}
    (isOpened : Opened threads opened) (setPos : next.elbowSetPos = threads.elbowSetPos)
    (same : next.keyboard.halfway = threads.keyboard.halfway)
    (control : threads.keyboard.halfway ≠ none →
      threads.control = .shoulderReceive ∨ threads.control = .lock →
      next.control = .shoulderReceive ∨ next.control = .lock) : Opened next opened := by
  cases isOpened with
  | nothing idle => exact .nothing (same.trans idle)
  | first handler halfway =>
      rw [← setPos]
      exact .first handler (same.trans halfway)
  | overtaken handler halfway pc =>
      rw [← setPos]
      exact .overtaken handler (same.trans halfway) (control (by simp [halfway]) pc)

namespace Threads

/-- All frames sent form whole transactions, up to the one the handler has open. -/
def InSeries (threads : Threads) : Prop :=
  ∃ opened, Opened threads opened ∧ Serial Transaction threads.arm.bus.sSend opened

theorem InSeries.close {threads : Threads} {sent opened : List CanFrame}
    (serial : Serial Transaction sent opened) (whole : Transaction opened)
    (sSend : threads.arm.bus.sSend = sent) (idle : threads.keyboard.halfway = none) :
    threads.InSeries :=
  ⟨[], .nothing idle, by rw [sSend]; exact serial.close whole⟩

theorem InSeries.move {threads next : Threads} (sound : threads.Sound)
    (inSeries : threads.InSeries) {action : ThreadsAction} (move : Move threads action next) :
    next.InSeries := by
  rcases inSeries with ⟨opened, isOpened, serial⟩
  cases move with
  | controlLock reply pc free =>
      refine ⟨opened, isOpened.keep rfl rfl ?_, serial⟩
      intro halfway
      refine absurd (halfway_of_not_holds ?_) halfway
      simp [sound.locked.keyboard_iff, free]
  | controlSend reply joint pc =>
      have address := sound.addressed joint
      have sSend := serial.extend (request joint)
      cases joint with
      | elbow =>
          have control : threads.control.HoldsMutex := by simp [pc]
          have idle : threads.keyboard.halfway = none :=
            halfway_of_not_holds fun keyboard => sound.locked.exclusive ⟨control, keyboard⟩
          rw [isOpened.eq_nil idle] at sSend
          exact InSeries.close sSend (.read .elbow) (by rw [request, ← address]; rfl) idle
      | shoulder =>
          have frame : (threads.arm.readPositionSend .shoulder).bus.sSend =
              threads.arm.bus.sSend ++ [request .shoulder] := by
            rw [request, ← address]
            rfl
          cases isOpened with
          | nothing idle => exact InSeries.close sSend (.read .shoulder) frame idle
          | first handler halfway =>
              refine ⟨_, .overtaken handler halfway (Or.inl rfl), ?_⟩
              rw [afterSend_sSend, frame]
              exact sSend
          | overtaken handler halfway atPoll => simp [pc, ControlPc.send] at atPoll
  | controlReceive reply joint pc =>
      refine ⟨opened, isOpened.keep rfl rfl ?_, by simpa using serial⟩
      cases joint with
      | elbow => simp [pc, ControlPc.receive]
      | shoulder => simp [ControlPc.afterRead]
  | controlUnlock reply pc => exact ⟨opened, isOpened.keep rfl rfl (by simp [pc]), serial⟩
  | controlWake reply pc handler waits =>
      exact ⟨opened, isOpened.keep rfl (by rw [waits]; rfl) (by simp [pc]), serial⟩
  | controlSignal reply pc nobody => exact ⟨opened, isOpened.keep rfl rfl (by simp [pc]), serial⟩
  | keyboardSend reply handler joint pc bus sent =>
      rcases sound.setPoint_eq with ⟨flip, chosen⟩
      rw [sound.sendCommand_eq, Option.some.injEq] at sent
      subst bus
      have sSend := serial.extend (handler.frame threads.elbowSetPos joint)
      cases joint with
      | elbow =>
          rw [isOpened.eq_nil (by rw [pc]; rfl)] at sSend
          exact ⟨_, .first handler rfl, sSend⟩
      | shoulder =>
          have halfway : threads.keyboard.halfway = some handler := by rw [pc]; rfl
          have whole : Transaction (opened ++ [handler.frame threads.elbowSetPos .shoulder]) := by
            rw [chosen, handler.frame_setPoint]
            cases isOpened with
            | nothing idle => simp [halfway] at idle
            | first other same =>
                rw [halfway, Option.some.injEq] at same
                rw [← same, chosen, handler.frame_setPoint]
                exact .command handler flip
            | overtaken other same control =>
                rw [halfway, Option.some.injEq] at same
                rw [← same, chosen, handler.frame_setPoint]
                exact .overtaken handler flip
          exact InSeries.close sSend whole rfl rfl
  | keyboardSkip reply handler joint pc unsent => simp [sound.sendCommand_eq] at unsent
  | keyboardReceive reply handler joint pc =>
      have same : (nextCommand handler joint).halfway = threads.keyboard.halfway := by
        rw [pc]
        cases joint <;> rfl
      exact ⟨opened, isOpened.keep rfl same fun _ => id, by simpa using serial⟩
  | press handler pc =>
      rw [isOpened.eq_nil (by rw [pc]; rfl)] at serial
      cases handler <;> exact ⟨[], .nothing rfl, serial⟩
  | keyboardLock reply handler pc | keyboardWait reply handler pc
  | keyboardRelock reply handler pc | keyboardUnlock reply pc | spuriousWakeup handler pc =>
      rw [isOpened.eq_nil (by rw [pc]; rfl)] at serial
      exact ⟨[], .nothing rfl, serial⟩

end Threads

namespace Program

theorem InSeries.move {program next : Program} {keys : List Key} (follows : program.Follows keys)
    (inSeries : program.threads.InSeries) {action : ProgramAction}
    (move : Move program action next) : next.threads.InSeries := by
  have idle : program.closing ≠ .running → program.threads.keyboard.halfway = none := by
    intro closing
    rw [follows.idle closing]
    rfl
  cases move with
  | threads action admits next move => exact Threads.InSeries.move follows.sound inSeries move
  | shutdownSend reply failed joint pc =>
      rcases inSeries with ⟨opened, isOpened, serial⟩
      have sSend := serial.extend (shutdownFrame joint)
      have free := idle (by simp [pc])
      rw [isOpened.eq_nil free] at sSend
      refine Threads.InSeries.close sSend (.shutdown joint) ?_ free
      rw [shutdownFrame, ← follows.sound.addressed joint]
      rfl
  | shutdownReceive reply failed joint pc =>
      rcases inSeries with ⟨opened, isOpened, serial⟩
      refine ⟨opened, isOpened.keep rfl rfl fun _ => id, ?_⟩
      simpa [arm, Motor.shutdownCmdReceive] using serial
  | lastSend reply failed pc =>
      rcases inSeries with ⟨opened, isOpened, serial⟩
      have sSend := serial.extend (request .shoulder)
      have free := idle (by simp [pc])
      rw [isOpened.eq_nil free] at sSend
      exact Threads.InSeries.close sSend (.read .shoulder) rfl free
  | escape | proceed | stopControl => exact inSeries

end Program

end ArmSimulator
