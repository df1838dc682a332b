import ArmSimulator.Threads.Serial

/-!
# After the shutdown

`close_all` takes no lock, so the shutdown frames may fall anywhere between the frames of
`Control_thread`, though not inside one, since a send is a single step. The keyboard thread
is the only one that moves the motors, and it is busy with `close_all` from then on: nothing
drives a motor after the first shutdown frame.
-/

namespace ArmSimulator

/-- A frame that moves a motor or sets its zero. -/
def CanFrame.Drives (frame : CanFrame) : Prop :=
  cmdByte frame.data = cmdByte setPositionMsg ∨ cmdByte frame.data = cmdByte setZeroPosMsg

def CanFrame.IsShutdown (frame : CanFrame) : Prop := cmdByte frame.data = cmdByte shutdownMsg

namespace Program

/-- The frames a step may send. -/
inductive Sends (program : Program) : CanFrame → Prop where
  | request (joint : Joint) : Sends program (request joint)
  | command (running : program.closing = .running) (handler : Handler) (joint : Joint) :
      Sends program (handler.frame program.threads.elbowSetPos joint)
  | shutdown (joint : Joint) (pc : program.closing = .shutdownSend joint) :
      Sends program (shutdownFrame joint)

theorem threads_sent {threads next : Threads} (sound : threads.Sound) {action : ThreadsAction}
    (move : threads.Move action next) :
    next.arm.bus.sSend = threads.arm.bus.sSend ∨
      (∃ joint, next.arm.bus.sSend = threads.arm.bus.sSend ++ [request joint]) ∨
      ∃ (reply : Vector Byte 7) (handler : Handler) (joint : Joint), action = .keyboard reply ∧
        next.arm.bus.sSend =
          threads.arm.bus.sSend ++ [handler.frame threads.elbowSetPos joint] := by
  cases move with
  | controlSend reply joint pc =>
      refine Or.inr (Or.inl ⟨joint, ?_⟩)
      rw [request, ← sound.addressed joint]
      rfl
  | keyboardSend reply handler joint pc bus sent =>
      rw [sound.sendCommand_eq, Option.some.injEq] at sent
      subst bus
      exact Or.inr (Or.inr ⟨reply, handler, joint, rfl, rfl⟩)
  | controlReceive | keyboardReceive => left; simp
  | press handler pc => left; cases handler <;> rfl
  | _ => exact Or.inl rfl

theorem Move.sent {program next : Program} {keys : List Key} (follows : program.Follows keys)
    {action : ProgramAction} (move : Move program action next) :
    next.sent = program.sent ∨
      ∃ frame, Sends program frame ∧ next.sent = program.sent ++ [frame] := by
  cases move with
  | threads action admits next move =>
      rcases threads_sent follows.sound move with
        same | ⟨joint, sends⟩ | ⟨reply, handler, joint, rfl, sends⟩
      · exact Or.inl same
      · exact Or.inr ⟨_, .request joint, sends⟩
      · exact Or.inr ⟨_, .command admits handler joint, sends⟩
  | shutdownSend reply failed joint pc =>
      refine Or.inr ⟨_, .shutdown joint pc, ?_⟩
      rw [shutdownFrame, ← follows.sound.addressed joint]
      rfl
  | shutdownReceive reply failed joint pc =>
      exact Or.inl (by simp [Program.sent, arm, Motor.shutdownCmdReceive])
  | lastSend reply failed pc => exact Or.inr ⟨_, .request .shoulder, rfl⟩
  | escape | proceed | stopControl => exact Or.inl rfl

theorem Sends.drives {program : Program} {frame : CanFrame} (sends : program.Sends frame)
    (drives : frame.Drives) : program.closing = .running := by
  cases sends with
  | request joint => simp [CanFrame.Drives, ArmSimulator.request, cmdByte, getPositionMsg,
      setPositionMsg, setZeroPosMsg] at drives
  | command running handler joint => exact running
  | shutdown joint pc => simp [CanFrame.Drives, shutdownFrame, cmdByte, shutdownMsg,
      setPositionMsg, setZeroPosMsg] at drives

theorem Sends.isShutdown {program : Program} {frame : CanFrame} (sends : program.Sends frame)
    (isShutdown : frame.IsShutdown) : program.closing ≠ .running := by
  cases sends with
  | request joint => simp [CanFrame.IsShutdown, ArmSimulator.request, cmdByte, getPositionMsg,
      shutdownMsg] at isShutdown
  | command running handler joint =>
      cases handler <;> simp [CanFrame.IsShutdown, Handler.frame, Handler.message, cmdByte,
        Motor.setPositionBuf, setPositionMsg, setZeroPosMsg, shutdownMsg] at isShutdown
  | shutdown joint pc => simp [pc]

/-- The motors that `close_all` has shut down. -/
def shutDown : ClosePc → List Joint
  | .running | .shutdownSend .elbow => []
  | .shutdownReceive .elbow | .shutdownSend .shoulder => [.elbow]
  | _ => [.elbow, .shoulder]

structure Closing (program : Program) : Prop where
  silenced : program.sent.Pairwise fun earlier later => earlier.IsShutdown → ¬later.Drives
  unsent : program.closing = .running → ∀ frame ∈ program.sent, ¬frame.IsShutdown
  shutDown : ∀ joint ∈ shutDown program.closing, shutdownFrame joint ∈ program.sent

/-- Once `close_all` runs, the threads cannot bring the program back to its keys. -/
theorem Move.stays_closing {program next : Program} {action : ProgramAction}
    (move : Move program action next) (running : next.closing = .running) :
    program.closing = .running := by
  cases move with
  | threads | stopControl => exact running
  | proceed reply failed closing cancelled pc =>
      rcases pc with ⟨-, rfl | rfl⟩ | ⟨-, rfl | rfl⟩ | ⟨-, rfl⟩ <;> simp at running
  | shutdownReceive reply failed joint pc => cases joint <;> simp [afterShutdown] at running
  | escape | shutdownSend | lastSend => simp at running

theorem Closing.move_shutDown {program next : Program} {keys : List Key}
    (follows : program.Follows keys) (closing : program.Closing) {action : ProgramAction}
    (move : Move program action next) :
    ∀ joint ∈ Program.shutDown next.closing, shutdownFrame joint ∈ next.sent := by
  have grows : ∀ joint ∈ Program.shutDown program.closing, shutdownFrame joint ∈ next.sent := by
    intro joint mem
    have earlier := closing.shutDown joint mem
    rcases move.sent follows with same | ⟨frame, -, sends⟩
    · rwa [same]
    · rw [sends]
      exact List.mem_append_left _ earlier
  intro joint mem
  cases move with
  | threads | stopControl => exact grows joint mem
  | escape => simp [Program.shutDown] at mem
  | shutdownSend reply failed sender pc =>
      by_cases same : joint = sender
      · subst joint
        apply List.mem_append_right
        rw [shutdownFrame, ← follows.sound.addressed sender]
        exact List.mem_singleton_self _
      · apply grows
        rw [pc]
        cases sender <;> cases joint <;> simp [Program.shutDown] at mem same ⊢
  | shutdownReceive reply failed sender pc =>
      apply grows
      rw [pc]
      cases sender <;> exact mem
  | proceed reply failed later cancelled pc =>
      apply grows
      rcases pc with ⟨pc, rfl | rfl⟩ | ⟨pc, rfl | rfl⟩ | ⟨pc, rfl⟩ <;> rw [pc] <;> exact mem
  | lastSend reply failed pc =>
      apply grows
      rw [pc]
      exact mem

theorem Closing.move {program next : Program} {keys : List Key} (follows : program.Follows keys)
    (closing : program.Closing) {action : ProgramAction} (move : Move program action next) :
    next.Closing := by
  have shut := closing.move_shutDown follows move
  rcases move.sent follows with same | ⟨frame, sends, sent⟩
  · refine ⟨by rw [same]; exact closing.silenced, ?_, shut⟩
    intro running
    rw [same]
    exact closing.unsent (move.stays_closing running)
  · refine ⟨?_, ?_, shut⟩
    · rw [sent, List.pairwise_append]
      refine ⟨closing.silenced, List.pairwise_singleton _ _, ?_⟩
      intro earlier mem later last isShutdown drives
      rw [List.mem_singleton] at last
      subst later
      exact closing.unsent (sends.drives drives) earlier mem isShutdown
    · intro running other mem
      have before := move.stays_closing running
      rw [sent, List.mem_append, List.mem_singleton] at mem
      rcases mem with mem | rfl
      · exact closing.unsent before other mem
      · exact fun isShutdown => sends.isShutdown isShutdown before

end Program

end ArmSimulator
