import ArmSimulator.Threads.Moves

/-!
# Whose reply a poll takes

A transaction is a send with the poll that follows it in the same thread. The elbow's
transactions and those of the handlers run under the mutex and never overlap. The
shoulder's run outside it: when one overlaps a handler's transaction, the polls take the
right replies exactly when they come in the order of the sends. The invariant of the
runs in which this is so connects the program counters, the mutex and the reply ledger.
-/

namespace ArmSimulator

/-- The poll took the reply to the frame its thread sent last, and did not discard it. -/
def Reception.Own (reception : Reception) : Prop :=
  reception.awaited.isSome ∧ reception.taken = reception.awaited ∧ reception.accepted = true

/-- The motor and the command byte of the reply that `Control_thread` polls for. -/
def ControlPc.expects : ControlPc → Option (Joint × Byte)
  | .elbowReceive => some (.elbow, cmdByte getPositionMsg)
  | .shoulderReceive => some (.shoulder, cmdByte getPositionMsg)
  | _ => none

@[simp]
theorem ControlPc.expects_send (joint : Joint) : (ControlPc.send joint).expects = none := by
  cases joint <;> rfl

@[simp]
theorem ControlPc.expects_receive (joint : Joint) :
    (ControlPc.receive joint).expects = some (joint, cmdByte getPositionMsg) := by
  cases joint <;> rfl

@[simp]
theorem ControlPc.expects_afterRead (joint : Joint) :
    (ControlPc.afterRead joint).expects = none := by
  cases joint <;> rfl

def KeyboardPc.expects : KeyboardPc → Option (Joint × Byte)
  | .receive .b joint => some (joint, cmdByte setPositionMsg)
  | .receive .z joint => some (joint, cmdByte setZeroPosMsg)
  | _ => none

def expectations (control : ControlPc) (keyboard : KeyboardPc) : Thread → Option (Joint × Byte)
  | .control => control.expects
  | .keyboard => keyboard.expects

theorem expectations_control {control next : ControlPc} {keyboard : KeyboardPc}
    {expected : Option (Joint × Byte)} (nextExpects : next.expects = expected) :
    Function.update (expectations control keyboard) .control expected =
      expectations next keyboard := by
  funext thread
  cases thread <;> simp [expectations, nextExpects, Function.update]

theorem expectations_keyboard {control : ControlPc} {keyboard next : KeyboardPc}
    {expected : Option (Joint × Byte)} (nextExpects : next.expects = expected) :
    Function.update (expectations control keyboard) .keyboard expected =
      expectations control next := by
  funext thread
  cases thread <;> simp [expectations, nextExpects, Function.update]

/-- The open transactions, their replies and the receive socket fit together. -/
structure Transactions (expects : Thread → Option (Joint × Byte)) (arm : Arm)
    (awaited : Thread → Option ℕ) : Prop where
  addressed : arm.Addressed
  ledger : Ledger arm.bus.sRecv awaited
  replies : ∀ {thread joint cmdNumber}, expects thread = some (joint, cmdNumber) →
    ∃ serial payload, awaited thread = some serial ∧
      arm.bus.sRecv.arrived[serial]? = some (.reply joint.address cmdNumber payload)
  silent : ∀ thread, expects thread = none → awaited thread = none

/-- `after` is the arm after a poll for a reply of this motor to this command. -/
structure Arm.Polled (before after : Arm) (joint : Joint) (cmdNumber : Byte) : Prop where
  addressed : after.Addressed
  sRecv : after.bus.sRecv =
    (canBusReceive joint.address cmdNumber false before.bus).sRecv
  canReply : after.bus.canReply =
    (canBusReceive joint.address cmdNumber false before.bus).canReply

theorem answers_reply (canAddress : Word) (cmdNumber : Byte) (payload : Vector Byte 7) :
    (CanFrame.reply canAddress cmdNumber payload).Answers canAddress cmdNumber := by
  exact ⟨rfl, rfl⟩

namespace Transactions

variable {expects : Thread → Option (Joint × Byte)} {arm : Arm} {awaited : Thread → Option ℕ}

theorem send (holds : Transactions expects arm awaited) (thread : Thread)
    (idle : expects thread = none) (bus : CanBus) (sRecv : bus.sRecv = arm.bus.sRecv)
    (joint : Joint) (canId : bus.frameSend.canId = joint.address) (reply : Vector Byte 7) :
    Transactions (Function.update expects thread (some (joint, cmdByte bus.frameSend.data)))
      { arm with bus := bus.answer reply }
      (Function.update awaited thread (some bus.sRecv.arrived.length)) where
  addressed := holds.addressed
  ledger := by
    have := holds.ledger.send (holds.silent thread idle)
      (.reply bus.frameSend.canId (cmdByte bus.frameSend.data) reply)
    rw [← sRecv] at this
    exact this
  replies := by
    intro other expected cmdNumber opened
    by_cases same : other = thread
    · subst other
      simp only [Function.update_self, Option.some.injEq, Prod.mk.injEq] at opened
      rcases opened with ⟨rfl, rfl⟩
      refine ⟨bus.sRecv.arrived.length, reply, by simp, ?_⟩
      simp [CanBus.answer, canId]
    · rw [Function.update_of_ne same] at opened
      rcases holds.replies opened with ⟨serial, payload, waits, delivered⟩
      refine ⟨serial, payload, by rw [Function.update_of_ne same, waits], ?_⟩
      rcases List.getElem?_eq_some_iff.mp delivered with ⟨bound, -⟩
      simp only [CanBus.answer, CanBus.deliver_sRecv, Fifo.pushAll_arrived, sRecv]
      rwa [List.getElem?_append_left bound]
  silent := by
    intro other closed
    by_cases same : other = thread
    · subst other
      simp at closed
    · rw [Function.update_of_ne same] at closed
      rw [Function.update_of_ne same, holds.silent other closed]

/-- A poll takes a frame, the oldest one, since the thread's own reply is queued. -/
theorem poll (holds : Transactions expects arm awaited) (thread : Thread) {joint : Joint}
    {cmdNumber : Byte} (opened : expects thread = some (joint, cmdNumber)) {after : Arm}
    (polled : arm.Polled after joint cmdNumber) :
    after.bus.sRecv.arrived = arm.bus.sRecv.arrived ∧
      after.bus.sRecv.taken = arm.bus.sRecv.taken + 1 ∧
      ∀ {frame}, arm.bus.sRecv.arrived[arm.bus.sRecv.taken]? = some frame →
        (after.bus.canReply ↔ frame.Answers joint.address cmdNumber) := by
  rcases holds.replies opened with ⟨serial, payload, waits, delivered⟩
  have waiting := (holds.ledger.waiting_iff serial).mpr ⟨thread, waits⟩
  have bound : arm.bus.sRecv.taken < arm.bus.sRecv.arrived.length := by omega
  have popped : arm.bus.sRecv.pop = some (arm.bus.sRecv.arrived[arm.bus.sRecv.taken],
      ⟨arm.bus.sRecv.arrived, arm.bus.sRecv.taken + 1, bound⟩) :=
    Fifo.pop_eq_some_iff.mpr ⟨List.getElem?_eq_getElem bound, rfl, rfl⟩
  rcases canBusReceive_of_pop joint.address cmdNumber popped with
    ⟨rest, replied⟩
  refine ⟨by rw [polled.sRecv, rest], by rw [polled.sRecv, rest], ?_⟩
  intro frame oldest
  rw [List.getElem?_eq_getElem bound, Option.some.injEq] at oldest
  rw [polled.canReply, replied, oldest]

theorem receive (holds : Transactions expects arm awaited) (thread : Thread) {joint : Joint}
    {cmdNumber : Byte} (opened : expects thread = some (joint, cmdNumber)) {after : Arm}
    (polled : arm.Polled after joint cmdNumber)
    (first : ∀ other, ¬Ledger.Overtakes awaited thread other) :
    Transactions (Function.update expects thread none) after
      (Function.update awaited thread none) := by
  rcases holds.poll thread opened polled with ⟨arrived, taken, -⟩
  rcases holds.replies opened with ⟨own, payload, waits, -⟩
  have oldest := (holds.ledger.own_iff_not_overtaken waits).mpr first
  subst own
  refine ⟨polled.addressed, holds.ledger.receive waits arrived taken, ?_, ?_⟩
  · intro other expected command otherOpened
    by_cases same : other = thread
    · subst other
      simp at otherOpened
    · rw [Function.update_of_ne same] at otherOpened
      rw [arrived, Function.update_of_ne same]
      exact holds.replies otherOpened
  · intro other closed
    by_cases same : other = thread
    · subst other
      simp
    · rw [Function.update_of_ne same] at closed
      rw [Function.update_of_ne same, holds.silent other closed]

end Transactions

namespace Threads

/-- A thread's poll takes its own reply exactly when no other thread overtakes it. -/
theorem reception_own_iff {threads : Threads} {expects : Thread → Option (Joint × Byte)}
    (holds : Transactions expects threads.arm threads.awaited) (thread : Thread) {joint : Joint}
    {cmdNumber : Byte} (opened : expects thread = some (joint, cmdNumber)) {after : Arm}
    (polled : threads.arm.Polled after joint cmdNumber) :
    (threads.reception thread after).Own ↔
      ∀ other, ¬Ledger.Overtakes threads.awaited thread other := by
  rcases holds.poll thread opened polled with ⟨-, taken, replied⟩
  rcases holds.replies opened with ⟨own, payload, waits, delivered⟩
  rw [← holds.ledger.own_iff_not_overtaken waits]
  constructor
  · rintro ⟨-, same, -⟩
    simpa [reception, taken, waits] using same
  · intro oldest
    rw [← oldest] at delivered
    have accepted := (replied delivered).mpr (answers_reply _ _ payload)
    simp [Reception.Own, reception, taken, waits, oldest, accepted]

theorem not_overtakes_self (awaited : Thread → Option ℕ) (thread : Thread) :
    ¬Ledger.Overtakes awaited thread thread := by
  rintro ⟨own, earlier, waits, waits', less⟩
  rw [waits, Option.some.injEq] at waits'
  omega

theorem not_overtakes_of_silent {awaited : Thread → Option ℕ} {thread other : Thread}
    (silent : awaited thread = none ∨ awaited other = none) :
    ¬Ledger.Overtakes awaited thread other := by
  rintro ⟨own, earlier, waits, otherWaits, -⟩
  rcases silent with silent | silent
  · simp [silent] at waits
  · simp [silent] at otherWaits

/-- The invariant of runs in which the polls come in the order of the sends. -/
structure Inv (threads : Threads) : Prop where
  locked : threads.Locked
  transactions :
    Transactions (expectations threads.control threads.keyboard) threads.arm threads.awaited

theorem inv_initial (position : Joint → CFloat) : (initial position).Inv where
  locked := locked_initial position
  transactions := by
    refine ⟨Arm.addressed_initial position, Ledger.start, ?_, fun _ _ => rfl⟩
    intro thread joint cmdNumber opened
    cases thread <;> simp [initial, expectations, ControlPc.expects, KeyboardPc.expects] at opened

/--
While the control thread is about to poll for the shoulder, neither thread polls ahead of a
transaction that the other one opened earlier and has not closed.
-/
def InOrder (threads : Threads) : ThreadsAction → Prop
  | .control _ => threads.control = .shoulderReceive →
      ¬Ledger.Overtakes threads.awaited .control .keyboard
  | .keyboard _ => threads.control = .shoulderReceive →
      ¬Ledger.Overtakes threads.awaited .keyboard .control
  | _ => True

theorem keyboard_expects_of_not_holds {keyboard : KeyboardPc} (free : ¬keyboard.HoldsMutex) :
    keyboard.expects = none := by
  cases keyboard <;> simp_all [KeyboardPc.HoldsMutex, KeyboardPc.expects]

theorem control_expects_of_not_holds {control : ControlPc} (free : ¬control.HoldsMutex)
    (other : control ≠ .shoulderReceive) : control.expects = none := by
  cases control <;> simp_all [ControlPc.HoldsMutex, ControlPc.expects]

/-- The control thread is overtaken only in the shoulder's transaction. -/
theorem Inv.control_not_overtaken_iff {threads : Threads} (inv : threads.Inv) :
    (∀ other, ¬Ledger.Overtakes threads.awaited .control other) ↔
      (threads.control = .shoulderReceive →
        ¬Ledger.Overtakes threads.awaited .control .keyboard) := by
  constructor
  · intro first _
    exact first .keyboard
  · intro inOrder other
    cases other with
    | control => exact not_overtakes_self _ _
    | keyboard =>
        by_cases shoulder : threads.control = .shoulderReceive
        · exact inOrder shoulder
        · apply not_overtakes_of_silent
          by_cases holds : threads.control.HoldsMutex
          · have free : ¬threads.keyboard.HoldsMutex := fun keyboard =>
              inv.locked.exclusive ⟨holds, keyboard⟩
            exact Or.inr (inv.transactions.silent .keyboard
              (keyboard_expects_of_not_holds free))
          · exact Or.inl (inv.transactions.silent .control
              (control_expects_of_not_holds holds shoulder))

/-- A handler is overtaken only by the shoulder's transaction. -/
theorem Inv.keyboard_not_overtaken_iff {threads : Threads} (inv : threads.Inv) :
    (∀ other, ¬Ledger.Overtakes threads.awaited .keyboard other) ↔
      (threads.control = .shoulderReceive →
        ¬Ledger.Overtakes threads.awaited .keyboard .control) := by
  constructor
  · intro first _
    exact first .control
  · intro inOrder other
    cases other with
    | keyboard => exact not_overtakes_self _ _
    | control =>
        by_cases shoulder : threads.control = .shoulderReceive
        · exact inOrder shoulder
        · apply not_overtakes_of_silent
          by_cases holds : threads.keyboard.HoldsMutex
          · have free : ¬threads.control.HoldsMutex := fun control =>
              inv.locked.exclusive ⟨control, holds⟩
            exact Or.inr (inv.transactions.silent .control
              (control_expects_of_not_holds free shoulder))
          · exact Or.inl (inv.transactions.silent .keyboard
              (keyboard_expects_of_not_holds holds))

theorem polled_readPosition {arm : Arm} (addressed : arm.Addressed) (joint : Joint) :
    arm.Polled (arm.readPositionReceive joint false).1 joint (cmdByte getPositionMsg) := by
  refine ⟨addressed.readPositionReceive joint false, ?_, ?_⟩
  · rw [Arm.readPositionReceive_bus_sRecv, addressed joint]
  · rw [Arm.readPositionReceive_bus_canReply, addressed joint]

def commandByte : Handler → Byte
  | .b => cmdByte setPositionMsg
  | .z => cmdByte setZeroPosMsg

theorem expects_receive (handler : Handler) (joint : Joint) :
    (KeyboardPc.receive handler joint).expects = some (joint, commandByte handler) := by
  cases handler <;> rfl

theorem polled_receiveCommand {threads : Threads} (addressed : threads.arm.Addressed)
    (joint : Joint) (handler : Handler) :
    threads.arm.Polled (threads.receiveCommand joint handler) joint (commandByte handler) := by
  have address := addressed joint
  cases handler with
  | b => exact ⟨addressed, by simp [receiveCommand, Motor.setPositionReceive, commandByte, address],
      by simp [receiveCommand, Motor.setPositionReceive, commandByte, address]⟩
  | z => exact ⟨addressed, by simp [receiveCommand, Motor.setZeroCmdReceive, commandByte, address],
      by simp [receiveCommand, Motor.setZeroCmdReceive, commandByte, address]⟩

/-- A handler's frame goes to the motor's address and carries the command byte. -/
theorem sendCommand_frame {threads : Threads} (addressed : threads.arm.Addressed)
    {joint : Joint} {handler : Handler} {bus : CanBus}
    (sent : threads.sendCommand joint handler = some bus) :
    bus.sRecv = threads.arm.bus.sRecv ∧ bus.frameSend.canId = joint.address ∧
      cmdByte bus.frameSend.data = commandByte handler := by
  have address := addressed joint
  cases handler with
  | b =>
      simp only [sendCommand] at sent
      split at sent
      · simp only [Option.some.injEq] at sent
        subst bus
        exact ⟨rfl, address, rfl⟩
      · contradiction
  | z =>
      simp only [sendCommand, Option.some.injEq] at sent
      subst bus
      exact ⟨rfl, address, rfl⟩

theorem Inv.transactions_of_expects {threads : Threads} (inv : threads.Inv)
    {control : ControlPc} {keyboard : KeyboardPc}
    (controlSame : threads.control.expects = control.expects)
    (keyboardSame : threads.keyboard.expects = keyboard.expects) :
    Transactions (expectations control keyboard) threads.arm threads.awaited := by
  have same : expectations threads.control threads.keyboard = expectations control keyboard := by
    funext thread
    cases thread <;> assumption
  exact same ▸ inv.transactions

theorem nextCommand_expects (handler : Handler) (joint : Joint) :
    (nextCommand handler joint).expects = none := by
  cases joint <;> rfl

theorem Inv.move {threads next : Threads} (inv : threads.Inv) {action : ThreadsAction}
    (move : Move threads action next) (inOrder : threads.InOrder action) : next.Inv := by
  refine ⟨inv.locked.move move, ?_⟩
  cases move with
  | controlLock reply pc free => exact inv.transactions_of_expects (by rw [pc]; rfl) rfl
  | controlSend reply joint pc =>
      have idle : threads.control.expects = none := by simp [pc]
      have opened := inv.transactions.send .control idle (threads.arm.readPositionSend joint).bus
        rfl joint (inv.transactions.addressed joint) reply
      have command : cmdByte (threads.arm.readPositionSend joint).bus.frameSend.data =
          cmdByte getPositionMsg := rfl
      rwa [command, expectations_control (ControlPc.expects_receive joint)] at opened
  | controlReceive reply joint pc =>
      have expected : threads.control.expects = some (joint, cmdByte getPositionMsg) := by
        simp [pc]
      have closed := inv.transactions.receive .control expected
        (polled_readPosition inv.transactions.addressed joint)
        (inv.control_not_overtaken_iff.mpr inOrder)
      rwa [expectations_control (ControlPc.expects_afterRead joint)] at closed
  | controlUnlock reply pc => exact inv.transactions_of_expects (by rw [pc]; rfl) rfl
  | controlWake reply pc handler waits =>
      exact inv.transactions_of_expects (by rw [pc]; rfl) (by rw [waits]; rfl)
  | controlSignal reply pc nobody => exact inv.transactions_of_expects (by rw [pc]; rfl) rfl
  | keyboardLock reply handler pc free =>
      exact inv.transactions_of_expects rfl (by rw [pc]; rfl)
  | keyboardWait reply handler pc => exact inv.transactions_of_expects rfl (by rw [pc]; rfl)
  | keyboardRelock reply handler pc free =>
      exact inv.transactions_of_expects rfl (by rw [pc]; rfl)
  | keyboardSend reply handler joint pc bus sent =>
      rcases sendCommand_frame inv.transactions.addressed sent with ⟨sRecv, canId, command⟩
      have idle : threads.keyboard.expects = none := by rw [pc]; rfl
      have opened := inv.transactions.send .keyboard idle bus sRecv joint canId reply
      rwa [command, expectations_keyboard (expects_receive handler joint)] at opened
  | keyboardSkip reply handler joint pc unsent =>
      exact inv.transactions_of_expects rfl (by rw [pc, nextCommand_expects]; rfl)
  | keyboardReceive reply handler joint pc =>
      have expected : threads.keyboard.expects = some (joint, commandByte handler) := by
        rw [pc, expects_receive]
      have closed := inv.transactions.receive .keyboard expected
        (polled_receiveCommand inv.transactions.addressed joint handler)
        (inv.keyboard_not_overtaken_iff.mpr inOrder)
      rwa [expectations_keyboard (nextCommand_expects handler joint)] at closed
  | keyboardUnlock reply pc => exact inv.transactions_of_expects rfl (by rw [pc]; rfl)
  | press handler pc =>
      cases handler <;> exact inv.transactions_of_expects rfl (by rw [pc]; rfl)
  | spuriousWakeup handler waits => exact inv.transactions_of_expects rfl (by rw [waits]; rfl)

/-! ## What a step reports -/

/-- A thread that expects a reply reports the poll for it; one that does not reports nothing. -/
def Reports (threads : Threads) (thread : Thread) (events : List Reception) : Prop :=
  match expectations threads.control threads.keyboard thread with
  | none => events = []
  | some (joint, cmdNumber) => ∃ after, threads.arm.Polled after joint cmdNumber ∧
      events = [threads.reception thread after]

theorem stepControl_reports {threads next : Threads} (addressed : threads.arm.Addressed)
    {reply : Vector Byte 7} {events : List Reception}
    (taken : threads.stepControl reply = some (next, events)) :
    threads.Reports .control events := by
  cases pc : threads.control with
  | elbowReceive | shoulderReceive =>
      simp only [stepControl, pc, Option.some.injEq, Prod.mk.injEq] at taken
      simp only [Reports, expectations, pc, ControlPc.expects]
      exact ⟨_, polled_readPosition addressed _, taken.2.symm⟩
  | lock | signal =>
      simp only [stepControl, pc] at taken
      split at taken <;> simp_all [Reports, expectations, ControlPc.expects]
  | elbowSend | unlock | shoulderSend =>
      simp only [stepControl, pc, Option.some.injEq, Prod.mk.injEq] at taken
      simpa [Reports, expectations, pc, ControlPc.expects] using taken.2.symm

theorem stepKeyboard_reports {threads next : Threads} (addressed : threads.arm.Addressed)
    {reply : Vector Byte 7} {events : List Reception}
    (taken : threads.stepKeyboard reply = some (next, events)) :
    threads.Reports .keyboard events := by
  cases pc : threads.keyboard with
  | receive handler joint =>
      simp only [stepKeyboard, pc, Option.some.injEq, Prod.mk.injEq] at taken
      simp only [Reports, expectations, pc, expects_receive]
      exact ⟨_, polled_receiveCommand addressed joint handler, taken.2.symm⟩
  | lock handler | relock handler | send handler joint =>
      simp only [stepKeyboard, pc] at taken
      split at taken <;> simp_all [Reports, expectations, KeyboardPc.expects]
  | wait handler | unlock =>
      simp only [stepKeyboard, pc, Option.some.injEq, Prod.mk.injEq] at taken
      simpa [Reports, expectations, pc, KeyboardPc.expects] using taken.2.symm
  | idle | waiting handler => simp [stepKeyboard, pc] at taken

theorem Inv.own_iff_of_reports {threads : Threads} (inv : threads.Inv) {thread : Thread}
    {events : List Reception} (reports : threads.Reports thread events) :
    (∀ event ∈ events, event.Own) ↔
      ∀ other, ¬Ledger.Overtakes threads.awaited thread other := by
  cases expected : expectations threads.control threads.keyboard thread with
  | none =>
      simp only [Reports, expected] at reports
      have first : ∀ other, ¬Ledger.Overtakes threads.awaited thread other := fun other =>
        not_overtakes_of_silent (Or.inl (inv.transactions.silent thread expected))
      simp [reports, first]
  | some expectation =>
      rcases expectation with ⟨joint, cmdNumber⟩
      simp only [Reports, expected] at reports
      rcases reports with ⟨after, polled, rfl⟩
      simpa using reception_own_iff inv.transactions thread expected polled

theorem Inv.own_iff_inOrder {threads next : Threads} (inv : threads.Inv)
    {action : ThreadsAction} {events : List Reception}
    (taken : threads.step action = some (next, events)) :
    (∀ event ∈ events, event.Own) ↔ threads.InOrder action := by
  cases action with
  | control reply =>
      rw [InOrder, ← inv.control_not_overtaken_iff]
      exact inv.own_iff_of_reports (stepControl_reports inv.transactions.addressed taken)
  | keyboard reply =>
      rw [InOrder, ← inv.keyboard_not_overtaken_iff]
      exact inv.own_iff_of_reports (stepKeyboard_reports inv.transactions.addressed taken)
  | press handler | spuriousWakeup =>
      simp only [Threads.step] at taken
      split at taken <;> simp_all [InOrder]

/--
In every run of the two threads from the start, every poll takes the reply to the frame its
own thread sent just before, and passes it on, exactly when the shoulder's transactions and
the handlers' are polled in the order of their sends wherever they overlap.
-/
theorem receptions_own_iff_inOrder (position : Joint → CFloat) {actions : List ThreadsAction}
    {final : Threads} {events : List Reception}
    (ran : machine.run (initial position) actions = some (final, events)) :
    (∀ event ∈ events, event.Own) ↔
      ∀ visit ∈ machine.visited (initial position) actions, visit.1.InOrder visit.2 :=
  Machine.run_good_iff_guarded machine Inv InOrder Reception.Own
    (fun inv inOrder taken => inv.move (step_move taken) inOrder)
    (fun inv taken => inv.own_iff_inOrder taken) (inv_initial position) ran

/-- A handler's command that overlaps the shoulder's read and is polled first. -/
def keyDuringShoulderRead : List ThreadsAction :=
  let reply := Vector.replicate 7 0
  [.press .z, .keyboard reply, .keyboard reply,
    .control reply, .control reply, .control reply, .control reply, .control reply,
    .control reply, .keyboard reply, .keyboard reply, .keyboard reply, .control reply]

theorem keyDuringShoulderRead_run : ∃ final,
    machine.run (initial fun _ => .nan) keyDuringShoulderRead = some (final,
      [⟨.control, some 0, some 0, true⟩, ⟨.keyboard, some 2, some 1, false⟩,
        ⟨.control, some 1, some 2, false⟩]) :=
  ⟨_, rfl⟩

theorem receptions_own_iff_inOrder_keyDuringShoulderRead : ∃ final events,
    machine.run (initial fun _ => .nan) keyDuringShoulderRead = some (final, events) ∧
      ((∀ event ∈ events, event.Own) ↔
        ∀ visit ∈ machine.visited (initial fun _ => .nan) keyDuringShoulderRead,
          visit.1.InOrder visit.2) := by
  rcases keyDuringShoulderRead_run with ⟨final, ran⟩
  exact ⟨final, _, ran, receptions_own_iff_inOrder _ ran⟩

theorem keyDuringShoulderRead_steals : ∃ final events,
    machine.run (initial fun _ => .nan) keyDuringShoulderRead = some (final, events) ∧
      ¬∀ event ∈ events, event.Own := by
  rcases keyDuringShoulderRead_run with ⟨final, ran⟩
  refine ⟨final, _, ran, ?_⟩
  intro own
  have stolen := own ⟨.keyboard, some 2, some 1, false⟩ (by simp)
  simp [Reception.Own] at stolen

end Threads

end ArmSimulator
