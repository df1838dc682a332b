import Mathlib.Algebra.Group.Even
import Mathlib.Algebra.Ring.Parity
import ArmSimulator.Can.Provenance

/-!
# Late replies in the control loop

`Control_thread` reads the elbow and the shoulder motor in turn. A reply that misses its
own poll stays in the socket, and from then on each poll takes a frame that was meant for
an earlier one. The polls take the frames in delivery order, one each, so whether they
recover depends only on the parity of the backlog: with an even one the first new reply
meets a poll of its own motor, with an odd one every new reply meets the other motor.
-/

namespace ArmSimulator

def CanFrame.reply (canAddress : Word) (cmdNumber : Byte) (payload : Vector Byte 7) : CanFrame where
  canId := canAddress + 0x100
  canDlc := 8
  data := #v[cmdNumber, payload[0], payload[1], payload[2], payload[3], payload[4],
    payload[5], payload[6]]

def positionReply (joint : Joint) (payload : Vector Byte 7) : CanFrame :=
  .reply joint.address (cmdByte getPositionMsg) payload

/-! ## Histories -/

/-- The loop of `Control_thread` with the replies that have not arrived yet. -/
structure ControlLoop where
  arm : Arm
  inFlight : List Joint
  joint : Joint
  awaiting : Bool

inductive ControlEvent where
  | send
  | arrive (index : ℕ) (payload : Vector Byte 7)
  | receive

def Joint.other : Joint → Joint
  | .elbow => .shoulder
  | .shoulder => .elbow

namespace ControlLoop

def initial (position : Joint → CFloat) : ControlLoop := ⟨.initial position, [], .elbow, false⟩

def step (loop : ControlLoop) : ControlEvent → Option (ControlLoop × List Update)
  | .send =>
      if loop.awaiting then none
      else some ({ loop with
        arm := loop.arm.readPositionSend loop.joint
        inFlight := loop.inFlight ++ [loop.joint]
        awaiting := true }, [])
  | .arrive index payload =>
      match loop.inFlight[index]? with
      | none => none
      | some joint => some ({ loop with
          arm := loop.arm.deliver [positionReply joint payload]
          inFlight := loop.inFlight.eraseIdx index }, [])
  | .receive =>
      if loop.awaiting then
        let read := loop.arm.readPositionReceive loop.joint false
        some ({ loop with arm := read.1, joint := loop.joint.other, awaiting := false }, read.2)
      else none

def machine : Machine ControlLoop ControlEvent Update := ⟨step⟩

/-- The state after some history, between two rounds of the loop. -/
def ReachableBetweenRounds (loop : ControlLoop) : Prop :=
  (∃ position events updates, machine.run (initial position) events = some (loop, updates)) ∧
    loop.joint = .elbow ∧ loop.awaiting = false

def backlog (loop : ControlLoop) : List CanFrame := loop.arm.bus.sRecv.pending

end ControlLoop

/-! ## Rounds in which every reply is on time -/

namespace Arm

/-- A read whose reply arrives before its poll. -/
def timelyRead (arm : Arm) (joint : Joint) (payload : Vector Byte 7) : Arm × List Update :=
  arm.readPosition joint [positionReply joint payload] false

/-- One round of the loop, with the payloads of the two replies. -/
def timelyRound (arm : Arm) (payloads : Vector Byte 7 × Vector Byte 7) : Arm × List Update :=
  let elbow := arm.timelyRead .elbow payloads.1
  let shoulder := elbow.1.timelyRead .shoulder payloads.2
  (shoulder.1, elbow.2 ++ shoulder.2)

/-- Each motor was updated from a frame delivered after `start`. -/
def Refreshed (start : Arm) (updates : List Update) : Prop :=
  ∀ joint, ∃ update ∈ updates,
    update.joint = joint ∧ start.bus.sRecv.arrived.length ≤ update.serial

def Addressed (arm : Arm) : Prop := ∀ joint, (arm.motor joint).canAddress = joint.address

theorem addressed_initial (position : Joint → CFloat) : (initial position).Addressed :=
  fun _ => rfl

theorem Addressed.readPositionReceive {arm : Arm} (addressed : arm.Addressed) (joint : Joint)
    (readFails : Bool) : (arm.readPositionReceive joint readFails).1.Addressed := by
  intro other
  rw [readPositionReceive_canAddress]
  exact addressed other

theorem Addressed.timelyRead {arm : Arm} (addressed : arm.Addressed) (joint : Joint)
    (payload : Vector Byte 7) : (arm.timelyRead joint payload).1.Addressed := by
  have waiting : ((arm.readPositionSend joint).deliver [positionReply joint payload]).Addressed :=
    addressed
  exact waiting.readPositionReceive joint false

end Arm

theorem ControlLoop.addressed_of_reachable {loop : ControlLoop}
    (reachable : loop.ReachableBetweenRounds) : loop.arm.Addressed := by
  rcases reachable with ⟨⟨position, events, updates, ran⟩, -⟩
  refine Machine.run_preserves machine (fun loop => loop.arm.Addressed) ?_
    (Arm.addressed_initial position) ran
  intro loop middle event reported addressed taken
  cases event with
  | send =>
      simp only [machine, ControlLoop.step] at taken
      split at taken
      · contradiction
      · simp only [Option.some.injEq, Prod.mk.injEq] at taken
        rw [← taken.1]
        exact addressed
  | arrive index payload =>
      simp only [machine, ControlLoop.step] at taken
      split at taken
      · contradiction
      · simp only [Option.some.injEq, Prod.mk.injEq] at taken
        rw [← taken.1]
        exact addressed
  | receive =>
      simp only [machine, ControlLoop.step] at taken
      split at taken
      · simp only [Option.some.injEq, Prod.mk.injEq] at taken
        rw [← taken.1]
        exact addressed.readPositionReceive loop.joint false
      · contradiction

namespace Arm

theorem answers_positionReply_iff (joint sender : Joint) (payload : Vector Byte 7) :
    (positionReply sender payload).Answers joint.address (cmdByte getPositionMsg) ↔
      sender = joint := by
  cases joint <;> cases sender <;>
    simp [CanFrame.Answers, positionReply, CanFrame.reply, cmdByte, Joint.address]

/--
A timely read delivers its reply, takes the frame that is oldest after that, and uses it
exactly when it answers this motor.
-/
theorem timelyRead_cases {arm : Arm} (addressed : arm.Addressed) (joint : Joint)
    (payload : Vector Byte 7) :
    (arm.timelyRead joint payload).1.bus.sRecv.arrived =
        arm.bus.sRecv.arrived ++ [positionReply joint payload] ∧
      (arm.timelyRead joint payload).1.bus.sRecv.taken = arm.bus.sRecv.taken + 1 ∧
      ∃ frame, (arm.bus.sRecv.arrived ++ [positionReply joint payload])[arm.bus.sRecv.taken]? =
          some frame ∧
        (arm.timelyRead joint payload).2 =
          if frame.Answers joint.address (cmdByte getPositionMsg) then
            [⟨joint, arm.bus.sRecv.taken, .finite frame.reportedPosition⟩]
          else [] := by
  have bound : arm.bus.sRecv.taken <
      (arm.bus.sRecv.arrived ++ [positionReply joint payload]).length := by
    have := arm.bus.sRecv.taken_le
    simp
    omega
  have waiting := List.getElem?_eq_getElem bound
  have read := readPositionReceive_of_waiting
    ((arm.readPositionSend joint).deliver [positionReply joint payload]) waiting joint
  rw [← readPosition_eq] at read
  refine ⟨?_, read.1, _, waiting, ?_⟩
  · simp [timelyRead, readPosition_eq]
  · rw [← addressed joint]
    exact read.2

/-- The motor whose turn it is in the read with this number. -/
def turn (number : ℕ) : Joint := if Even number then .elbow else .shoulder

/-- The invariant of timely reads in turn from `start`. -/
structure InTurn (start arm : Arm) (updates : List Update) : Prop where
  addressed : arm.Addressed
  started : start.bus.sRecv.taken ≤ arm.bus.sRecv.taken
  balance : arm.bus.sRecv.arrived.length + start.bus.sRecv.taken =
    start.bus.sRecv.arrived.length + arm.bus.sRecv.taken
  /-- The frames delivered since `start` come from the motors in turn. -/
  replies : ∀ number, number + start.bus.sRecv.taken < arm.bus.sRecv.taken →
    ∃ payload, arm.bus.sRecv.arrived[start.bus.sRecv.arrived.length + number]? =
      some (positionReply (turn number) payload)
  /-- A new frame is used exactly when it meets a poll of the motor it comes from. -/
  used_iff : ∀ number, start.bus.sRecv.arrived.length + number < arm.bus.sRecv.taken →
    ((∃ update ∈ updates, update.serial = start.bus.sRecv.arrived.length + number) ↔
      turn number = turn (start.bus.sRecv.pending.length + number))
  joints : ∀ update ∈ updates, start.bus.sRecv.taken ≤ update.serial ∧
    update.serial < arm.bus.sRecv.taken ∧
    update.joint = turn (update.serial - start.bus.sRecv.taken)

theorem InTurn.start {arm : Arm} (addressed : arm.Addressed) : InTurn arm arm [] where
  addressed := addressed
  started := Nat.le_refl _
  balance := rfl
  replies number early := by omega
  used_iff number early := by
    have := arm.bus.sRecv.taken_le
    omega
  joints update mem := by simp at mem

theorem InTurn.timelyRead {start arm : Arm} {updates : List Update}
    (holds : InTurn start arm updates) (joint : Joint)
    (inTurn : joint = turn (arm.bus.sRecv.taken - start.bus.sRecv.taken))
    (payload : Vector Byte 7) :
    InTurn start (arm.timelyRead joint payload).1
      (updates ++ (arm.timelyRead joint payload).2) := by
  rcases timelyRead_cases holds.addressed joint payload with
    ⟨arrived, taken, frame, oldest, used⟩
  have started := holds.started
  have balance := holds.balance
  have backlog := start.bus.sRecv.length_pending
  have replies : ∀ number, number + start.bus.sRecv.taken < arm.bus.sRecv.taken + 1 →
      ∃ payload', (arm.bus.sRecv.arrived ++ [positionReply joint payload])[
        start.bus.sRecv.arrived.length + number]? =
          some (positionReply (turn number) payload') := by
    intro number early
    by_cases before : number + start.bus.sRecv.taken < arm.bus.sRecv.taken
    · rcases holds.replies number before with ⟨old, delivered⟩
      exact ⟨old, by rw [List.getElem?_append_left (by omega), delivered]⟩
    · refine ⟨payload, ?_⟩
      have last : start.bus.sRecv.arrived.length + number = arm.bus.sRecv.arrived.length := by
        omega
      have numberEq : arm.bus.sRecv.taken - start.bus.sRecv.taken = number := by omega
      rw [last, List.getElem?_append_right (le_refl _), inTurn, numberEq]
      simp
  have serials : ∀ update ∈ (arm.timelyRead joint payload).2,
      update.serial = arm.bus.sRecv.taken ∧ update.joint = joint := by
    intro update mem
    rw [used] at mem
    split at mem
    · simp only [List.mem_singleton] at mem
      subst update
      exact ⟨rfl, rfl⟩
    · simp at mem
  refine ⟨holds.addressed.timelyRead joint payload, ?_, ?_, ?_, ?_, ?_⟩
  · omega
  · rw [arrived, taken, List.length_append, List.length_singleton]
    omega
  · rw [arrived, taken]
    exact replies
  · intro number early
    rw [taken] at early
    by_cases before : start.bus.sRecv.arrived.length + number < arm.bus.sRecv.taken
    · rw [← holds.used_iff number before]
      constructor
      · rintro ⟨update, mem, serial⟩
        rcases List.mem_append.mp mem with old | new
        · exact ⟨update, old, serial⟩
        · have := (serials update new).1
          omega
      · rintro ⟨update, mem, serial⟩
        exact ⟨update, List.mem_append_left _ mem, serial⟩
    · -- The frame taken now is the new one with this number.
      have now : arm.bus.sRecv.taken = start.bus.sRecv.arrived.length + number := by omega
      have numberEq : arm.bus.sRecv.taken - start.bus.sRecv.taken =
          start.bus.sRecv.pending.length + number := by
        have := start.bus.sRecv.taken_le
        omega
      rcases replies number (by have := start.bus.sRecv.taken_le; omega) with ⟨new, delivered⟩
      rw [now, delivered, Option.some.injEq] at oldest
      rw [← numberEq, ← inTurn]
      constructor
      · rintro ⟨update, mem, serial⟩
        rcases List.mem_append.mp mem with old | mem
        · have := (holds.joints update old).2.1
          omega
        · rw [used, ← oldest] at mem
          split at mem
          · rename_i answers
            exact (answers_positionReply_iff joint (turn number) new).mp answers
          · simp at mem
      · intro meets
        rw [used, ← oldest, if_pos ((answers_positionReply_iff _ _ new).mpr meets)]
        exact ⟨_, List.mem_append_right _ (List.mem_singleton_self _), now⟩
  · intro update mem
    rw [taken]
    rcases List.mem_append.mp mem with old | new
    · rcases holds.joints update old with ⟨lower, upper, same⟩
      exact ⟨lower, by omega, same⟩
    · rcases serials update new with ⟨serial, same⟩
      rw [serial, same]
      exact ⟨started, by omega, inTurn⟩

theorem InTurn.timelyRound {start arm : Arm} {updates : List Update}
    (holds : InTurn start arm updates)
    (due : Even (arm.bus.sRecv.taken - start.bus.sRecv.taken))
    (payloads : Vector Byte 7 × Vector Byte 7) :
    InTurn start (arm.timelyRound payloads).1 (updates ++ (arm.timelyRound payloads).2) ∧
      (arm.timelyRound payloads).1.bus.sRecv.taken = arm.bus.sRecv.taken + 2 := by
  have elbow := holds.timelyRead .elbow (by simp [turn, due]) payloads.1
  have elbowTaken := (timelyRead_cases holds.addressed .elbow payloads.1).2.1
  have shoulderDue : ¬Even ((arm.timelyRead .elbow payloads.1).1.bus.sRecv.taken -
      start.bus.sRecv.taken) := by
    rw [elbowTaken, Nat.sub_add_comm holds.started, Nat.even_add_one]
    simpa using due
  have shoulder := elbow.timelyRead .shoulder (by simp [turn, shoulderDue]) payloads.2
  refine ⟨?_, ?_⟩
  · simpa [Arm.timelyRound] using shoulder
  · rw [Arm.timelyRound, (timelyRead_cases elbow.addressed .shoulder payloads.2).2.1, elbowTaken]

theorem inTurn_trace {start : Arm} (addressed : start.Addressed)
    (rounds : List (Vector Byte 7 × Vector Byte 7)) :
    InTurn start (Machine.trace timelyRound start rounds).1
        (Machine.trace timelyRound start rounds).2 ∧
      (Machine.trace timelyRound start rounds).1.bus.sRecv.taken =
        start.bus.sRecv.taken + 2 * rounds.length := by
  induction rounds using List.reverseRecOn with
  | nil => exact ⟨.start addressed, rfl⟩
  | append_singleton rounds payloads ih =>
      rcases ih with ⟨holds, taken⟩
      have due : Even ((Machine.trace timelyRound start rounds).1.bus.sRecv.taken -
          start.bus.sRecv.taken) := by
        rw [taken, Nat.add_sub_cancel_left]
        exact even_two_mul _
      rcases holds.timelyRound due payloads with ⟨next, nextTaken⟩
      rw [Machine.trace_append]
      refine ⟨by simpa [Machine.trace] using next, ?_⟩
      simp only [Machine.trace, nextTaken, taken, List.length_append, List.length_singleton]
      omega

theorem turn_add_eq_iff (number shift : ℕ) : turn number = turn (shift + number) ↔ Even shift := by
  by_cases shiftEven : Even shift <;> by_cases numberEven : Even number <;>
    simp [turn, Nat.even_add, shiftEven, numberEven]

/-- After an even backlog the first round of new replies meets the polls of their motors. -/
theorem refreshed_of_even_backlog {start : Arm} (addressed : start.Addressed)
    (even : Even start.bus.sRecv.pending.length)
    {rounds : List (Vector Byte 7 × Vector Byte 7)}
    (enough : start.bus.sRecv.pending.length < 2 * rounds.length) :
    start.Refreshed (Machine.trace timelyRound start rounds).2 := by
  rcases inTurn_trace addressed rounds with ⟨holds, taken⟩
  have backlog := start.bus.sRecv.length_pending
  have taken_le := start.bus.sRecv.taken_le
  have used : ∀ number, number < 2 → ∃ update ∈ (Machine.trace timelyRound start rounds).2,
      update.joint = turn number ∧ start.bus.sRecv.arrived.length ≤ update.serial := by
    intro number small
    have meets := (turn_add_eq_iff number _).mpr even
    rcases even with ⟨half, halfEq⟩
    rcases (holds.used_iff number (by omega)).mpr meets with ⟨update, mem, serial⟩
    refine ⟨update, mem, ?_, by omega⟩
    rw [(holds.joints update mem).2.2, meets, serial]
    congr 1
    omega
  intro joint
  cases joint with
  | elbow => simpa [turn] using used 0 (by omega)
  | shoulder => simpa [turn] using used 1 (by omega)

/-- After an odd backlog no new reply is ever used, in any number of rounds. -/
theorem stale_of_odd_backlog {start : Arm} (addressed : start.Addressed)
    (odd : ¬Even start.bus.sRecv.pending.length)
    (rounds : List (Vector Byte 7 × Vector Byte 7)) :
    ∀ update ∈ (Machine.trace timelyRound start rounds).2,
      update.serial < start.bus.sRecv.arrived.length := by
  intro update mem
  rcases inTurn_trace addressed rounds with ⟨holds, -⟩
  by_contra new
  have serial : update.serial = start.bus.sRecv.arrived.length +
      (update.serial - start.bus.sRecv.arrived.length) := by omega
  have early := (holds.joints update mem).2.1
  rw [serial] at early
  exact odd ((turn_add_eq_iff _ _).mp ((holds.used_iff _ early).mp ⟨update, mem, serial⟩))

theorem refreshed_iff_even_backlog {start : Arm} (addressed : start.Addressed)
    {rounds : List (Vector Byte 7 × Vector Byte 7)}
    (enough : start.bus.sRecv.pending.length < 2 * rounds.length) :
    start.Refreshed (Machine.trace timelyRound start rounds).2 ↔
      Even start.bus.sRecv.pending.length := by
  constructor
  · intro refreshed
    by_contra odd
    rcases refreshed .elbow with ⟨update, mem, -, new⟩
    have := stale_of_odd_backlog addressed odd rounds update mem
    omega
  · intro even
    exact refreshed_of_even_backlog addressed even enough

theorem provenance_rounds (start : Arm) (rounds : List (Vector Byte 7 × Vector Byte 7)) :
    Provenance start (Machine.trace timelyRound start rounds).1
      (Machine.trace timelyRound start rounds).2 := by
  have kept := Machine.trace_invariant timelyRound (Provenance start) ?_
    (Provenance.start start) rounds
  · simpa using kept
  · intro arm payloads past holds
    have elbow := holds.call (.readPosition .elbow [positionReply .elbow payloads.1] false)
    have shoulder :=
      elbow.call (.readPosition .shoulder [positionReply .shoulder payloads.2] false)
    rwa [List.append_assoc] at shoulder

/-- What refreshes a motor is in its cached position, unless something newer is. -/
theorem Refreshed.position {start : Arm} {rounds : List (Vector Byte 7 × Vector Byte 7)}
    (refreshed : start.Refreshed (Machine.trace timelyRound start rounds).2) (joint : Joint) :
    ∃ update ∈ (Machine.trace timelyRound start rounds).2,
      update.joint = joint ∧ start.bus.sRecv.arrived.length ≤ update.serial ∧
        ((Machine.trace timelyRound start rounds).1.motor joint).position = update.value := by
  rcases refreshed joint with ⟨update, mem, rfl, new⟩
  rcases (provenance_rounds start rounds).cached_of_mem mem with
    ⟨last, lastMem, same, newer, cached⟩
  exact ⟨last, lastMem, same, new.trans newer, cached⟩

end Arm

namespace ControlLoop

/--
After any history of the control loop, any rounds in which every reply is on time refresh
both cached positions within one round more than the length of the backlog exactly when
that length is even.
-/
theorem timelyRounds_refresh_iff {loop : ControlLoop} (reachable : loop.ReachableBetweenRounds)
    {rounds : List (Vector Byte 7 × Vector Byte 7)}
    (enough : loop.backlog.length + 1 ≤ rounds.length) :
    loop.arm.Refreshed (Machine.trace Arm.timelyRound loop.arm
        (rounds.take (loop.backlog.length + 1))).2 ↔
      Even loop.backlog.length := by
  apply Arm.refreshed_iff_even_backlog (addressed_of_reachable reachable)
  rw [List.length_take, Nat.min_eq_left enough]
  simp only [backlog]
  omega

/-- The elbow's first reply misses its poll; the shoulder's reply is on time. -/
def lateElbowReply : List ControlEvent :=
  [.send, .receive, .arrive 0 (Vector.replicate 7 0), .send, .arrive 0 (Vector.replicate 7 0),
    .receive]

theorem lateElbowReply_backlog : ∃ loop : ControlLoop,
    machine.run (initial fun _ => .nan) lateElbowReply = some (loop, []) ∧
      loop.ReachableBetweenRounds ∧ loop.backlog.length = 1 := by
  refine ⟨_, rfl, ⟨⟨_, lateElbowReply, [], rfl⟩, rfl, rfl⟩, rfl⟩

theorem timelyRounds_refresh_iff_afterLateElbowReply : ∃ loop : ControlLoop,
    loop.backlog.length = 1 ∧
      (loop.arm.Refreshed (Machine.trace Arm.timelyRound loop.arm
          ((List.replicate 2 (Vector.replicate 7 0, Vector.replicate 7 0)).take
            (loop.backlog.length + 1))).2 ↔
        Even loop.backlog.length) := by
  rcases lateElbowReply_backlog with ⟨loop, -, reachable, one⟩
  exact ⟨loop, one, timelyRounds_refresh_iff reachable (by simp [one])⟩

theorem lateElbowReply_freezes : ∃ loop : ControlLoop,
    machine.run (initial fun _ => .nan) lateElbowReply = some (loop, []) ∧
      loop.ReachableBetweenRounds ∧ loop.backlog.length = 1 ∧
      ∀ rounds : List (Vector Byte 7 × Vector Byte 7), loop.backlog.length + 1 ≤ rounds.length →
        ¬loop.arm.Refreshed (Machine.trace Arm.timelyRound loop.arm
          (rounds.take (loop.backlog.length + 1))).2 := by
  rcases lateElbowReply_backlog with ⟨loop, ran, reachable, one⟩
  refine ⟨loop, ran, reachable, one, ?_⟩
  intro rounds _ refreshed
  rcases refreshed .elbow with ⟨update, mem, -, new⟩
  have odd : ¬Even loop.arm.bus.sRecv.pending.length := by
    rw [show loop.arm.bus.sRecv.pending.length = 1 from one]
    decide
  have old := Arm.stale_of_odd_backlog (addressed_of_reachable reachable) odd _ update mem
  omega

end ControlLoop

end ArmSimulator
