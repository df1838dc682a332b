import ArmSimulator.X8.Replies

/-!
# Targets on the bus

The motor counts hundredths of a degree before its gear of six, so a target is multiplied by
600. The senders with a 32-bit target are defined exactly where the product fits, and then
the motor gets the exact number; a reply with the same number is read as the target again.
The senders with a 16-bit target and the speed limit keep what is left modulo `2 ^ 16`.
-/

namespace ArmSimulator.X8

namespace Call

/-- The target of a command that sends it in 32 bits. -/
def target? : Call → Option Word
  | speedCloseLoop target | positionCtrl1 target | positionCtrl2 _ target => some target
  | _ => none

/-- The target of a command that sends it in 16 bits. -/
def shortTarget? : Call → Option (BitVec 16)
  | positionCtrl3 target _ | positionCtrl4 target _ _ => some target
  | _ => none

def speedLimit? : Call → Option (BitVec 16)
  | positionCtrl2 speedLimited _ | positionCtrl4 _ speedLimited _ => some speedLimited
  | _ => none

end Call

/-! ## 32-bit targets -/

/-- A command runs exactly when its products are defined, and they make it 600 times as large. -/
theorem isSome_step (driver : Driver) {call : Call} {target : Word}
    (commands : call.target? = some target) : ∃ scaled? : Option Word,
      (∀ scaled, scaled? = some scaled ↔ scaled.toInt = target.toInt * 600) ∧
        (machine.step driver call).isSome = scaled?.isSome := by
  cases call with
  | speedCloseLoop speed =>
      cases commands
      refine ⟨_, fun scaled => scaled_speed, ?_⟩
      simp only [machine, Driver.step, Driver.sendSpeedCloseLoopCmd, Option.bind_eq_bind]
      rcases mulInt? target 360 with _ | degrees
      · rfl
      · simp only [Option.bind_some]
        cases mulInt? (degrees.sdiv 60) 100 <;> rfl
  | positionCtrl1 posCtrl =>
      cases commands
      refine ⟨_, fun scaled => scaled_position, ?_⟩
      simp only [machine, Driver.step, Driver.sendPositionCtrl1Cmd, Option.bind_eq_bind]
      rcases mulInt? target 100 with _ | hundredths
      · rfl
      · simp only [Option.bind_some]
        cases mulInt? hundredths 6 <;> rfl
  | positionCtrl2 speedLimited posCtrl =>
      cases commands
      refine ⟨_, fun scaled => scaled_position, ?_⟩
      simp only [machine, Driver.step, Driver.sendPositionCtrl2Cmd, Option.bind_eq_bind]
      rcases mulInt? target 100 with _ | hundredths
      · rfl
      · simp only [Option.bind_some]
        cases mulInt? hundredths 6 <;> rfl
  | _ => cases commands

theorem exact_iff_range (target : Word) :
    (∃ scaled : Word, scaled.toInt = target.toInt * 600) ↔
      -2 ^ 31 ≤ 600 * target.toInt ∧ 600 * target.toInt < 2 ^ 31 := by
  constructor
  · rintro ⟨scaled, exact⟩
    have lower := scaled.le_toInt
    have upper := scaled.toInt_lt
    omega
  · intro range
    refine ⟨BitVec.ofInt 32 (target.toInt * 600), ?_⟩
    rw [BitVec.toInt_ofInt, Int.bmod_eq_of_le (by omega) (by omega)]

theorem isSome_step_iff (driver : Driver) {call : Call} {target : Word}
    (commands : call.target? = some target) : (machine.step driver call).isSome ↔
      -2 ^ 31 ≤ 600 * target.toInt ∧ 600 * target.toInt < 2 ^ 31 := by
  rcases isSome_step driver commands with ⟨scaled?, exact, same⟩
  rw [same, Option.isSome_iff_exists, ← exact_iff_range]
  exact exists_congr exact

/-- The last four bytes of a command that ran are those of the exact product. -/
theorem signed_payload {driver next : Driver} {calls : List Call} {before frames : List Frame}
    (follows : driver.Follows calls before) {call : Call} {target : Word}
    (commands : call.target? = some target)
    (step : machine.step driver call = some (next, frames)) :
    frames = [⟨0x141, next.canTxData⟩] ∧
      LittleEndian.signed (next.canTxData.toList.drop 4) = 600 * target.toInt := by
  rcases step_result follows.reserved_eq follows.buffer_eq step with ⟨-, buffer, framesEq⟩
  have range := (isSome_step_iff driver commands).mp (by rw [step]; rfl)
  have exact : (target * 600).toInt = 600 * target.toInt := by
    rcases (exact_iff_range target).mpr range with ⟨scaled, scaledEq⟩
    rw [← eq_mul_of_toInt scaledEq, scaledEq, Int.mul_comm]
  have sends : call.Sends := by
    rintro rfl
    cases commands
  have lastFour : next.canTxData.toList.drop 4 = LittleEndian.bytes 4 (target * 600).toNat := by
    rw [buffer]
    cases call <;> cases commands <;> rfl
  refine ⟨by rw [framesEq, if_pos sends], ?_⟩
  rw [lastFour, ← exact]
  exact LittleEndian.signed_bytes 4 (target * 600)

/--
Wherever a program calls the speed or one of the first two position senders, the call is
defined exactly when 600 times its target fits in an `int32_t`, and then that number is what
the last four bytes of the one frame say.
-/
theorem targets_on_wire {calls : List Call} {driver : Driver} {before : List Frame}
    (ran : machine.run .initial calls = some (driver, before)) {call : Call} {target : Word}
    (commands : call.target? = some target) :
    ((machine.step driver call).isSome ↔
        -2 ^ 31 ≤ 600 * target.toInt ∧ 600 * target.toInt < 2 ^ 31) ∧
      ∀ next frames, machine.step driver call = some (next, frames) →
        ∃ buffer, frames = [⟨0x141, buffer⟩] ∧
          LittleEndian.signed (buffer.toList.drop 4) = 600 * target.toInt := by
  refine ⟨isSome_step_iff driver commands, ?_⟩
  intro next frames step
  exact ⟨next.canTxData, signed_payload (Driver.Follows.run ran) commands step⟩

/-- A command of either kind of position, and a request. -/
def earlierCalls : List Call :=
  [.positionCtrl2 10 90, .positionCtrl4 45 20 .counterClockwise, .getMotorStatus]

theorem earlierCalls_run : ∃ driver before,
    machine.run .initial earlierCalls = some (driver, before) ∧ before.length = 3 :=
  ⟨_, _, rfl, rfl⟩

/-- A target of a full turn backwards can be sent. -/
theorem targets_on_wire_backwards : ∃ driver before,
    machine.run .initial earlierCalls = some (driver, before) ∧
      (machine.step driver (.positionCtrl1 (-360))).isSome := by
  rcases earlierCalls_run with ⟨driver, before, ran, -⟩
  have range := (targets_on_wire ran (rfl : (Call.positionCtrl1 (-360)).target? = some _)).1
  exact ⟨driver, before, ran, range.mpr (by decide)⟩

/--
A position that could be sent comes back unchanged: a reply that reports the number in the
frame is read as the degrees that the program asked for.
-/
theorem position_roundTrip {calls : List Call} {driver : Driver} {before : List Frame}
    (ran : machine.run .initial calls = some (driver, before)) {call : Call} {target : Word}
    (commands : call = .positionCtrl1 target ∨
      ∃ speedLimited, call = .positionCtrl2 speedLimited target)
    {next : Driver} {frames : List Frame}
    (step : machine.step driver call = some (next, frames)) {frame : Frame}
    (sent : frame ∈ frames) {reply : Vector Byte 8}
    (reports : reportedAngle reply = LittleEndian.signed (frame.buffer.toList.drop 4)) :
    (getMotorMultiTurnAngle reply).toInt = target.toInt := by
  have isTarget : call.target? = some target := by
    rcases commands with rfl | ⟨_, rfl⟩ <;> rfl
  rcases signed_payload (Driver.Follows.run ran) isTarget step with ⟨framesEq, exact⟩
  rw [framesEq, List.mem_singleton] at sent
  rw [sent, exact] at reports
  have lower := target.le_toInt
  have upper := target.toInt_lt
  rw [(getMotorMultiTurnAngle_exact_iff reply).mpr (by omega), reports]
  exact Int.mul_tdiv_cancel_left _ (by omega)

/-- A reply with the angle of a command for 90 degrees backwards. -/
theorem position_roundTrip_backwards : ∃ driver before,
    machine.run .initial earlierCalls = some (driver, before) ∧
      (getMotorMultiTurnAngle #v[0x92, 0x10, 0x2D, 0xFF, 0xFF, 0xFF, 0xFF, 0xFF]).toInt =
        (-90 : Word).toInt := by
  rcases earlierCalls_run with ⟨driver, before, ran, -⟩
  have commands : (Call.positionCtrl1 (-90)).target? = some (-90) := rfl
  have defined := (isSome_step_iff driver commands).mpr (by decide)
  rcases Option.isSome_iff_exists.mp defined with ⟨⟨next, frames⟩, step⟩
  rcases signed_payload (Driver.Follows.run ran) commands step with ⟨sent, exact⟩
  subst frames
  refine ⟨driver, before, ran,
    position_roundTrip ran (Or.inl rfl) step (List.mem_singleton_self _) ?_⟩
  rw [exact]
  decide

/-! ## 16-bit fields -/

theorem value_half (half : BitVec 16) :
    LittleEndian.value [half.setWidth 8, (half >>> 8).setWidth 8] = half.toNat := by
  rw [← bytes_half, LittleEndian.value_bytes]
  exact Nat.mod_eq_of_lt half.isLt

theorem halves_eq_iff (half other : BitVec 16) :
    half.setWidth 8 = other.setWidth 8 ∧
      (half >>> 8).setWidth 8 = (other >>> 8).setWidth 8 ↔ half = other := by
  constructor
  · rintro ⟨low, high⟩
    apply BitVec.eq_of_toNat_eq
    rw [← value_half half, ← value_half other, low, high]
  · rintro rfl
    exact ⟨rfl, rfl⟩

/-- Of 600 only the factor 75 is odd, so multiplying by it forgets three bits. -/
theorem scaled_eq_iff (target other : BitVec 16) :
    target * 100 * 6 = other * 100 * 6 ↔ target.toNat % 8192 = other.toNat % 8192 := by
  rw [scaled_half, scaled_half, ← BitVec.toNat_inj, BitVec.toNat_mul, BitVec.toNat_mul]
  simp only [BitVec.ofNat_eq_ofNat, BitVec.toNat_ofNat, Nat.reducePow, Nat.reduceMod]
  omega

theorem shortTarget_step (driver : Driver) {call : Call} {target : BitVec 16}
    (commands : call.shortTarget? = some target) :
    ∃ next, machine.step driver call = some (next, [⟨0x141, next.canTxData⟩]) := by
  cases call <;> cases commands <;> exact ⟨_, rfl⟩

/--
With 16 bits for the target, the motor gets 600 times the target modulo `2 ^ 16`, which is the
exact number only up to 109 degrees.
-/
theorem shortTargets_on_wire {calls : List Call} {driver : Driver} {before : List Frame}
    (ran : machine.run .initial calls = some (driver, before)) {call : Call}
    {target : BitVec 16} (commands : call.shortTarget? = some target) :
    ∃ next buffer, machine.step driver call = some (next, [⟨0x141, buffer⟩]) ∧
      LittleEndian.value ((buffer.toList.drop 4).take 2) = 600 * target.toNat % 2 ^ 16 ∧
      (LittleEndian.value ((buffer.toList.drop 4).take 2) = 600 * target.toNat ↔
        target.toNat ≤ 109) := by
  have follows := Driver.Follows.run ran
  rcases shortTarget_step driver commands with ⟨next, step⟩
  have buffer := (step_result follows.reserved_eq follows.buffer_eq step).buffer_eq
  have field : (next.canTxData.toList.drop 4).take 2 =
      LittleEndian.bytes 2 (target * 600).toNat := by
    rw [buffer]
    cases call <;> cases commands <;> rfl
  have number : LittleEndian.value ((next.canTxData.toList.drop 4).take 2) =
      600 * target.toNat % 2 ^ 16 := by
    rw [field, LittleEndian.value_bytes, BitVec.toNat_mul, Nat.mul_comm]
    exact Nat.mod_mod _ _
  refine ⟨next, next.canTxData, step, number, ?_⟩
  rw [number]
  omega

/-- A full turn, `360`, is sent as 32.32 degrees. -/
theorem shortTargets_on_wire_turn : ∃ driver before next buffer,
    machine.run .initial earlierCalls = some (driver, before) ∧
      machine.step driver (.positionCtrl3 360 .clockwise) = some (next, [⟨0x141, buffer⟩]) ∧
      LittleEndian.value ((buffer.toList.drop 4).take 2) = 19392 := by
  rcases earlierCalls_run with ⟨driver, before, ran, -⟩
  rcases shortTargets_on_wire ran
    (rfl : (Call.positionCtrl3 360 .clockwise).shortTarget? = some 360) with
    ⟨next, buffer, step, number, -⟩
  exact ⟨driver, before, next, buffer, ran, step, number⟩

/-- Two targets give the same frame exactly when they differ by a multiple of 8192 degrees. -/
theorem shortTargets_collide_iff (driver : Driver) (dir : MotorDir)
    (speedLimited target other : BitVec 16) :
    ((driver.sendPositionCtrl3Cmd target dir).2 = (driver.sendPositionCtrl3Cmd other dir).2 ↔
        target.toNat % 8192 = other.toNat % 8192) ∧
      ((driver.sendPositionCtrl4Cmd target speedLimited dir).2 =
          (driver.sendPositionCtrl4Cmd other speedLimited dir).2 ↔
        target.toNat % 8192 = other.toNat % 8192) := by
  rw [← scaled_eq_iff, ← halves_eq_iff]
  constructor
  · simp [Driver.sendPositionCtrl3Cmd, Driver.sendMsg, Driver.packMsgPositionCtrl3Cmd]
  · simp [Driver.sendPositionCtrl4Cmd, Driver.sendMsg, Driver.packMsgPositionCtrl4Cmd]

/--
The speed limit in degrees per second is six times the given revolutions per minute only up
to 182 of them, and never more than 1092.
-/
theorem speedLimits_on_wire {calls : List Call} {driver : Driver} {before : List Frame}
    (ran : machine.run .initial calls = some (driver, before)) {call : Call}
    {speedLimited : BitVec 16} (commands : call.speedLimit? = some speedLimited)
    {next : Driver} {frames : List Frame}
    (step : machine.step driver call = some (next, frames)) :
    ∃ buffer limit, frames = [⟨0x141, buffer⟩] ∧
      limit = LittleEndian.value ((buffer.toList.drop 2).take 2) ∧
      limit = 360 * speedLimited.toNat % 2 ^ 16 / 60 ∧ limit ≤ 1092 ∧
      (limit = 6 * speedLimited.toNat ↔ speedLimited.toNat ≤ 182) := by
  have follows := Driver.Follows.run ran
  rcases step_result follows.reserved_eq follows.buffer_eq step with ⟨-, buffer, framesEq⟩
  have sends : call.Sends := by
    rintro rfl
    cases commands
  have field : (next.canTxData.toList.drop 2).take 2 =
      LittleEndian.bytes 2 (speedLimited * 360 / 60).toNat := by
    rw [buffer]
    cases call <;> cases commands <;> rfl
  have number : LittleEndian.value ((next.canTxData.toList.drop 2).take 2) =
      360 * speedLimited.toNat % 2 ^ 16 / 60 := by
    rw [field, LittleEndian.value_bytes, BitVec.toNat_udiv, BitVec.toNat_mul,
      Nat.mul_comm speedLimited.toNat]
    exact Nat.mod_eq_of_lt (by simp; omega)
  refine ⟨next.canTxData, _, by rw [framesEq, if_pos sends], rfl, number, ?_⟩
  rw [number]
  omega

/-- A limit of 183 revolutions per minute is sent as five degrees per second. -/
theorem speedLimits_on_wire_slow : ∃ driver before buffer limit,
    machine.run .initial earlierCalls = some (driver, before) ∧
      (driver.sendPositionCtrl4Cmd 0 183 .clockwise).2 = [⟨0x141, buffer⟩] ∧
      limit = LittleEndian.value ((buffer.toList.drop 2).take 2) ∧ limit = 5 := by
  rcases earlierCalls_run with ⟨driver, before, ran, -⟩
  rcases speedLimits_on_wire ran
    (rfl : (Call.positionCtrl4 0 183 .clockwise).speedLimit? = some 183) rfl with
    ⟨buffer, limit, sent, limitEq, number, -⟩
  exact ⟨driver, before, buffer, limit, ran, sent, limitEq, number⟩

end ArmSimulator.X8
