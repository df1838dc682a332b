import ArmSimulator.Lib.LittleEndian
import ArmSimulator.X8.Driver

/-!
# What the X8 driver puts on the bus

Seen from the bus, the driver has no message structures. A frame is the command byte of the
last call that sets one, in front of the data of the last call that has any. So a request
carries the data of an earlier command, and the torque command, which sets neither, repeats
the frame before it.
-/

namespace ArmSimulator.X8

namespace Call

/-- The command byte that a call sets. -/
def opcode? : Call → Option Byte
  | encoderOffset _ => some 0x91
  | torqueCloseLoop _ => none
  | speedCloseLoop _ => some 0xA2
  | positionCtrl1 _ => some 0xA3
  | positionCtrl2 _ _ => some 0xA4
  | positionCtrl3 _ _ => some 0xA5
  | positionCtrl4 _ _ _ => some 0xA6
  | motorCommand .off => some 0x80
  | motorCommand .stop => some 0x81
  | motorCommand .run => some 0x88
  | motorCommand .unknown => none
  | getMotorStatus => some 0x9C
  | getMotorMultiTurnAngle => some 0x92
  | getPidData => some 0x30

/-- The seven data bytes that a call packs. -/
def payload? : Call → Option (List Byte)
  | encoderOffset offset => some (List.replicate 5 0 ++ LittleEndian.bytes 2 offset.toNat)
  | speedCloseLoop target | positionCtrl1 target =>
      some (List.replicate 3 0 ++ LittleEndian.bytes 4 (target * 600).toNat)
  | positionCtrl2 speedLimited target =>
      some (0 :: LittleEndian.bytes 2 (speedLimited * 360 / 60).toNat ++
        LittleEndian.bytes 4 (target * 600).toNat)
  | positionCtrl3 target dir =>
      some (dir.toByte :: 0 :: 0 :: LittleEndian.bytes 2 (target * 600).toNat ++ [0, 0])
  | positionCtrl4 target speedLimited dir =>
      some (dir.toByte :: LittleEndian.bytes 2 (speedLimited * 360 / 60).toNat ++
        LittleEndian.bytes 2 (target * 600).toNat ++ [0, 0])
  | _ => none

def Sends (call : Call) : Prop := call ≠ motorCommand .unknown

instance : DecidablePred Sends := fun _ => inferInstanceAs (Decidable (_ ≠ _))

end Call

def lastOpcode (calls : List Call) : Byte := (calls.filterMap Call.opcode?).getLast?.getD 0

def lastPayload (calls : List Call) : List Byte :=
  (calls.filterMap Call.payload?).getLast?.getD (List.replicate 7 0)

theorem lastOpcode_snoc (calls : List Call) (call : Call) :
    lastOpcode (calls ++ [call]) = call.opcode?.getD (lastOpcode calls) := by
  cases set : call.opcode? <;> simp [lastOpcode, set]

theorem lastPayload_snoc (calls : List Call) (call : Call) :
    lastPayload (calls ++ [call]) = call.payload?.getD (lastPayload calls) := by
  cases packed : call.payload? <;> simp [lastPayload, packed]

/-- What the last of some calls puts on the bus: the identifier and the eight bytes. -/
def wire (calls : List Call) : Option (BitVec 16 × List Byte) :=
  if ∃ call ∈ calls.getLast?, call.Sends then
    some (0x141, lastOpcode calls :: lastPayload calls)
  else none

def Frame.bytes (frame : Frame) : BitVec 16 × List Byte := (frame.msgId, frame.buffer.toList)

/-! ## One call -/

namespace Driver

/-- The data bytes of the messages that no sender writes. -/
def reserved (driver : Driver) : List Byte :=
  let offset := driver.msgWriteEncodeOffsetCmd
  let speed := driver.msgSpeedCloseLoopCmd
  let position1 := driver.msgPositionCtrl1Cmd
  let position3 := driver.msgPositionCtrl3Cmd
  let position4 := driver.msgPositionCtrl4Cmd
  [offset.data1, offset.data2, offset.data3, offset.data4, offset.data5, speed.data1,
    speed.data2, speed.data3, position1.data1, position1.data2, position1.data3,
    driver.msgPositionCtrl2Cmd.data1, position3.data2, position3.data3, position3.data6,
    position3.data7, position4.data6, position4.data7]

end Driver

/-! ## Bytes and products -/

theorem bytes_half (half : BitVec 16) :
    LittleEndian.bytes 2 half.toNat = [half.setWidth 8, (half >>> 8).setWidth 8] := by
  rw [LittleEndian.setWidth_ushiftRight, LittleEndian.bytes_word]
  rfl

theorem bytes_pointer (word : Word) :
    LittleEndian.bytes 4 word.toNat = [word.extractLsb' 0 8, word.extractLsb' 8 8,
      word.extractLsb' 16 8, word.extractLsb' 24 8] :=
  LittleEndian.bytes_word 4 word

/-- The shifts of a signed word cut out the same bytes as a byte pointer. -/
theorem bytes_shifts (word : Word) :
    LittleEndian.bytes 4 word.toNat = [word.setWidth 8, (word.sshiftRight 8).setWidth 8,
      (word.sshiftRight 16).setWidth 8, (word.sshiftRight 24).setWidth 8] := by
  rw [LittleEndian.setWidth_sshiftRight _ (by omega),
    LittleEndian.setWidth_sshiftRight _ (by omega),
    LittleEndian.setWidth_sshiftRight _ (by omega), bytes_pointer]
  rfl

theorem scaled_half (target : BitVec 16) : target * 100 * 6 = target * 600 :=
  BitVec.mul_assoc target 100 6

theorem eq_mul_of_toInt {target factor product : Word}
    (exact : product.toInt = target.toInt * factor.toInt) : product = target * factor := by
  have wraps := congrArg (fun value : ℤ => value.bmod (2 ^ 32)) exact
  rw [← BitVec.toInt_inj, BitVec.toInt_mul, ← wraps, BitVec.toInt_bmod_cancel]

/-- The two products of a position are defined exactly when it is 600 times as large. -/
theorem scaled_position {target scaled : Word} :
    ((mulInt? target 100).bind fun hundredths => mulInt? hundredths 6) = some scaled ↔
      scaled.toInt = target.toInt * 600 := by
  have lower := scaled.le_toInt
  have upper := scaled.toInt_lt
  simp only [Option.bind_eq_some_iff, mulInt?_eq_some_iff]
  constructor
  · rintro ⟨hundredths, first, second⟩
    rw [second, first]
    exact Int.mul_assoc _ 100 6
  · intro exact
    refine ⟨BitVec.ofInt 32 (target.toInt * 100), ?_, ?_⟩ <;>
      rw [BitVec.toInt_ofInt, Int.bmod_eq_of_le (by omega) (by omega)]
    · rfl
    · rw [exact]
      exact (Int.mul_assoc _ 100 6).symm

/-- The division between the two products of a speed is exact. -/
theorem scaled_speed {target scaled : Word} :
    ((mulInt? target 360).bind fun degrees => mulInt? (degrees.sdiv 60) 100) = some scaled ↔
      scaled.toInt = target.toInt * 600 := by
  have lower := scaled.le_toInt
  have upper := scaled.toInt_lt
  have quotient : ∀ degrees : Word, degrees.toInt = target.toInt * 360 →
      (degrees.sdiv 60).toInt = target.toInt * 6 := by
    intro degrees exact
    have low := degrees.le_toInt
    have high := degrees.toInt_lt
    rw [BitVec.toInt_sdiv, exact, show (60 : Word).toInt = 60 from rfl,
      show target.toInt * 360 = target.toInt * 6 * 60 by ring, Int.mul_tdiv_cancel _ (by omega),
      Int.bmod_eq_of_le (by omega) (by omega)]
  simp only [Option.bind_eq_some_iff, mulInt?_eq_some_iff]
  constructor
  · rintro ⟨degrees, first, second⟩
    rw [second, quotient degrees first]
    exact Int.mul_assoc _ 6 100
  · intro exact
    have defined : (BitVec.ofInt 32 (target.toInt * 360)).toInt = target.toInt * 360 := by
      rw [BitVec.toInt_ofInt, Int.bmod_eq_of_le (by omega) (by omega)]
    refine ⟨BitVec.ofInt 32 (target.toInt * 360), defined, ?_⟩
    rw [quotient _ defined, exact]
    exact (Int.mul_assoc _ 6 100).symm

/-! ## The senders -/

/-- What a step leaves in the statics, and the frame it sends. -/
structure StepResult (call : Call) (opcode : Byte) (payload : List Byte) (next : Driver)
    (frames : List Frame) : Prop where
  reserved_eq : next.reserved = List.replicate 18 0
  buffer_eq : next.canTxData.toList = call.opcode?.getD opcode :: call.payload?.getD payload
  frames_eq : frames = if call.Sends then [⟨0x141, next.canTxData⟩] else []

section Senders

variable {driver next : Driver} {opcode : Byte} {payload : List Byte} {frames : List Frame}
  (reserved : driver.reserved = List.replicate 18 0)
  (buffer : driver.canTxData.toList = opcode :: payload)

include reserved

theorem sendEncoderOffsetCmd_result (offset : BitVec 16) :
    StepResult (.encoderOffset offset) opcode payload (driver.sendEncoderOffsetCmd offset).1
      (driver.sendEncoderOffsetCmd offset).2 := by
  refine ⟨reserved, ?_, rfl⟩
  simp only [Driver.reserved, List.replicate, List.cons.injEq, and_true] at reserved
  simp only [Call.opcode?, Call.payload?, bytes_half]
  simp [Driver.sendEncoderOffsetCmd, Driver.sendMsg, Driver.packMsgEncodeOffsetCmd, reserved]

theorem sendSpeedCloseLoopCmd_result {speed : Word}
    (sent : driver.sendSpeedCloseLoopCmd speed = some (next, frames)) :
    StepResult (.speedCloseLoop speed) opcode payload next frames := by
  simp only [Driver.sendSpeedCloseLoopCmd, Option.bind_eq_bind, Option.bind_eq_some_iff,
    Option.pure_def, Option.some.injEq] at sent
  rcases sent with ⟨degrees, first, scaled, second, sent⟩
  have exact := scaled_speed.mp (Option.bind_eq_some_iff.mpr ⟨degrees, first, second⟩)
  obtain rfl : scaled = speed * 600 := eq_mul_of_toInt exact
  cases sent
  refine ⟨reserved, ?_, rfl⟩
  simp only [Driver.reserved, List.replicate, List.cons.injEq, and_true] at reserved
  simp only [Call.opcode?, Call.payload?, bytes_shifts]
  simp [Driver.packMsgSpeedCloseLoopCmd, reserved]

theorem sendPositionCtrl1Cmd_result {target : Word}
    (sent : driver.sendPositionCtrl1Cmd target = some (next, frames)) :
    StepResult (.positionCtrl1 target) opcode payload next frames := by
  simp only [Driver.sendPositionCtrl1Cmd, Option.bind_eq_bind, Option.bind_eq_some_iff,
    Option.pure_def, Option.some.injEq] at sent
  rcases sent with ⟨hundredths, first, scaled, second, sent⟩
  have exact := scaled_position.mp (Option.bind_eq_some_iff.mpr ⟨hundredths, first, second⟩)
  obtain rfl : scaled = target * 600 := eq_mul_of_toInt exact
  cases sent
  refine ⟨reserved, ?_, rfl⟩
  simp only [Driver.reserved, List.replicate, List.cons.injEq, and_true] at reserved
  simp only [Call.opcode?, Call.payload?, bytes_shifts]
  simp [Driver.packMsgPositionCtrl1Cmd, reserved]

theorem sendPositionCtrl2Cmd_result {speedLimited : BitVec 16} {target : Word}
    (sent : driver.sendPositionCtrl2Cmd speedLimited target = some (next, frames)) :
    StepResult (.positionCtrl2 speedLimited target) opcode payload next frames := by
  simp only [Driver.sendPositionCtrl2Cmd, Option.bind_eq_bind, Option.bind_eq_some_iff,
    Option.pure_def, Option.some.injEq] at sent
  rcases sent with ⟨hundredths, first, scaled, second, sent⟩
  have exact := scaled_position.mp (Option.bind_eq_some_iff.mpr ⟨hundredths, first, second⟩)
  obtain rfl : scaled = target * 600 := eq_mul_of_toInt exact
  cases sent
  refine ⟨reserved, ?_, rfl⟩
  simp only [Driver.reserved, List.replicate, List.cons.injEq, and_true] at reserved
  simp only [Call.opcode?, Call.payload?, bytes_half, bytes_pointer]
  simp [Driver.packMsgPositionCtrl2Cmd, reserved]

theorem sendPositionCtrl3Cmd_result (target : BitVec 16) (dir : MotorDir) :
    StepResult (.positionCtrl3 target dir) opcode payload
      (driver.sendPositionCtrl3Cmd target dir).1 (driver.sendPositionCtrl3Cmd target dir).2 := by
  refine ⟨reserved, ?_, rfl⟩
  simp only [Driver.reserved, List.replicate, List.cons.injEq, and_true] at reserved
  simp only [Call.opcode?, Call.payload?, ← scaled_half, bytes_half]
  simp [Driver.sendPositionCtrl3Cmd, Driver.sendMsg, Driver.packMsgPositionCtrl3Cmd, reserved]

theorem sendPositionCtrl4Cmd_result (target speedLimited : BitVec 16) (dir : MotorDir) :
    StepResult (.positionCtrl4 target speedLimited dir) opcode payload
      (driver.sendPositionCtrl4Cmd target speedLimited dir).1
      (driver.sendPositionCtrl4Cmd target speedLimited dir).2 := by
  refine ⟨reserved, ?_, rfl⟩
  simp only [Driver.reserved, List.replicate, List.cons.injEq, and_true] at reserved
  simp only [Call.opcode?, Call.payload?, ← scaled_half, bytes_half]
  simp [Driver.sendPositionCtrl4Cmd, Driver.sendMsg, Driver.packMsgPositionCtrl4Cmd, reserved]

include buffer

/-- A request sets the command byte in front of whatever the buffer holds. -/
theorem setCmdByte_result {call : Call} {cmdByte : Byte} (sends : call.Sends)
    (sets : call.opcode? = some cmdByte) (plain : call.payload? = none) :
    StepResult call opcode payload (driver.setCmdByte cmdByte)
      [⟨0x141, (driver.setCmdByte cmdByte).canTxData⟩] := by
  refine ⟨reserved, ?_, (if_pos sends).symm⟩
  simp [Driver.setCmdByte, buffer, sets, plain]

theorem step_result {call : Call} (step : machine.step driver call = some (next, frames)) :
    StepResult call opcode payload next frames := by
  cases call with
  | encoderOffset offset =>
      cases step
      exact sendEncoderOffsetCmd_result reserved offset
  | torqueCloseLoop torque =>
      cases step
      exact ⟨reserved, buffer, rfl⟩
  | speedCloseLoop speed => exact sendSpeedCloseLoopCmd_result reserved step
  | positionCtrl1 target => exact sendPositionCtrl1Cmd_result reserved step
  | positionCtrl2 speedLimited target => exact sendPositionCtrl2Cmd_result reserved step
  | positionCtrl3 target dir =>
      cases step
      exact sendPositionCtrl3Cmd_result reserved target dir
  | positionCtrl4 target speedLimited dir =>
      cases step
      exact sendPositionCtrl4Cmd_result reserved target speedLimited dir
  | motorCommand command =>
      cases command with
      | unknown =>
          cases step
          exact ⟨reserved, buffer, rfl⟩
      | _ =>
          cases step
          exact setCmdByte_result reserved buffer (by decide) rfl rfl
  | getMotorStatus | getMotorMultiTurnAngle | getPidData =>
      cases step
      exact setCmdByte_result reserved buffer (by decide) rfl rfl

end Senders

/-! ## Runs -/

/-- The transmit buffer is the frame of the calls so far, and the frames sent are theirs. -/
structure Driver.Follows (driver : Driver) (calls : List Call) (frames : List Frame) : Prop where
  reserved_eq : driver.reserved = List.replicate 18 0
  buffer_eq : driver.canTxData.toList = lastOpcode calls :: lastPayload calls
  frames_eq : frames.map Frame.bytes = calls.inits.filterMap wire
  last_eq : frames.getLast?.getD ⟨0x141, Vector.replicate 8 0⟩ = ⟨0x141, driver.canTxData⟩

namespace Driver.Follows

theorem initial : Driver.initial.Follows [] [] := ⟨rfl, rfl, rfl, rfl⟩

theorem wire_snoc (calls : List Call) (call : Call) :
    wire (calls ++ [call]) =
      if call.Sends then some (0x141, lastOpcode (calls ++ [call]) :: lastPayload (calls ++ [call]))
      else none := by
  simp [wire]

theorem step {driver next : Driver} {calls : List Call} {call : Call} {sent frames : List Frame}
    (follows : driver.Follows calls sent)
    (taken : machine.step driver call = some (next, frames)) :
    next.Follows (calls ++ [call]) (sent ++ frames) := by
  rcases step_result follows.reserved_eq follows.buffer_eq taken with
    ⟨reserved, buffer, framesEq⟩
  rw [← lastOpcode_snoc, ← lastPayload_snoc] at buffer
  have initsEq : (calls ++ [call]).inits = calls.inits ++ [calls ++ [call]] := by simp
  refine ⟨reserved, buffer, ?_, ?_⟩
  · rw [initsEq, List.filterMap_append, List.map_append, follows.frames_eq, framesEq]
    by_cases sends : call.Sends <;> simp [wire_snoc, sends, Frame.bytes, buffer]
  · rw [framesEq]
    by_cases sends : call.Sends
    · simp [sends]
    · -- The call that sends nothing leaves the statics alone.
      obtain rfl : call = .motorCommand .unknown := not_not.mp sends
      cases taken
      simpa [sends] using follows.last_eq

theorem run {calls : List Call} {final : Driver} {frames : List Frame}
    (ran : machine.run .initial calls = some (final, frames)) : final.Follows calls frames :=
  machine.run_record Driver.Follows step [] [] initial ran

end Driver.Follows

/--
Whatever the program calls, the frames on the bus are given by the calls alone: each carries
the command byte of the last call that sets one and the data of the last call that has any.
-/
theorem frames_of_calls {calls : List Call} {final : Driver} {frames : List Frame}
    (ran : machine.run .initial calls = some (final, frames)) :
    frames.map Frame.bytes = calls.inits.filterMap wire :=
  (Driver.Follows.run ran).frames_eq

/-- Of a position command and a status request, the second carries the data of the first. -/
theorem frames_of_calls_request : ∃ final frames,
    machine.run .initial [.positionCtrl1 90, .getMotorStatus] = some (final, frames) ∧
      frames.map Frame.bytes =
        [(0x141, [0xA3, 0, 0, 0, 0xF0, 0xD2, 0, 0]),
          (0x141, [0x9C, 0, 0, 0, 0xF0, 0xD2, 0, 0])] := by
  rcases Option.isSome_iff_exists.mp
    (show (machine.run .initial [.positionCtrl1 90, .getMotorStatus]).isSome from rfl) with
    ⟨⟨final, frames⟩, ran⟩
  exact ⟨final, frames, ran, (frames_of_calls ran).trans rfl⟩

theorem opcode?_ne_torque (call : Call) : call.opcode? ≠ some 0xA1 := by
  cases call with
  | motorCommand command => cases command <;> simp [Call.opcode?]
  | _ => simp [Call.opcode?]

theorem lastOpcode_ne_torque (calls : List Call) : lastOpcode calls ≠ 0xA1 := by
  induction calls using List.reverseRecOn with
  | nil => decide
  | append_singleton calls call ih =>
      rw [lastOpcode_snoc]
      cases set : call.opcode? with
      | none => exact ih
      | some opcode =>
          rintro rfl
          exact opcode?_ne_torque call set

/--
The torque command never reaches the motor. No frame has its command byte, and a call of its
sender repeats the frame before, or sends eight zeros when there is none.
-/
theorem torque_never_sent {calls : List Call} {final : Driver} {frames : List Frame}
    (ran : machine.run .initial calls = some (final, frames)) :
    (∀ frame ∈ frames, frame.buffer.toList.head? ≠ some 0xA1) ∧
      ∀ torque, (machine.step final (.torqueCloseLoop torque)).map Prod.snd =
        some [frames.getLast?.getD ⟨0x141, Vector.replicate 8 0⟩] := by
  have follows := Driver.Follows.run ran
  refine ⟨?_, ?_⟩
  · intro frame mem
    have onWire : frame.bytes ∈ calls.inits.filterMap wire := by
      rw [← follows.frames_eq]
      exact List.mem_map_of_mem mem
    rcases List.mem_filterMap.mp onWire with ⟨early, -, sent⟩
    simp only [wire, Option.ite_none_right_eq_some, Option.some.injEq] at sent
    rw [show frame.buffer.toList = _ from (congrArg Prod.snd sent.2).symm, List.head?_cons]
    exact fun torque => lastOpcode_ne_torque early (Option.some.inj torque)
  · intro torque
    rw [follows.last_eq]
    rfl

/-- A torque command after a position command sends the position again. -/
theorem torque_never_sent_position : ∃ final frames,
    machine.run .initial [.positionCtrl1 90] = some (final, frames) ∧
      (machine.step final (.torqueCloseLoop 5)).map Prod.snd =
        some [frames.getLast?.getD ⟨0x141, Vector.replicate 8 0⟩] := by
  rcases Option.isSome_iff_exists.mp
    (show (machine.run .initial [.positionCtrl1 90]).isSome from rfl) with ⟨⟨final, frames⟩, ran⟩
  exact ⟨final, frames, ran, (torque_never_sent ran).2 5⟩

end ArmSimulator.X8
