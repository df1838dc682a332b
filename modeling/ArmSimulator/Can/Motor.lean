import Mathlib.Tactic.IntervalCases
import ArmSimulator.Can.Bus
import ArmSimulator.Lib.LittleEndian

/-!
# The motors

`motor.cpp` over the CAN driver. Every command sends one frame and then polls once for
the reply. Frames may arrive at any time; those that arrive between the two halves of a
command are an argument of the command. An assignment to `position_` is reported beside
the new state, so that runs can say where the cached positions come from.
-/

namespace ArmSimulator

structure Motor where
  position : CFloat
  canAddress : Word
  deriving DecidableEq, Repr

/-! ## The command tables -/

def setZeroPosMsg : Vector Byte 8 := #v[0x64, 0x00, 0x00, 0x00, 0x00, 0x00, 0x00, 0x00]

def shutdownMsg : Vector Byte 8 := #v[0x80, 0x00, 0x00, 0x00, 0x00, 0x00, 0x00, 0x00]

def getPositionMsg : Vector Byte 8 := #v[0x92, 0x00, 0x00, 0x00, 0x00, 0x00, 0x00, 0x00]

def setPositionMsg : Vector Byte 8 := #v[0xA4, 0x00, 0x00, 0x00, 0x00, 0x00, 0x00, 0x00]

namespace Motor

def maxPosition : ℤ := 90

def minPosition : ℤ := -90

def positionScale : ℤ := 100

/-- A left shift of a promoted `char`, whose result wraps to a 32-bit `int`. -/
def shiftLeft (byte : Byte) (amount : ℕ) : ℤ := (byte.setWidth 32 <<< amount).toInt

/-- The sum of shifted bytes in `read_position`. -/
def decodePosition (recBuf : Vector Byte 9) : ℤ :=
  recBuf[5].toNat + shiftLeft recBuf[6] 8 + shiftLeft recBuf[7] 16 + shiftLeft recBuf[8] 24

/-- The same sum with every addition checked, in the order of evaluation. -/
def decodePosition? (recBuf : Vector Byte 9) : Option ℤ := do
  let low ← addInt? recBuf[5].toNat (shiftLeft recBuf[6] 8)
  let high ← addInt? low (shiftLeft recBuf[7] 16)
  addInt? high (shiftLeft recBuf[8] 24)

/-- The first half of `read_position`. -/
def readPositionSend (motor : Motor) (bus : CanBus) : CanBus :=
  canBusSend getPositionMsg motor.canAddress bus

/-- The second half of `read_position`, with the value assigned to `position_` if any. -/
def readPositionReceive (motor : Motor) (readFails : Bool) (bus : CanBus) :
    Motor × CanBus × Option CFloat :=
  let bus := canBusReceive motor.canAddress (cmdByte getPositionMsg) readFails bus
  if bus.canReply then
    let bus := { bus with recBuf := bus.receiveBuf }
    if bus.recBuf[1] = cmdByte getPositionMsg ∧
        bus.recBuf[0].setWidth 32 = 0x0F &&& motor.canAddress then
      let position := CFloat.finite (decodePosition bus.recBuf * (1 / 100))
      ({ motor with position }, bus, some position)
    else (motor, bus, none)
  else (motor, bus, none)

def readPosition (motor : Motor) (during : List CanFrame) (readFails : Bool) (bus : CanBus) :
    Motor × CanBus × Option CFloat :=
  motor.readPositionReceive readFails ((motor.readPositionSend bus).deliver during)

/-- `in_range(position_check)`, the overload with an argument. -/
def inRangeOf (positionCheck : CFloat) : Bool :=
  if positionCheck.lt (.ofInt minPosition) then false
  else if CFloat.lt (.ofInt maxPosition) positionCheck then false
  else true

def inRange (motor : Motor) : Bool :=
  CFloat.le (.ofInt minPosition) motor.position && motor.position.le (.ofInt maxPosition)

/--
The scaled position of `set_position`. `unrepresentable` is what the conversion gives where
C++ leaves it undefined.
-/
def newPositionScaled (newPosition : CFloat) (unrepresentable : Word) : Word :=
  (newPosition.mul (.ofInt positionScale)).toUInt32?.getD unrepresentable

/-- The command buffer of `set_position`. Its ninth byte is never sent. -/
def setPositionBuf (newPositionScaled : Word) : Vector Byte 8 :=
  let maxSpeed : BitVec 16 := 10
  #v[cmdByte setPositionMsg, 0x00, maxSpeed.setWidth 8 &&& 0xFF,
    (maxSpeed >>> 8 &&& 0xFF).setWidth 8, newPositionScaled.setWidth 8,
    (newPositionScaled >>> 8).setWidth 8, (newPositionScaled >>> 16).setWidth 8,
    (newPositionScaled >>> 24).setWidth 8]

def setPositionSend (motor : Motor) (newPosition : CFloat) (unrepresentable : Word)
    (bus : CanBus) : CanBus :=
  canBusSend (setPositionBuf (newPositionScaled newPosition unrepresentable)) motor.canAddress bus

def setPositionReceive (motor : Motor) (readFails : Bool) (bus : CanBus) : CanBus :=
  canBusReceive motor.canAddress (cmdByte setPositionMsg) readFails bus

def setPosition (motor : Motor) (newPosition : CFloat) (unrepresentable : Word)
    (during : List CanFrame) (readFails : Bool) (bus : CanBus) : CanBus :=
  if inRangeOf newPosition then
    motor.setPositionReceive readFails
      ((motor.setPositionSend newPosition unrepresentable bus).deliver during)
  else bus.deliver during

def setZeroCmdSend (motor : Motor) (bus : CanBus) : CanBus :=
  canBusSend setZeroPosMsg motor.canAddress bus

def setZeroCmdReceive (motor : Motor) (readFails : Bool) (bus : CanBus) : CanBus :=
  canBusReceive motor.canAddress (cmdByte setZeroPosMsg) readFails bus

def setZeroCmd (motor : Motor) (during : List CanFrame) (readFails : Bool) (bus : CanBus) :
    CanBus :=
  motor.setZeroCmdReceive readFails ((motor.setZeroCmdSend bus).deliver during)

def shutdownCmdSend (motor : Motor) (bus : CanBus) : CanBus :=
  canBusSend shutdownMsg motor.canAddress bus

/-- `shutdown_cmd` polls for the reply to another command than it sends. -/
def shutdownCmdReceive (motor : Motor) (readFails : Bool) (bus : CanBus) : CanBus :=
  canBusReceive motor.canAddress (cmdByte getPositionMsg) readFails bus

def shutdownCmd (motor : Motor) (during : List CanFrame) (readFails : Bool) (bus : CanBus) :
    CanBus :=
  motor.shutdownCmdReceive readFails ((motor.shutdownCmdSend bus).deliver during)

end Motor

/-! ## What a position reply says -/

/-- The position in a reply: the two's-complement word in `data[4..7]`, in hundredths. -/
def CanFrame.reportedPosition (frame : CanFrame) : ℚ :=
  LittleEndian.signed [frame.data[4], frame.data[5], frame.data[6], frame.data[7]] * (1 / 100)

namespace CanFrame

theorem received_zero (frame : CanFrame) (address : Word) :
    (frame.received address)[0] = (0x0F &&& address).setWidth 8 := by
  simp [received]

theorem received_succ (frame : CanFrame) (address : Word) {index : ℕ} (bound : index < 8) :
    (frame.received address)[index + 1] = frame.data[index] := by
  simp [received]

theorem drop_four (frame : CanFrame) :
    frame.data.toList.drop 4 = [frame.data[4], frame.data[5], frame.data[6], frame.data[7]] := by
  apply List.ext_getElem
  · simp
  · intro index inside _
    have small : index < 4 := by simpa using inside
    interval_cases index <;> simp

end CanFrame

namespace Motor

theorem shiftLeft_eq_bmod (byte : Byte) {amount : ℕ} (small : amount ≤ 24) :
    shiftLeft byte amount = ((byte.toNat * 2 ^ amount : ℕ) : ℤ).bmod (2 ^ 32) := by
  have bound : byte.toNat * 2 ^ amount < 2 ^ 32 :=
    calc byte.toNat * 2 ^ amount < 2 ^ 8 * 2 ^ amount :=
          Nat.mul_lt_mul_of_pos_right byte.isLt (Nat.pow_pos (by omega))
      _ = 2 ^ (8 + amount) := (Nat.pow_add 2 8 amount).symm
      _ ≤ 2 ^ 32 := Nat.pow_le_pow_right (by omega) (by omega)
  have wide : byte.toNat < 2 ^ 32 := lt_trans byte.isLt (by norm_num)
  simp only [shiftLeft, BitVec.toInt_eq_toNat_bmod, BitVec.toNat_shiftLeft, BitVec.toNat_setWidth,
    Nat.shiftLeft_eq, Nat.mod_eq_of_lt wide, Nat.mod_eq_of_lt bound]

/-- The decoding expression computes the two's-complement value of the four bytes. -/
theorem decodePosition_eq_signed (recBuf : Vector Byte 9) :
    decodePosition recBuf =
      LittleEndian.signed [recBuf[5], recBuf[6], recBuf[7], recBuf[8]] := by
  have lowest := recBuf[5].isLt
  have low := recBuf[6].isLt
  have high := recBuf[7].isLt
  have highest := recBuf[8].isLt
  simp only [decodePosition, shiftLeft_eq_bmod _ (show 8 ≤ 24 by omega),
    shiftLeft_eq_bmod _ (show 16 ≤ 24 by omega), shiftLeft_eq_bmod _ (le_refl 24),
    LittleEndian.signed, LittleEndian.value, List.length_cons, List.length_nil, Int.bmod,
    Nat.reduceAdd, Nat.reducePow, Nat.cast_ofNat]
  push_cast
  omega

/-- The decoding expression sees the data bytes of a frame one place further. -/
theorem decodePosition_received (frame : CanFrame) (address : Word) :
    decodePosition (frame.received address) =
      LittleEndian.signed [frame.data[4], frame.data[5], frame.data[6], frame.data[7]] := by
  rw [decodePosition_eq_signed, frame.received_succ _ (show 4 < 8 by omega),
    frame.received_succ _ (show 5 < 8 by omega), frame.received_succ _ (show 6 < 8 by omega),
    frame.received_succ _ (show 7 < 8 by omega)]

theorem reportedPosition_eq (frame : CanFrame) (address : Word) :
    decodePosition (frame.received address) * (1 / 100 : ℚ) = frame.reportedPosition := by
  rw [decodePosition_received]
  rfl

/-- The lower three bytes stay below `2 ^ 24`, so the shifted top byte overflows neither end. -/
theorem decodePosition?_eq (recBuf : Vector Byte 9) :
    decodePosition? recBuf = some (decodePosition recBuf) := by
  have lowest := recBuf[5].isLt
  have low := recBuf[6].isLt
  have high := recBuf[7].isLt
  have lowEq : shiftLeft recBuf[6] 8 = recBuf[6].toNat * 2 ^ 8 := by
    rw [shiftLeft_eq_bmod _ (show 8 ≤ 24 by omega), Int.bmod_eq_of_le] <;> push_cast <;> omega
  have highEq : shiftLeft recBuf[7] 16 = recBuf[7].toNat * 2 ^ 16 := by
    rw [shiftLeft_eq_bmod _ (show 16 ≤ 24 by omega), Int.bmod_eq_of_le] <;> push_cast <;> omega
  have highestLower : -2 ^ 31 ≤ shiftLeft recBuf[8] 24 := BitVec.le_toInt _
  have highestUpper : shiftLeft recBuf[8] 24 ≤ 2 ^ 31 - 2 ^ 24 := by
    have highest := recBuf[8].isLt
    rw [shiftLeft_eq_bmod _ (le_refl 24)]
    simp only [Int.bmod]
    push_cast
    omega
  simp only [decodePosition?, decodePosition, lowEq, highEq, Option.bind_eq_bind]
  rw [addInt?_of_range (by omega) (by omega), Option.bind_some,
    addInt?_of_range (by omega) (by omega), Option.bind_some,
    addInt?_of_range (by omega) (by omega)]

theorem addressNibble (address : Word) :
    ((0x0F &&& address).setWidth 8).setWidth 32 = 0x0F &&& address := by
  have nibble : (0x0F &&& address).toNat ≤ 15 := by
    rw [BitVec.toNat_and]
    exact Nat.and_le_left
  apply BitVec.eq_of_toNat_eq
  simp only [BitVec.toNat_setWidth]
  omega

/--
The second half of `read_position` either gets no reply and assigns nothing, or the frame it
took is a reply to this motor's request and the assigned value is the position in it.
-/
theorem readPositionReceive_cases (motor : Motor) (readFails : Bool) (bus : CanBus) :
    ((canBusReceive motor.canAddress (cmdByte getPositionMsg) readFails bus).canReply = false ∧
      (motor.readPositionReceive readFails bus).2.2 = none ∧
      (motor.readPositionReceive readFails bus).1 = motor) ∨
    ∃ frame, bus.sRecv.arrived[bus.sRecv.taken]? = some frame ∧
      frame.Answers motor.canAddress (cmdByte getPositionMsg) ∧
      (motor.readPositionReceive readFails bus).2.2 = some (.finite frame.reportedPosition) ∧
      (motor.readPositionReceive readFails bus).1 =
        { motor with position := .finite frame.reportedPosition } ∧
      (motor.readPositionReceive readFails bus).2.1.sRecv.taken = bus.sRecv.taken + 1 := by
  by_cases replied :
      (canBusReceive motor.canAddress (cmdByte getPositionMsg) readFails bus).canReply
  · right
    rcases canBusReceive_of_canReply replied with ⟨frame, delivered, answers, buffer, taken⟩
    have command : (frame.received motor.canAddress)[1] = cmdByte getPositionMsg := by
      rw [frame.received_succ motor.canAddress (show 0 < 8 by omega)]
      exact answers.1.symm
    have address : ((frame.received motor.canAddress)[0]).setWidth 32 =
        0x0F &&& motor.canAddress := by
      rw [frame.received_zero, addressNibble]
    have position := reportedPosition_eq frame motor.canAddress
    refine ⟨frame, delivered, answers, ?_, ?_, ?_⟩ <;>
      simp [readPositionReceive, replied, buffer, command, address, ← position, taken]
  · left
    rw [Bool.not_eq_true] at replied
    simp [readPositionReceive, replied]

/-- Behind the poll, `read_position` writes to no part of the driver but `rec_buf`. -/
theorem readPositionReceive_bus (motor : Motor) (readFails : Bool) (bus : CanBus) :
    ∃ recBuf, (motor.readPositionReceive readFails bus).2.1 =
      { canBusReceive motor.canAddress (cmdByte getPositionMsg) readFails bus with recBuf } := by
  simp only [readPositionReceive]
  split
  · split <;> exact ⟨_, rfl⟩
  · exact ⟨_, rfl⟩

theorem readPositionReceive_sRecv (motor : Motor) (readFails : Bool) (bus : CanBus) :
    (motor.readPositionReceive readFails bus).2.1.sRecv =
      (canBusReceive motor.canAddress (cmdByte getPositionMsg) readFails bus).sRecv := by
  rcases motor.readPositionReceive_bus readFails bus with ⟨recBuf, busEq⟩
  rw [busEq]

theorem readPositionReceive_receiveBuf (motor : Motor) (readFails : Bool) (bus : CanBus) :
    (motor.readPositionReceive readFails bus).2.1.receiveBuf =
      (canBusReceive motor.canAddress (cmdByte getPositionMsg) readFails bus).receiveBuf := by
  rcases motor.readPositionReceive_bus readFails bus with ⟨recBuf, busEq⟩
  rw [busEq]

theorem readPositionReceive_canReply (motor : Motor) (readFails : Bool) (bus : CanBus) :
    (motor.readPositionReceive readFails bus).2.1.canReply =
      (canBusReceive motor.canAddress (cmdByte getPositionMsg) readFails bus).canReply := by
  rcases motor.readPositionReceive_bus readFails bus with ⟨recBuf, busEq⟩
  rw [busEq]

theorem readPositionReceive_canAddress (motor : Motor) (readFails : Bool) (bus : CanBus) :
    (motor.readPositionReceive readFails bus).1.canAddress = motor.canAddress := by
  rcases motor.readPositionReceive_cases readFails bus with
    ⟨-, -, same⟩ | ⟨_, -, -, -, changed, -⟩
  · rw [same]
  · rw [changed]

end Motor

end ArmSimulator
