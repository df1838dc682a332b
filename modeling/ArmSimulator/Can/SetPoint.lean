import ArmSimulator.Can.Motor

/-!
# Commanded positions

`set_position` scales a position to hundredths through an unsigned word and sends the word
lowest byte first; `read_position` decodes the same bytes of a reply as a signed word. The
permitted range reaches down to `-90`, but the conversion to the unsigned word is defined
only for positions above `-0.01`.
-/

namespace ArmSimulator.Motor

def ConversionDefined (newPosition : CFloat) : Prop :=
  (newPosition.mul (.ofInt positionScale)).toUInt32?.isSome

/--
The position goes through the wire: its conversion is defined, and `set_position` sends
one frame to the motor, whose target bytes decode to the position in whole hundredths.
-/
def RoundTrips (motor : Motor) (position : ℚ) : Prop :=
  ConversionDefined (.finite position) ∧
    ∀ unrepresentable during readFails bus, ∃ frame,
      (motor.setPosition (.finite position) unrepresentable during readFails bus).sSend =
          bus.sSend ++ [frame] ∧
        frame.canId = motor.canAddress ∧
        (decodePosition (frame.received motor.canAddress) : ℚ) * (1 / 100) =
          CFloat.truncate (100 * position) / 100

theorem inRangeOf_finite_iff (position : ℚ) :
    inRangeOf (.finite position) = true ↔ -90 ≤ position ∧ position ≤ 90 := by
  simp only [inRangeOf, CFloat.lt, CFloat.ofInt, minPosition, maxPosition, decide_eq_true_eq]
  split
  · rename_i below
    simp only [Bool.false_eq_true, false_iff, not_and]
    intro lower
    push_cast at below
    linarith
  · rename_i notBelow
    split
    · rename_i above
      simp only [Bool.false_eq_true, false_iff, not_and]
      intro _
      push_cast at above
      linarith
    · rename_i notAbove
      push_cast at notBelow notAbove
      simp only [true_iff]
      exact ⟨not_lt.mp notBelow, not_lt.mp notAbove⟩

theorem setPosition_sSend {newPosition : CFloat} (inRange : inRangeOf newPosition = true)
    (motor : Motor) (unrepresentable : Word) (during : List CanFrame) (readFails : Bool)
    (bus : CanBus) :
    (motor.setPosition newPosition unrepresentable during readFails bus).sSend =
      bus.sSend ++ [⟨motor.canAddress, 8,
        setPositionBuf (newPositionScaled newPosition unrepresentable)⟩] := by
  simp [setPosition, inRange, setPositionReceive, setPositionSend]

theorem bytes_four (word : Word) :
    LittleEndian.bytes 4 word.toNat =
      [word.setWidth 8, (word >>> 8).setWidth 8, (word >>> 16).setWidth 8,
        (word >>> 24).setWidth 8] := by
  simp only [LittleEndian.bytes, List.cons.injEq, and_true]
  refine ⟨?_, ?_, ?_, ?_⟩ <;> apply BitVec.eq_of_toNat_eq <;>
    simp [BitVec.toNat_setWidth, Nat.shiftRight_eq_div_pow, Nat.div_div_eq_div_mul]

/-- The target bytes of a command are the bytes of its word, lowest first. -/
theorem setPositionBuf_drop (word : Word) :
    (setPositionBuf word).toList.drop 4 = LittleEndian.bytes 4 word.toNat := by
  rw [bytes_four]
  rfl

/-- A frame that carries the target bytes of a command decodes to the signed value of the word. -/
theorem decodePosition_of_carries {frame : CanFrame} {word : Word}
    (carries : frame.data.toList.drop 4 = (setPositionBuf word).toList.drop 4) (address : Word) :
    decodePosition (frame.received address) = word.toInt := by
  rw [decodePosition_received, ← frame.drop_four, carries, setPositionBuf_drop,
    LittleEndian.signed_bytes 4]

/-- The scaled position converts exactly when it does not truncate below zero. -/
theorem conversionDefined_iff {position : ℚ} (upper : position ≤ 90) :
    ConversionDefined (.finite position) ↔ -(1 / 100) < position := by
  have small : CFloat.truncate (position * 100) ≤ 9000 := by
    apply CFloat.truncate_le
    push_cast
    linarith
  have scaled : -1 < position * 100 ↔ -(1 / 100) < position := by
    constructor <;> intro above <;> linarith
  simp only [ConversionDefined, CFloat.mul, CFloat.ofInt, positionScale, CFloat.toUInt32?,
    Int.cast_ofNat]
  rw [← scaled, ← CFloat.truncate_nonneg_iff]
  split
  · rename_i representable
    simp [representable.1]
  · rename_i unrepresentable
    simp only [Option.isSome_none, Bool.false_eq_true, false_iff]
    intro nonneg
    exact unrepresentable ⟨nonneg, by omega⟩

/-- A permitted position goes through the wire exactly when it is above `-0.01`. -/
theorem roundTrips_iff (motor : Motor) {position : ℚ} (lower : -90 ≤ position)
    (upper : position ≤ 90) : motor.RoundTrips position ↔ -(1 / 100) < position := by
  constructor
  · rintro ⟨defined, -⟩
    exact (conversionDefined_iff upper).mp defined
  · intro above
    have defined := (conversionDefined_iff upper).mpr above
    refine ⟨defined, ?_⟩
    intro unrepresentable during readFails bus
    have inRange := (inRangeOf_finite_iff position).mpr ⟨lower, upper⟩
    refine ⟨_, motor.setPosition_sSend inRange unrepresentable during readFails bus, rfl, ?_⟩
    rw [decodePosition_of_carries rfl, newPositionScaled]
    -- The converted word is the truncated position, and small enough to be nonnegative.
    have nonneg : 0 ≤ CFloat.truncate (position * 100) :=
      CFloat.truncate_nonneg_iff.mpr (by linarith)
    have small : CFloat.truncate (position * 100) ≤ 9000 := by
      apply CFloat.truncate_le
      push_cast
      linarith
    have word : ((CFloat.finite position).mul (.ofInt positionScale)).toUInt32? =
        some (BitVec.ofInt 32 (CFloat.truncate (position * 100))) := by
      simp only [CFloat.mul, CFloat.ofInt, positionScale, CFloat.toUInt32?, Int.cast_ofNat]
      rw [if_pos ⟨nonneg, by omega⟩]
    have value : (BitVec.ofInt 32 (CFloat.truncate (position * 100))).toInt =
        CFloat.truncate (position * 100) := by
      rw [BitVec.toInt_ofInt]
      apply Int.bmod_eq_of_le <;> omega
    rw [word, Option.getD_some, value, mul_comm position]
    ring

theorem roundTrips_iff_twenty :
    (Motor.mk .nan 0x141).RoundTrips 20 ↔ -(1 / 100) < (20 : ℚ) :=
  (Motor.mk .nan 0x141).roundTrips_iff (by norm_num) (by norm_num)

theorem minPosition_not_roundTrips :
    inRangeOf (.ofInt minPosition) = true ∧
      ¬(Motor.mk .nan 0x141).RoundTrips (minPosition : ℚ) := by
  refine ⟨(inRangeOf_finite_iff _).mpr (by norm_num [minPosition]), ?_⟩
  rintro ⟨defined, -⟩
  have above := (conversionDefined_iff (by norm_num [minPosition])).mp defined
  norm_num [minPosition] at above

end ArmSimulator.Motor
