import ArmSimulator.Can.SetPoint

/-!
# The guard of `set_position`

The overload of `in_range` with an argument rejects what fails one of two comparisons, the
other one accepts what passes both. A comparison with NaN is false, so the two differ there,
and only there: `set_position` sends a frame for a position that is no number.
-/

namespace ArmSimulator.Motor

/-- A number in the range of motion. -/
def Permitted (position : CFloat) : Prop :=
  ∃ value : ℚ, position = .finite value ∧ -90 ≤ value ∧ value ≤ 90

/-- Nothing but a permitted position gets past the guard, and both overloads say so. -/
structure GuardSound (motor : Motor) (newPosition : CFloat) (unrepresentable : Word)
    (during : List CanFrame) (readFails : Bool) (bus : CanBus) : Prop where
  refused_sends_nothing : ¬Permitted newPosition →
    (motor.setPosition newPosition unrepresentable during readFails bus).sSend = bus.sSend
  refused_takes_nothing : ¬Permitted newPosition →
    (motor.setPosition newPosition unrepresentable during readFails bus).sRecv =
      bus.sRecv.pushAll during
  overloads_agree : inRange { motor with position := newPosition } = inRangeOf newPosition

theorem permitted_finite_iff (value : ℚ) :
    Permitted (.finite value) ↔ -90 ≤ value ∧ value ≤ 90 := by
  simp [Permitted]

theorem inRange_iff (motor : Motor) : motor.inRange = true ↔ Permitted motor.position := by
  cases position : motor.position with
  | finite value =>
      rw [permitted_finite_iff]
      simp [inRange, position, CFloat.le, CFloat.ofInt, minPosition, maxPosition]
  | inf negative => cases negative <;> simp [inRange, position, CFloat.le, CFloat.ofInt, Permitted]
  | nan => simp [inRange, position, CFloat.le, CFloat.ofInt, Permitted]

/-- NaN passes, since it is neither below nor above the range. -/
theorem inRangeOf_iff (positionCheck : CFloat) :
    inRangeOf positionCheck = true ↔ Permitted positionCheck ∨ positionCheck = .nan := by
  cases positionCheck with
  | finite value =>
      rw [inRangeOf_finite_iff, permitted_finite_iff]
      simp
  | inf negative => cases negative <;> simp [inRangeOf, CFloat.lt, CFloat.ofInt, Permitted]
  | nan => simp [inRangeOf, CFloat.lt, CFloat.ofInt]

theorem setPosition_of_not_inRange {newPosition : CFloat} (outside : inRangeOf newPosition = false)
    (motor : Motor) (unrepresentable : Word) (during : List CanFrame) (readFails : Bool)
    (bus : CanBus) :
    motor.setPosition newPosition unrepresentable during readFails bus = bus.deliver during := by
  simp [setPosition, outside]

/-- The guard is sound for every position that is not NaN. -/
theorem guardSound_iff (motor : Motor) (newPosition : CFloat) (unrepresentable : Word)
    (during : List CanFrame) (readFails : Bool) (bus : CanBus) :
    motor.GuardSound newPosition unrepresentable during readFails bus ↔ newPosition ≠ .nan := by
  constructor
  · rintro sound rfl
    have silent := sound.refused_sends_nothing (by simp [Permitted])
    rw [setPosition_sSend ((inRangeOf_iff _).mpr (Or.inr rfl))] at silent
    simp at silent
  · intro number
    have guardIff : inRangeOf newPosition = true ↔ Permitted newPosition := by
      rw [inRangeOf_iff, or_iff_left number]
    have refused : ¬Permitted newPosition → inRangeOf newPosition = false := by
      intro outside
      rwa [← guardIff, Bool.not_eq_true] at outside
    refine ⟨?_, ?_, ?_⟩
    · intro outside
      rw [setPosition_of_not_inRange (refused outside)]
      rfl
    · intro outside
      rw [setPosition_of_not_inRange (refused outside)]
      rfl
    · rw [Bool.eq_iff_iff, inRange_iff, guardIff]

/-- The elbow motor is sent a frame for NaN, which its own position fails to be in range. -/
theorem nan_not_guardSound :
    ((Motor.mk .nan 0x141).setPosition .nan 0 [] false .initial).sSend.length = 1 ∧
      (Motor.mk .nan 0x141).inRange = false ∧ inRangeOf .nan = true ∧
      ¬(Motor.mk .nan 0x141).GuardSound .nan 0 [] false .initial := by
  refine ⟨rfl, rfl, rfl, ?_⟩
  intro sound
  have agree := sound.overloads_agree
  contradiction

end ArmSimulator.Motor
