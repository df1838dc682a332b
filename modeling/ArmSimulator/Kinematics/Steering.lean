import ArmSimulator.Kinematics.Targets

/-!
# The step of `inverse_kinematics`

The references are both the input of the velocity limit and its output, so the limited step
goes to the incoming angles. It is the step to the solved angles when the two cannot be told
apart within one step.
-/

namespace ArmSimulator

namespace Kinematics

/-- The value of the given range that is closest to `value`. -/
noncomputable def clamp (bound value : ℝ) : ℝ := max (-bound) (min bound value)

theorem maxDelta_pos : 0 < maxDelta := by
  rw [maxDelta_eq]
  exact div_pos Real.pi_pos (by norm_num)

theorem limitDelta_eq_clamp (delta : ℝ) : limitDelta delta = clamp maxDelta delta := by
  have positive := maxDelta_pos
  rw [limitDelta, clamp, copysign, abs_of_pos positive]
  split_ifs with large negative
  · rw [gt_iff_lt, abs_of_neg negative] at large
    rw [min_eq_right (by linarith), max_eq_left (by linarith)]
  · rw [gt_iff_lt, abs_of_nonneg (not_lt.mp negative)] at large
    rw [min_eq_left large.le, max_eq_right (by linarith)]
  · rw [gt_iff_lt, not_lt, abs_le] at large
    rw [min_eq_right large.2, max_eq_right large.1]

/-- Two angles give one step exactly when they are equal or past the same end of the range. -/
theorem clamp_eq_clamp_iff {bound : ℝ} (positive : 0 < bound) (prev first second : ℝ) :
    clamp bound (first - prev) = clamp bound (second - prev) ↔
      second = first ∨ (prev + bound ≤ first ∧ prev + bound ≤ second) ∨
        (first ≤ prev - bound ∧ second ≤ prev - bound) := by
  simp only [clamp]
  grind

variable (kinematics : Kinematics) (x y joint1AnglePrev joint2AnglePrev joint1Angle joint2Angle : ℝ)

/--
An accepted call steps from the previous angles towards the solved ones, and reaches the
target when both are within one step.
-/
def SteersToTarget : Prop :=
  let result := kinematics.inverseKinematics x y joint1AnglePrev joint2AnglePrev joint1Angle
    joint2Angle
  let solved1 := degrees (kinematics.theta1 x y)
  let solved2 := degrees (kinematics.theta2 x y)
  result.1 = true →
    result.2.1 = joint1AnglePrev + clamp maxDelta (solved1 - joint1AnglePrev) ∧
      result.2.2 = joint2AnglePrev + clamp maxDelta (solved2 - joint2AnglePrev) ∧
      (|solved1 - joint1AnglePrev| ≤ maxDelta → |solved2 - joint2AnglePrev| ≤ maxDelta →
        kinematics.forwardKinematics result.2.1 result.2.2 = (x, y))

/-- The incoming angle of a joint is the one that the target needs, or both are past the same
end of the range of one step. -/
def SameStep (AtMost AtLeast : ℝ → Prop) (prev angle : ℝ) : Prop :=
  (AtMost angle ∧ AtLeast angle) ∨ (prev + maxDelta ≤ angle ∧ AtLeast (prev + maxDelta)) ∨
    (angle ≤ prev - maxDelta ∧ AtMost (prev - maxDelta))

theorem clamp_of_abs_le {bound value : ℝ} (within : |value| ≤ bound) :
    clamp bound value = value := by
  rw [abs_le] at within
  rw [clamp, min_eq_right within.2, max_eq_right within.1]

theorem sameStep_iff {AtMost AtLeast : ℝ → Prop} {solved : ℝ}
    (atMostIff : ∀ limit, solved ≤ limit ↔ AtMost limit)
    (atLeastIff : ∀ limit, limit ≤ solved ↔ AtLeast limit) (prev angle : ℝ) :
    prev + limitDelta (angle - prev) = prev + clamp maxDelta (solved - prev) ↔
      SameStep AtMost AtLeast prev angle := by
  rw [limitDelta_eq_clamp, add_right_inj, clamp_eq_clamp_iff maxDelta_pos, SameStep,
    ← atMostIff, ← atLeastIff, ← atLeastIff, ← atMostIff, le_antisymm_iff]

variable {kinematics} {x y}
variable (link1Pos : 0 < kinematics.link1Length) (link2Pos : 0 < kinematics.link2Length)
include link1Pos link2Pos

theorem forwardKinematics_of_within (accepted : kinematics.Accepted x y) {prev1 prev2 : ℝ}
    (within1 : |degrees (kinematics.theta1 x y) - prev1| ≤ maxDelta)
    (within2 : |degrees (kinematics.theta2 x y) - prev2| ≤ maxDelta) :
    kinematics.forwardKinematics
      (prev1 + clamp maxDelta (degrees (kinematics.theta1 x y) - prev1))
      (prev2 + clamp maxDelta (degrees (kinematics.theta2 x y) - prev2)) = (x, y) := by
  have reach := ((accepted_iff link1Pos link2Pos).mp accepted).1
  rw [clamp_of_abs_le within1, clamp_of_abs_le within2, add_sub_cancel, add_sub_cancel]
  exact forwardKinematics_solved link1Pos link2Pos x y
    ((inReach_iff_c2 link1Pos link2Pos x y).mp reach)

/--
The arm is steered to the target exactly when the target is rejected, or for each joint the
incoming angle is the one that the target needs or beyond the same end of the step range.
-/
theorem steersToTarget_iff :
    kinematics.SteersToTarget x y joint1AnglePrev joint2AnglePrev joint1Angle joint2Angle ↔
      (kinematics.Accepted x y →
        SameStep (kinematics.Joint1AtMost x y) (kinematics.Joint1AtLeast x y) joint1AnglePrev
          joint1Angle ∧
        SameStep (kinematics.Joint2AtMost x y) (kinematics.Joint2AtLeast x y) joint2AnglePrev
          joint2Angle) := by
  simp only [SteersToTarget]
  rw [inverseKinematics_true_iff link1Pos link2Pos]
  apply forall_congr'
  intro accepted
  have step1Iff := sameStep_iff (joint1AtMost_iff link1Pos link2Pos accepted)
    (joint1AtLeast_iff link1Pos link2Pos accepted) joint1AnglePrev joint1Angle
  have step2Iff := sameStep_iff (joint2AtMost_iff link1Pos link2Pos accepted)
    (joint2AtLeast_iff link1Pos link2Pos accepted) joint2AnglePrev joint2Angle
  rw [inverseKinematics_of_accepted link1Pos link2Pos _ _ _ _ accepted, ← step1Iff, ← step2Iff]
  constructor
  · rintro ⟨step1, step2, -⟩
    exact ⟨step1, step2⟩
  · rintro ⟨step1, step2⟩
    refine ⟨step1, step2, ?_⟩
    intro within1 within2
    simp only [step1, step2]
    exact forwardKinematics_of_within link1Pos link2Pos accepted within1 within2

omit link1Pos link2Pos

theorem radians_quarter_turn : radians 90 = Real.pi / 2 := by
  rw [radians]
  ring

theorem radians_quarter_turn_le_pi : radians 90 ≤ Real.pi := by
  have piPos := Real.pi_pos
  rw [radians_quarter_turn]
  linarith

theorem tipDistanceSq_rightAngle :
    armKinematics.tipDistanceSq 90 = (33 / 100) ^ 2 + (31 / 100) ^ 2 := by
  rw [tipDistanceSq, radians_quarter_turn, Real.cos_pi_div_two, mul_zero, nsmul_zero, add_zero,
    armKinematics]

theorem steersToTarget_iff_rightAngle :
    SteersToTarget armKinematics (33 / 100) (31 / 100) 0 90 0 90 := by
  apply (steersToTarget_iff 0 90 0 90 armKinematics_link1_pos armKinematics_link2_pos).mpr
  intro accepted
  have atMost1 : armKinematics.Joint1AtMost (33 / 100) (31 / 100) 0 := by
    norm_num [Joint1AtMost, elbowDistanceSq, radians, armKinematics]
  have atLeast1 : armKinematics.Joint1AtLeast (33 / 100) (31 / 100) 0 := Or.inl (le_refl 0)
  have atMost2 : armKinematics.Joint2AtMost (33 / 100) (31 / 100) 90 :=
    Or.inr ⟨by norm_num, tipDistanceSq_rightAngle.le⟩
  have atLeast2 : armKinematics.Joint2AtLeast (33 / 100) (31 / 100) 90 :=
    Or.inr ⟨radians_quarter_turn_le_pi, tipDistanceSq_rightAngle.ge⟩
  exact ⟨Or.inl ⟨atMost1, atLeast1⟩, Or.inl ⟨atMost2, atLeast2⟩⟩

/-- Called with the present angles as incoming ones, the step is zero, although the second
joint is 90 degrees away from its solution. -/
theorem rightAngle_not_steersToTarget :
    armKinematics.inverseKinematics (33 / 100) (31 / 100) 0 0 0 0 = (true, 0, 0) ∧
      degrees (armKinematics.theta2 (33 / 100) (31 / 100)) = 90 ∧
      ¬SteersToTarget armKinematics (33 / 100) (31 / 100) 0 0 0 0 := by
  have positive := maxDelta_pos
  have still : limitDelta 0 = 0 := by
    rw [limitDelta_eq_clamp, clamp_of_abs_le]
    rw [abs_zero]
    exact positive.le
  have returned : armKinematics.inverseKinematics (33 / 100) (31 / 100) 0 0 0 0 = (true, 0, 0) := by
    rw [inverseKinematics_of_accepted armKinematics_link1_pos armKinematics_link2_pos _ _ _ _
      accepted_rightAngle]
    simp [still]
  refine ⟨returned, theta2_rightAngle, ?_⟩
  intro steers
  have step2 := (steers (by rw [returned])).2.1
  rw [returned, theta2_rightAngle, clamp] at step2
  have towards : 0 < min maxDelta (90 - 0) := lt_min positive (by norm_num)
  have := le_max_right (-maxDelta) (min maxDelta (90 - 0))
  simp only at step2
  linarith

end Kinematics

end ArmSimulator
