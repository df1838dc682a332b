import ArmSimulator.Kinematics.Targets

/-!
# The joint limits of `inverse_kinematics`

The solved angles are compared, in radians, with the numbers 0 and 45. The lower limits
hold of every accepted target; the upper limits never reject one.
-/

namespace ArmSimulator

namespace Kinematics

variable (kinematics : Kinematics) (x y joint1AnglePrev joint2AnglePrev joint1Angle joint2Angle : ℝ)

/-- Targets are accepted only within the limits in degrees, and rejected outside them. -/
def LimitsInDegrees : Prop :=
  ((kinematics.inverseKinematics x y joint1AnglePrev joint2AnglePrev joint1Angle
      joint2Angle).1 = true → kinematics.SolvedWithinLimits x y) ∧
    (¬kinematics.SolvedWithinLimits x y →
      (kinematics.inverseKinematics x y joint1AnglePrev joint2AnglePrev joint1Angle
        joint2Angle).1 = false)

variable {kinematics} {x y}

theorem radians_eighth_turn_lt_pi : radians 45 < Real.pi := by
  have piPos := Real.pi_pos
  rw [radians_eighth_turn]
  linarith

theorem joint1AtMost_fortyFive : kinematics.Joint1AtMost x y 45 ↔
    y < x ∨ kinematics.elbowDistanceSq x y 45 ≤ kinematics.link2Length ^ 2 := by
  have halfRootPos : 0 < √2 / 2 := by positivity
  rw [Joint1AtMost, or_iff_right (not_le.mpr radians_eighth_turn_lt_pi), radians_eighth_turn,
    Real.cos_pi_div_four, Real.sin_pi_div_four, mul_lt_mul_iff_left₀ halfRootPos]
  exact and_iff_right (by norm_num)

theorem joint2AtMost_fortyFive : kinematics.Joint2AtMost x y 45 ↔
    kinematics.tipDistanceSq 45 ≤ x ^ 2 + y ^ 2 := by
  rw [Joint2AtMost, or_iff_right (not_le.mpr radians_eighth_turn_lt_pi)]
  exact and_iff_right (by norm_num)

section

variable (link1Pos : 0 < kinematics.link1Length) (link2Pos : 0 < kinematics.link2Length)
include link1Pos link2Pos

theorem solvedWithinLimits_iff (accepted : kinematics.Accepted x y) :
    kinematics.SolvedWithinLimits x y ↔
      kinematics.Joint1AtMost x y 45 ∧ kinematics.Joint2AtMost x y 45 := by
  have atLeast1 := (joint1AtLeast_iff link1Pos link2Pos accepted 0).mpr (Or.inl (le_refl 0))
  have atLeast2 := (joint2AtLeast_iff link1Pos link2Pos accepted 0).mpr (Or.inl (le_refl 0))
  rw [SolvedWithinLimits, joint1AtMost_iff link1Pos link2Pos accepted,
    joint2AtMost_iff link1Pos link2Pos accepted]
  simp only [atLeast1, atLeast2, true_and]

/--
The limits are kept exactly when the target is not accepted, or is far enough from the
first joint for the second angle and low enough for the first.
-/
theorem limitsInDegrees_iff :
    kinematics.LimitsInDegrees x y joint1AnglePrev joint2AnglePrev joint1Angle joint2Angle ↔
      (kinematics.Accepted x y →
        (y < x ∨ kinematics.elbowDistanceSq x y 45 ≤ kinematics.link2Length ^ 2) ∧
          kinematics.tipDistanceSq 45 ≤ x ^ 2 + y ^ 2) := by
  rw [← joint1AtMost_fortyFive, ← joint2AtMost_fortyFive, LimitsInDegrees, ← Bool.not_eq_true,
    inverseKinematics_true_iff link1Pos link2Pos]
  constructor
  · rintro ⟨within, -⟩ accepted
    exact (solvedWithinLimits_iff link1Pos link2Pos accepted).mp (within accepted)
  · intro limits
    have within : kinematics.Accepted x y → kinematics.SolvedWithinLimits x y := fun accepted =>
      (solvedWithinLimits_iff link1Pos link2Pos accepted).mpr (limits accepted)
    exact ⟨within, mt within⟩

end

theorem limitsInDegrees_iff_stretched : LimitsInDegrees armKinematics (64 / 100) 0 0 0 0 0 := by
  apply (limitsInDegrees_iff 0 0 0 0 armKinematics_link1_pos armKinematics_link2_pos).mpr
  intro accepted
  refine ⟨Or.inl (by norm_num), ?_⟩
  have := Real.cos_le_one (radians 45)
  simp only [tipDistanceSq, armKinematics, two_nsmul]
  linarith

/-- The second joint at 90 degrees is accepted. -/
theorem rightAngle_not_limitsInDegrees :
    (armKinematics.inverseKinematics (33 / 100) (31 / 100) 0 0 0 0).1 = true ∧
      degrees (armKinematics.theta2 (33 / 100) (31 / 100)) = 90 ∧
      ¬LimitsInDegrees armKinematics (33 / 100) (31 / 100) 0 0 0 0 := by
  have returned : (armKinematics.inverseKinematics (33 / 100) (31 / 100) 0 0 0 0).1 = true := by
    rw [inverseKinematics_true_iff armKinematics_link1_pos armKinematics_link2_pos]
    exact accepted_rightAngle
  refine ⟨returned, theta2_rightAngle, ?_⟩
  rintro ⟨within, -⟩
  have atMost := (within returned).2.2
  rw [theta2_rightAngle] at atMost
  norm_num at atMost

end Kinematics

end ArmSimulator
