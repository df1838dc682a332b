import ArmSimulator.Kinematics.Targets

/-!
# The poses within the joint limits

Every pose between 0 and 45 degrees comes back from its tip: `inverse_kinematics` accepts the
point that `forward_kinematics` computes for it, and solves it with the same two angles.
-/

namespace ArmSimulator

namespace Kinematics

theorem radians_le_right_angle {angle : ℝ} (angleLe : angle ≤ 45) :
    radians angle ≤ Real.pi / 2 := by
  have piPos := Real.pi_pos
  have eighthTurn := (radians_le_radians_iff angle 45).mpr angleLe
  rw [radians_eighth_turn] at eighthTurn
  linarith

section

variable {kinematics : Kinematics} (link1Pos : 0 < kinematics.link1Length)
  (link2Pos : 0 < kinematics.link2Length) {pose1 pose2 x y : ℝ} (pose1Nonneg : 0 ≤ pose1)
  (pose1Le : pose1 ≤ 45) (pose2Nonneg : 0 ≤ pose2) (pose2Le : pose2 ≤ 45)
  (forward : kinematics.forwardKinematics pose1 pose2 = (x, y))
include link1Pos link2Pos pose1Nonneg pose1Le pose2Nonneg pose2Le forward

theorem solution_of_pose :
    kinematics.theta1 x y = radians pose1 ∧ kinematics.theta2 x y = radians pose2 := by
  have piPos := Real.pi_pos
  have elbowNonneg := (radians_nonneg_iff pose2).mpr pose2Nonneg
  have elbowLe := radians_le_right_angle pose2Le
  rw [forwardKinematics_eq_iff link1Pos link2Pos] at forward
  rw [theta1_eq link1Pos link2Pos, theta2_eq link1Pos link2Pos, ← forward]
  constructor
  · exact TwoLink.shoulderAngle_tip _ elbowNonneg elbowLe
      ((radians_nonneg_iff pose1).mpr pose1Nonneg) (radians_le_right_angle pose1Le)
  · exact TwoLink.elbowAngle_tip _ elbowNonneg (by linarith)

theorem accepted_of_pose : kinematics.Accepted x y := by
  have solved := (solution_of_pose link1Pos link2Pos pose1Nonneg pose1Le pose2Nonneg pose2Le
    forward).1
  rw [forwardKinematics_eq_iff link1Pos link2Pos] at forward
  rw [accepted_iff link1Pos link2Pos, ← theta1_eq link1Pos link2Pos, solved]
  exact ⟨TwoLink.inReach_iff.mpr ⟨_, _, forward⟩, (radians_nonneg_iff pose1).mpr pose1Nonneg⟩

/--
No pose within the joint limits is turned away, whatever the previous and the incoming angles
are, and its own angles are the ones computed.
-/
theorem inverseKinematics_forwardKinematics
    (joint1AnglePrev joint2AnglePrev joint1Angle joint2Angle : ℝ) :
    (kinematics.inverseKinematics x y joint1AnglePrev joint2AnglePrev joint1Angle
        joint2Angle).1 = true ∧
      kinematics.theta1 x y = radians pose1 ∧ kinematics.theta2 x y = radians pose2 := by
  constructor
  · rw [inverseKinematics_true_iff link1Pos link2Pos]
    exact accepted_of_pose link1Pos link2Pos pose1Nonneg pose1Le pose2Nonneg pose2Le forward
  · exact solution_of_pose link1Pos link2Pos pose1Nonneg pose1Le pose2Nonneg pose2Le forward

end

/-- Both joints of the arm at their upper limits. -/
theorem inverseKinematics_forwardKinematics_corner :
    let target := armKinematics.forwardKinematics 45 45
    (armKinematics.inverseKinematics target.1 target.2 0 0 0 0).1 = true ∧
      armKinematics.theta1 target.1 target.2 = radians 45 ∧
      armKinematics.theta2 target.1 target.2 = radians 45 :=
  inverseKinematics_forwardKinematics armKinematics_link1_pos armKinematics_link2_pos
    (by norm_num) le_rfl (by norm_num) le_rfl rfl 0 0 0 0

end Kinematics

end ArmSimulator
