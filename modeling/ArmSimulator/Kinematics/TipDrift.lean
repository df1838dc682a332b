import ArmSimulator.Kinematics.Runs

/-!
# How far a run moves the tip

The velocity limit is a limit on joint angles. Through `forward_kinematics` it limits the way
of the tip as well: the inner link carries both joints along, the outer one turns with the sum
of the two angles.
-/

namespace ArmSimulator

namespace Kinematics

/-- The square of the distance between the tips of two poses. -/
noncomputable def tipMoveSq (kinematics : Kinematics) (pose other : ℝ × ℝ) : ℝ :=
  let tip := kinematics.forwardKinematics pose.1 pose.2
  let otherTip := kinematics.forwardKinematics other.1 other.2
  (tip.1 - otherTip.1) ^ 2 + (tip.2 - otherTip.2) ^ 2

theorem abs_radians_sub (first second : ℝ) :
    |radians first - radians second| = radians |first - second| := by
  have factored : radians first - radians second = (first - second) * (Real.pi / 180) := by
    rw [radians, radians]
    ring
  have piPos : 0 < Real.pi / 180 := div_pos Real.pi_pos (by norm_num)
  rw [factored, abs_mul, abs_of_pos piPos, radians]
  ring

section

variable {kinematics : Kinematics} (link1Pos : 0 < kinematics.link1Length)
  (link2Pos : 0 < kinematics.link2Length)

include link1Pos link2Pos

/-- If each joint moves by at most the given degrees, the tip moves by at most the arcs that
the inner link makes of them and the outer link makes of their double. -/
theorem tipMoveSq_le {pose other : ℝ × ℝ} {limit : ℝ} (joint1 : |pose.1 - other.1| ≤ limit)
    (joint2 : |pose.2 - other.2| ≤ limit) :
    kinematics.tipMoveSq pose other ≤
      ((kinematics.link1Length + 2 * kinematics.link2Length) * radians limit) ^ 2 := by
  have first : |radians pose.1 - radians other.1| ≤ radians limit := by
    rw [abs_radians_sub]
    exact (radians_le_radians_iff _ _).mpr joint1
  have second : |radians pose.2 - radians other.2| ≤ radians limit := by
    rw [abs_radians_sub]
    exact (radians_le_radians_iff _ _).mpr joint2
  have both : |(radians pose.1 + radians pose.2) - (radians other.1 + radians other.2)| ≤
      radians limit + radians limit := by
    rw [add_sub_add_comm]
    exact (abs_add_le _ _).trans (add_le_add first second)
  have moved : ‖(chain link1Pos link2Pos).tip (radians pose.1) (radians pose.2) -
      (chain link1Pos link2Pos).tip (radians other.1) (radians other.2)‖ ≤
        (kinematics.link1Length + 2 * kinematics.link2Length) * radians limit := by
    refine (TwoLink.norm_tip_sub_le _ _ _ _).trans ?_
    calc _ ≤ kinematics.link1Length * radians limit +
          kinematics.link2Length * (radians limit + radians limit) :=
        add_le_add (mul_le_mul_of_nonneg_left first link1Pos.le)
          (mul_le_mul_of_nonneg_left both link2Pos.le)
      _ = _ := by ring
  have squared := pow_le_pow_left₀ (norm_nonneg _) moved 2
  rw [TwoLink.norm_sq_eq, Complex.sub_re, Complex.sub_im] at squared
  simpa only [tipMoveSq, forwardKinematics_eq_tip link1Pos link2Pos] using squared

/--
In a run whose rejected calls are at rest, the tip ends within an arc of one step per call of
where it started: the angles are limited in degrees, and so is the way of the tip.
-/
theorem calls_tipDrift (start : ℝ × ℝ) (calls : List Call)
    (atRest : ∀ record ∈ (Machine.trace kinematics.call start calls).2, record.AtRest) :
    kinematics.tipMoveSq (Machine.trace kinematics.call start calls).1 start ≤
      (calls.length *
        ((kinematics.link1Length + 2 * kinematics.link2Length) * radians maxDelta)) ^ 2 := by
  have drift := Machine.dist_trace_le kinematics.call CallRecord.AtRest kinematics.dist_call_le
    start calls atRest
  rw [Prod.dist_eq, max_le_iff, Real.dist_eq, Real.dist_eq] at drift
  have moved := tipMoveSq_le link1Pos link2Pos drift.1 drift.2
  have scaled : radians (calls.length * maxDelta) = calls.length * radians maxDelta := by
    rw [radians, radians]
    ring
  rw [scaled, mul_left_comm] at moved
  exact moved

end

theorem calls_tipDrift_rejectedThenReached :
    armKinematics.tipMoveSq
      (Machine.trace armKinematics.call (0, 0) rejectedThenReached).1 (0, 0) ≤
        (rejectedThenReached.length *
          ((armKinematics.link1Length + 2 * armKinematics.link2Length) *
            radians maxDelta)) ^ 2 :=
  calls_tipDrift armKinematics_link1_pos armKinematics_link2_pos (0, 0) rejectedThenReached
    rejectedThenReached_atRest

end Kinematics

end ArmSimulator
