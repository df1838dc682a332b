import Mathlib.Tactic.Positivity
import ArmSimulator.Kinematics.Model
import ArmSimulator.Lib.TwoLink

/-!
# The solution of `inverse_kinematics`

The arm with positive link lengths is a chain of two links. Its forward map is the tip of
the chain, and the local variables of `inverse_kinematics` are the closed form of the
chain.
-/

namespace ArmSimulator

namespace Kinematics

theorem radians_degrees (angle : ℝ) : radians (degrees angle) = angle := by
  have piPos := Real.pi_pos
  rw [radians, degrees]
  field_simp

theorem degrees_radians (angle : ℝ) : degrees (radians angle) = angle := by
  have piPos := Real.pi_pos
  rw [radians, degrees]
  field_simp

theorem degrees_le_iff (angle limit : ℝ) : degrees angle ≤ limit ↔ angle ≤ radians limit := by
  rw [degrees, radians, div_le_iff₀ Real.pi_pos, le_div_iff₀ (by norm_num)]

theorem le_degrees_iff (angle limit : ℝ) : limit ≤ degrees angle ↔ radians limit ≤ angle := by
  rw [degrees, radians, le_div_iff₀ Real.pi_pos, div_le_iff₀ (by norm_num)]

section

variable {kinematics : Kinematics} (link1Pos : 0 < kinematics.link1Length)
  (link2Pos : 0 < kinematics.link2Length)

def chain (link1Pos : 0 < kinematics.link1Length) (link2Pos : 0 < kinematics.link2Length) :
    TwoLink :=
  ⟨kinematics.link1Length, kinematics.link2Length, link1Pos, link2Pos⟩

/-- `forward_kinematics` computes the tip of the chain. -/
theorem forwardKinematics_eq_tip (joint1Angle joint2Angle : ℝ) :
    kinematics.forwardKinematics joint1Angle joint2Angle =
      (((chain link1Pos link2Pos).tip (radians joint1Angle) (radians joint2Angle)).re,
        ((chain link1Pos link2Pos).tip (radians joint1Angle) (radians joint2Angle)).im) := by
  simp only [forwardKinematics, TwoLink.tip, Complex.mul_re, Complex.mul_im, TwoLink.spread_re,
    TwoLink.spread_im, Complex.exp_ofReal_mul_I_re, Complex.exp_ofReal_mul_I_im, chain, radians,
    Real.cos_add, Real.sin_add, Prod.mk.injEq]
  constructor <;> ring

variable (x y : ℝ)

theorem forwardKinematics_eq_iff (joint1Angle joint2Angle : ℝ) :
    kinematics.forwardKinematics joint1Angle joint2Angle = (x, y) ↔
      (chain link1Pos link2Pos).tip (radians joint1Angle) (radians joint2Angle) = ⟨x, y⟩ := by
  rw [forwardKinematics_eq_tip link1Pos link2Pos, Complex.ext_iff, Prod.mk.injEq]

theorem c2_eq : kinematics.c2 x y = (chain link1Pos link2Pos).elbowCos ⟨x, y⟩ := by
  simp only [c2, TwoLink.elbowCos, TwoLink.norm_sq_eq, chain, two_nsmul, two_mul, add_mul]

theorem theta2_eq : kinematics.theta2 x y = (chain link1Pos link2Pos).elbowAngle ⟨x, y⟩ := by
  rw [theta2, c2_eq link1Pos link2Pos, TwoLink.elbowAngle]

theorem theta1_eq :
    kinematics.theta1 x y = (chain link1Pos link2Pos).shoulderAngle ⟨x, y⟩ := by
  have spreadEq : (⟨kinematics.k1 x y, kinematics.k2 x y⟩ : ℂ) =
      (chain link1Pos link2Pos).spread ((chain link1Pos link2Pos).elbowAngle ⟨x, y⟩) := by
    simp only [Complex.ext_iff, TwoLink.spread_re, TwoLink.spread_im, k1, k2,
      theta2_eq link1Pos link2Pos, chain, and_self]
  rw [theta1, TwoLink.shoulderAngle, atan2, atan2, spreadEq]

theorem inReach_iff_c2 : (chain link1Pos link2Pos).InReach ⟨x, y⟩ ↔
    -1 ≤ kinematics.c2 x y ∧ kinematics.c2 x y ≤ 1 := by
  rw [c2_eq link1Pos link2Pos, TwoLink.InReach]

include link1Pos link2Pos

theorem forwardKinematics_solved
    (reach : -1 ≤ kinematics.c2 x y ∧ kinematics.c2 x y ≤ 1) :
    kinematics.forwardKinematics (degrees (kinematics.theta1 x y))
      (degrees (kinematics.theta2 x y)) = (x, y) := by
  rw [forwardKinematics_eq_iff link1Pos link2Pos, radians_degrees, radians_degrees,
    theta1_eq link1Pos link2Pos, theta2_eq link1Pos link2Pos]
  exact TwoLink.tip_solution ((inReach_iff_c2 link1Pos link2Pos x y).mpr reach)

/--
The reachability test passes exactly on the targets that some pair of joint angles reaches,
and then the computed angles reach the target.
-/
theorem solution_exact :
    (-1 ≤ kinematics.c2 x y ∧ kinematics.c2 x y ≤ 1 ↔
      ∃ joint1Angle joint2Angle,
        kinematics.forwardKinematics joint1Angle joint2Angle = (x, y)) ∧
    (-1 ≤ kinematics.c2 x y ∧ kinematics.c2 x y ≤ 1 →
      kinematics.forwardKinematics (degrees (kinematics.theta1 x y))
        (degrees (kinematics.theta2 x y)) = (x, y)) := by
  refine ⟨?_, forwardKinematics_solved link1Pos link2Pos x y⟩
  constructor
  · intro reach
    exact ⟨_, _, forwardKinematics_solved link1Pos link2Pos x y reach⟩
  · rintro ⟨joint1Angle, joint2Angle, forward⟩
    rw [forwardKinematics_eq_iff link1Pos link2Pos] at forward
    exact (inReach_iff_c2 link1Pos link2Pos x y).mp
      (TwoLink.inReach_iff.mpr ⟨_, _, forward⟩)

end

/-- Two links of length one reach the target (1, 1) in the computed pose. -/
theorem solution_exact_diagonal :
    Kinematics.forwardKinematics ⟨1, 1⟩ (degrees (Kinematics.theta1 ⟨1, 1⟩ 1 1))
      (degrees (Kinematics.theta2 ⟨1, 1⟩ 1 1)) = (1, 1) :=
  (@solution_exact ⟨1, 1⟩ one_pos one_pos 1 1).2 (by norm_num [c2])

end Kinematics

end ArmSimulator
