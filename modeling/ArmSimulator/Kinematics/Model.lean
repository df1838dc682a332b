import Mathlib.Analysis.SpecialFunctions.Complex.Arg
import Mathlib.Analysis.SpecialFunctions.Trigonometric.Inverse

/-!
# Forward and inverse kinematics

The class `Kinematics` over exact real arithmetic. Joint angles are in degrees for
`forward_kinematics`; the angles that `inverse_kinematics` computes are in radians.
-/

namespace ArmSimulator

noncomputable def atan2 (y x : ℝ) : ℝ := Complex.arg ⟨x, y⟩

noncomputable def copysign (magnitude sign : ℝ) : ℝ :=
  if sign < 0 then -|magnitude| else |magnitude|

structure Kinematics where
  link1Length : ℝ
  link2Length : ℝ

namespace Kinematics

variable (kinematics : Kinematics)

/-- `forward_kinematics`, returning `x` and `y`. -/
noncomputable def forwardKinematics (joint1Angle joint2Angle : ℝ) : ℝ × ℝ :=
  let theta1 := joint1Angle * Real.pi / 180
  let theta2 := joint2Angle * Real.pi / 180
  (kinematics.link1Length * Real.cos theta1 + kinematics.link2Length * Real.cos (theta1 + theta2),
    kinematics.link1Length * Real.sin theta1 + kinematics.link2Length * Real.sin (theta1 + theta2))

/-- The degrees that `forward_kinematics` takes, of an angle in radians. -/
noncomputable def degrees (angle : ℝ) : ℝ := angle * 180 / Real.pi

noncomputable def radians (angle : ℝ) : ℝ := angle * Real.pi / 180

/-! The local variables of `inverse_kinematics`. -/

noncomputable def c2 (x y : ℝ) : ℝ :=
  (x ^ 2 + y ^ 2 - kinematics.link1Length ^ 2 - kinematics.link2Length ^ 2) /
    (2 * kinematics.link1Length * kinematics.link2Length)

noncomputable def theta2 (x y : ℝ) : ℝ := Real.arccos (kinematics.c2 x y)

noncomputable def k1 (x y : ℝ) : ℝ :=
  kinematics.link1Length + kinematics.link2Length * Real.cos (kinematics.theta2 x y)

noncomputable def k2 (x y : ℝ) : ℝ := kinematics.link2Length * Real.sin (kinematics.theta2 x y)

noncomputable def theta1 (x y : ℝ) : ℝ :=
  atan2 y x - atan2 (kinematics.k2 x y) (kinematics.k1 x y)

noncomputable def maxDelta : ℝ := Real.pi / 60

theorem maxDelta_eq : maxDelta = Real.pi / 60 := rfl

/-- The velocity limit of one joint. -/
noncomputable def limitDelta (delta : ℝ) : ℝ :=
  if |delta| > maxDelta then copysign maxDelta delta else delta

/--
`inverse_kinematics`: the result and the two references. A call that returns `false` leaves
the references as they are.
-/
noncomputable def inverseKinematics
    (x y joint1AnglePrev joint2AnglePrev joint1Angle joint2Angle : ℝ) : Bool × ℝ × ℝ :=
  if kinematics.c2 x y < -1 ∨ kinematics.c2 x y > 1 then (false, joint1Angle, joint2Angle)
  else if kinematics.theta1 x y < 0 ∨ kinematics.theta1 x y > 45 ∨
      kinematics.theta2 x y < 0 ∨ kinematics.theta2 x y > 45 then
    (false, joint1Angle, joint2Angle)
  else
    let delta1 := joint1Angle - joint1AnglePrev
    let delta2 := joint2Angle - joint2AnglePrev
    (true, joint1AnglePrev + limitDelta delta1, joint2AnglePrev + limitDelta delta2)

/-- What `inverse_kinematics` tests of its local variables. -/
def Passes (x y : ℝ) : Prop :=
  (-1 ≤ kinematics.c2 x y ∧ kinematics.c2 x y ≤ 1) ∧
    (0 ≤ kinematics.theta1 x y ∧ kinematics.theta1 x y ≤ 45) ∧
    0 ≤ kinematics.theta2 x y ∧ kinematics.theta2 x y ≤ 45

section

variable {kinematics} {x y : ℝ} (joint1AnglePrev joint2AnglePrev joint1Angle joint2Angle : ℝ)

theorem inverseKinematics_of_passes (passes : kinematics.Passes x y) :
    kinematics.inverseKinematics x y joint1AnglePrev joint2AnglePrev joint1Angle joint2Angle =
      (true, joint1AnglePrev + limitDelta (joint1Angle - joint1AnglePrev),
        joint2AnglePrev + limitDelta (joint2Angle - joint2AnglePrev)) := by
  rcases passes with ⟨reach, joint1, joint2⟩
  rw [inverseKinematics, if_neg (by simpa using reach), if_neg]
  simpa using ⟨joint1.1, joint1.2, joint2⟩

theorem inverseKinematics_of_not_passes (fails : ¬kinematics.Passes x y) :
    kinematics.inverseKinematics x y joint1AnglePrev joint2AnglePrev joint1Angle joint2Angle =
      (false, joint1Angle, joint2Angle) := by
  rw [inverseKinematics]
  split_ifs with outOfReach outOfLimits
  · rfl
  · rfl
  · simp only [not_or, not_lt] at outOfReach outOfLimits
    exact absurd ⟨outOfReach, ⟨outOfLimits.1, outOfLimits.2.1⟩, outOfLimits.2.2⟩ fails

end

/-- Both solved angles are within 0 and 45 degrees. -/
def SolvedWithinLimits (x y : ℝ) : Prop :=
  (0 ≤ degrees (kinematics.theta1 x y) ∧ degrees (kinematics.theta1 x y) ≤ 45) ∧
    0 ≤ degrees (kinematics.theta2 x y) ∧ degrees (kinematics.theta2 x y) ≤ 45

/-- The global `kinematics` of `main.h`. -/
noncomputable def armKinematics : Kinematics := ⟨33 / 100, 31 / 100⟩

end Kinematics

end ArmSimulator
