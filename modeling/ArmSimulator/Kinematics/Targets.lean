import ArmSimulator.Kinematics.Solution

/-!
# Which targets are accepted, and with which joint angles

Conditions on the link lengths and the target alone that say whether `inverse_kinematics`
accepts the target and how the two joint angles of its solution compare with an angle in
degrees.
-/

namespace ArmSimulator

namespace Kinematics

variable (kinematics : Kinematics) (x y : ℝ)

def InAnnulus : Prop :=
  (kinematics.link1Length - kinematics.link2Length) ^ 2 ≤ x ^ 2 + y ^ 2 ∧
    x ^ 2 + y ^ 2 ≤ (kinematics.link1Length + kinematics.link2Length) ^ 2

/-- The square of the distance from the target to the second joint, at an angle of the first. -/
noncomputable def elbowDistanceSq (joint1Angle : ℝ) : ℝ :=
  (x - kinematics.link1Length * Real.cos (radians joint1Angle)) ^ 2 +
    (y - kinematics.link1Length * Real.sin (radians joint1Angle)) ^ 2

/-- The square of the distance from the first joint to the tip, at an angle of the second. -/
noncomputable def tipDistanceSq (joint2Angle : ℝ) : ℝ :=
  kinematics.link1Length ^ 2 + kinematics.link2Length ^ 2 +
    2 • (kinematics.link1Length * kinematics.link2Length * Real.cos (radians joint2Angle))

/-- The target is in the annulus, not below the axis, and not inside the circle of the second
link around the second joint when the first joint is at zero. -/
def Accepted : Prop :=
  kinematics.InAnnulus x y ∧ 0 ≤ y ∧
    kinematics.link2Length ^ 2 ≤ (x - kinematics.link1Length) ^ 2 + y ^ 2

def Joint1AtMost (limit : ℝ) : Prop :=
  Real.pi ≤ radians limit ∨ 0 ≤ limit ∧
    (y * Real.cos (radians limit) < x * Real.sin (radians limit) ∨
      kinematics.elbowDistanceSq x y limit ≤ kinematics.link2Length ^ 2)

def Joint1AtLeast (limit : ℝ) : Prop :=
  limit ≤ 0 ∨ radians limit ≤ Real.pi ∧ (0 < y ∨ x < 0) ∧
    x * Real.sin (radians limit) ≤ y * Real.cos (radians limit) ∧
      kinematics.link2Length ^ 2 ≤ kinematics.elbowDistanceSq x y limit

def Joint2AtMost (limit : ℝ) : Prop :=
  Real.pi ≤ radians limit ∨ 0 ≤ limit ∧ kinematics.tipDistanceSq limit ≤ x ^ 2 + y ^ 2

def Joint2AtLeast (limit : ℝ) : Prop :=
  limit ≤ 0 ∨ radians limit ≤ Real.pi ∧ x ^ 2 + y ^ 2 ≤ kinematics.tipDistanceSq limit

variable {kinematics} {x y}

theorem turned_im (angle : ℝ) :
    (TwoLink.turned ⟨x, y⟩ angle).im = y * Real.cos angle - x * Real.sin angle := by
  simp only [TwoLink.turned, Complex.mul_im, Complex.exp_ofReal_mul_I_re,
    Complex.exp_ofReal_mul_I_im, Real.cos_neg, Real.sin_neg]
  ring

theorem radians_le_radians_iff (first second : ℝ) :
    radians first ≤ radians second ↔ first ≤ second := by
  rw [← degrees_le_iff, degrees_radians]

theorem radians_nonneg_iff (angle : ℝ) : 0 ≤ radians angle ↔ 0 ≤ angle := by
  simpa [radians] using radians_le_radians_iff 0 angle

theorem radians_nonpos_iff (angle : ℝ) : radians angle ≤ 0 ↔ angle ≤ 0 := by
  simpa [radians] using radians_le_radians_iff angle 0

theorem radians_neg_iff (angle : ℝ) : radians angle < 0 ↔ angle < 0 :=
  lt_iff_lt_of_le_iff_le (radians_nonneg_iff angle)

theorem radians_pos_iff (angle : ℝ) : 0 < radians angle ↔ 0 < angle :=
  lt_iff_lt_of_le_iff_le (radians_nonpos_iff angle)

theorem radians_eighth_turn : radians 45 = Real.pi / 4 := by
  rw [radians]
  ring

/-- An angle of a half turn is compared with a limit by its test inside that range alone. -/
theorem degrees_le_iff_of_mem {theta limit : ℝ} (low : 0 ≤ theta) (high : theta ≤ Real.pi)
    {Inside : Prop}
    (inside : 0 ≤ limit → radians limit < Real.pi → (theta ≤ radians limit ↔ Inside)) :
    degrees theta ≤ limit ↔ Real.pi ≤ radians limit ∨ 0 ≤ limit ∧ Inside := by
  rw [degrees_le_iff]
  rcases le_or_gt Real.pi (radians limit) with large | small
  · exact iff_of_true (high.trans large) (Or.inl large)
  rcases lt_or_ge limit 0 with negative | nonneg
  · have beforeZero := (radians_neg_iff limit).mpr negative
    apply iff_of_false
    · linarith
    · rintro (large | ⟨nonneg, -⟩) <;> linarith
  · simp only [inside nonneg small, not_le.mpr small, nonneg, false_or, true_and]

theorem le_degrees_iff_of_mem {theta limit : ℝ} (low : 0 ≤ theta) (high : theta ≤ Real.pi)
    {Inside : Prop}
    (inside : 0 < limit → radians limit ≤ Real.pi → (radians limit ≤ theta ↔ Inside)) :
    limit ≤ degrees theta ↔ limit ≤ 0 ∨ radians limit ≤ Real.pi ∧ Inside := by
  rw [le_degrees_iff]
  rcases le_or_gt limit 0 with small | positive
  · have beforeZero := (radians_nonpos_iff limit).mpr small
    exact iff_of_true (beforeZero.trans low) (Or.inl small)
  rcases lt_or_ge Real.pi (radians limit) with large | small
  · apply iff_of_false
    · linarith
    · rintro (small | ⟨small, -⟩) <;> linarith
  · simp only [inside positive small, not_le.mpr positive, small, false_or, true_and]

section

variable (link1Pos : 0 < kinematics.link1Length) (link2Pos : 0 < kinematics.link2Length)

theorem elbowDistanceSq_eq (joint1Angle : ℝ) :
    kinematics.elbowDistanceSq x y joint1Angle =
      ‖(⟨x, y⟩ : ℂ) - (chain link1Pos link2Pos).inner *
        Complex.exp (radians joint1Angle * Complex.I)‖ ^ 2 := by
  simp [TwoLink.norm_sq_eq, elbowDistanceSq, chain, Complex.exp_ofReal_mul_I_re,
    Complex.exp_ofReal_mul_I_im]

theorem tipDistanceSq_eq (joint2Angle : ℝ) :
    kinematics.tipDistanceSq joint2Angle =
      ‖(chain link1Pos link2Pos).spread (radians joint2Angle)‖ ^ 2 := by
  rw [TwoLink.norm_spread_sq, tipDistanceSq, chain, nsmul_eq_mul]
  push_cast
  ring

theorem inAnnulus_iff : kinematics.InAnnulus x y ↔ (chain link1Pos link2Pos).InReach ⟨x, y⟩ := by
  have gainPos : 0 < 2 * kinematics.link1Length * kinematics.link2Length := by positivity
  rw [inReach_iff_c2 link1Pos link2Pos, c2, le_div_iff₀ gainPos, div_le_iff₀ gainPos, InAnnulus]
  constructor <;> rintro ⟨low, high⟩ <;> constructor <;> nlinarith

theorem accepted_iff : kinematics.Accepted x y ↔
    (chain link1Pos link2Pos).InReach ⟨x, y⟩ ∧
      0 ≤ (chain link1Pos link2Pos).shoulderAngle ⟨x, y⟩ := by
  rw [Accepted, inAnnulus_iff link1Pos link2Pos]
  apply and_congr_right
  intro reach
  rw [TwoLink.shoulderAngle_nonneg_iff reach, ← pow_le_pow_iff_left₀
    (chain link1Pos link2Pos).outer_pos.le (norm_nonneg _) two_ne_zero, TwoLink.norm_sq_eq]
  simp [chain]

include link1Pos link2Pos

/-- The limits of 45 radians do not bind: both angles are at most `π`. -/
theorem passes_iff_accepted : kinematics.Passes x y ↔ kinematics.Accepted x y := by
  have piLe := Real.pi_le_four
  have elbowMem := (chain link1Pos link2Pos).elbowAngle_mem ⟨x, y⟩
  have shoulderLe := ((chain link1Pos link2Pos).shoulderAngle_le_arg ⟨x, y⟩).trans
    (Complex.arg_le_pi _)
  rw [Passes, accepted_iff link1Pos link2Pos, inReach_iff_c2, theta1_eq link1Pos link2Pos,
    theta2_eq link1Pos link2Pos]
  constructor
  · rintro ⟨reach, ⟨nonneg, -⟩, -⟩
    exact ⟨reach, nonneg⟩
  · rintro ⟨reach, nonneg⟩
    exact ⟨reach, ⟨nonneg, by linarith⟩, elbowMem.1, by linarith⟩

variable (joint1AnglePrev joint2AnglePrev joint1Angle joint2Angle : ℝ)

theorem inverseKinematics_of_accepted (accepted : kinematics.Accepted x y) :
    kinematics.inverseKinematics x y joint1AnglePrev joint2AnglePrev joint1Angle joint2Angle =
      (true, joint1AnglePrev + limitDelta (joint1Angle - joint1AnglePrev),
        joint2AnglePrev + limitDelta (joint2Angle - joint2AnglePrev)) :=
  inverseKinematics_of_passes _ _ _ _ ((passes_iff_accepted link1Pos link2Pos).mpr accepted)

theorem inverseKinematics_of_not_accepted (rejected : ¬kinematics.Accepted x y) :
    kinematics.inverseKinematics x y joint1AnglePrev joint2AnglePrev joint1Angle joint2Angle =
      (false, joint1Angle, joint2Angle) := by
  rw [← passes_iff_accepted link1Pos link2Pos] at rejected
  exact inverseKinematics_of_not_passes _ _ _ _ rejected

theorem inverseKinematics_true_iff :
    (kinematics.inverseKinematics x y joint1AnglePrev joint2AnglePrev joint1Angle
      joint2Angle).1 = true ↔ kinematics.Accepted x y := by
  by_cases accepted : kinematics.Accepted x y
  · rw [inverseKinematics_of_accepted link1Pos link2Pos _ _ _ _ accepted]
    simp [accepted]
  · rw [inverseKinematics_of_not_accepted link1Pos link2Pos _ _ _ _ accepted]
    simp [accepted]

/-! ## The joint angles of an accepted target -/

section Angles

variable (accepted : kinematics.Accepted x y) (limit : ℝ)
include accepted

theorem joint2AtMost_iff :
    degrees (kinematics.theta2 x y) ≤ limit ↔ kinematics.Joint2AtMost x y limit := by
  have reach := ((accepted_iff link1Pos link2Pos).mp accepted).1
  have elbowMem := (chain link1Pos link2Pos).elbowAngle_mem ⟨x, y⟩
  rw [theta2_eq link1Pos link2Pos, Joint2AtMost]
  apply degrees_le_iff_of_mem elbowMem.1 elbowMem.2
  intro nonneg small
  rw [TwoLink.elbowAngle_le_iff reach ((radians_nonneg_iff limit).mpr nonneg) small.le,
    ← pow_le_pow_iff_left₀ (norm_nonneg _) (norm_nonneg _) two_ne_zero, ← tipDistanceSq_eq,
    TwoLink.norm_sq_eq]

theorem joint2AtLeast_iff :
    limit ≤ degrees (kinematics.theta2 x y) ↔ kinematics.Joint2AtLeast x y limit := by
  have reach := ((accepted_iff link1Pos link2Pos).mp accepted).1
  have elbowMem := (chain link1Pos link2Pos).elbowAngle_mem ⟨x, y⟩
  rw [theta2_eq link1Pos link2Pos, Joint2AtLeast]
  apply le_degrees_iff_of_mem elbowMem.1 elbowMem.2
  intro positive small
  rw [TwoLink.le_elbowAngle_iff reach ((radians_pos_iff limit).mpr positive).le small,
    ← pow_le_pow_iff_left₀ (norm_nonneg _) (norm_nonneg _) two_ne_zero, ← tipDistanceSq_eq,
    TwoLink.norm_sq_eq]

theorem joint1AtMost_iff :
    degrees (kinematics.theta1 x y) ≤ limit ↔ kinematics.Joint1AtMost x y limit := by
  rcases (accepted_iff link1Pos link2Pos).mp accepted with ⟨reach, shoulderNonneg⟩
  have shoulderLe := ((chain link1Pos link2Pos).shoulderAngle_le_arg ⟨x, y⟩).trans
    (Complex.arg_le_pi _)
  rw [theta1_eq link1Pos link2Pos, Joint1AtMost]
  apply degrees_le_iff_of_mem shoulderNonneg shoulderLe
  intro nonneg small
  rw [TwoLink.shoulderAngle_le_iff reach shoulderNonneg ((radians_nonneg_iff limit).mpr nonneg)
      small, turned_im, sub_neg,
    ← pow_le_pow_iff_left₀ (norm_nonneg _) (chain link1Pos link2Pos).outer_pos.le two_ne_zero,
    ← elbowDistanceSq_eq, chain]

theorem joint1AtLeast_iff :
    limit ≤ degrees (kinematics.theta1 x y) ↔ kinematics.Joint1AtLeast x y limit := by
  rcases (accepted_iff link1Pos link2Pos).mp accepted with ⟨reach, shoulderNonneg⟩
  have shoulderLe := ((chain link1Pos link2Pos).shoulderAngle_le_arg ⟨x, y⟩).trans
    (Complex.arg_le_pi _)
  rw [theta1_eq link1Pos link2Pos, Joint1AtLeast]
  apply le_degrees_iff_of_mem shoulderNonneg shoulderLe
  intro positive small
  rw [TwoLink.le_shoulderAngle_iff reach shoulderNonneg ((radians_pos_iff limit).mpr positive)
      small, turned_im, sub_nonneg,
    ← pow_le_pow_iff_left₀ (chain link1Pos link2Pos).outer_pos.le (norm_nonneg _) two_ne_zero,
    ← elbowDistanceSq_eq, chain]

end Angles

end

/-! ## The arm with its second joint at a right angle -/

theorem armKinematics_link1_pos : 0 < armKinematics.link1Length := by norm_num [armKinematics]

theorem armKinematics_link2_pos : 0 < armKinematics.link2Length := by norm_num [armKinematics]

theorem accepted_rightAngle : armKinematics.Accepted (33 / 100) (31 / 100) := by
  norm_num [Accepted, InAnnulus, armKinematics]

theorem theta2_rightAngle : degrees (armKinematics.theta2 (33 / 100) (31 / 100)) = 90 := by
  have piPos := Real.pi_pos
  norm_num [theta2, c2, degrees, armKinematics]
  field_simp
  norm_num

end Kinematics

end ArmSimulator
