import Mathlib.Analysis.SpecialFunctions.Complex.Arg
import Mathlib.Analysis.SpecialFunctions.Trigonometric.Bounds
import Mathlib.Analysis.SpecialFunctions.Trigonometric.Inverse

/-!
# The planar chain of two links

The tip of the chain in the complex plane, the closed form of the joint angles that reach a
target, and how these angles compare with a given angle. A comparison of arguments is
turned into a comparison of distances: among the points of the upper half plane at one
distance from the origin, a larger argument is further away from a positive real.
-/

open Complex (exp I arg)

/-- Two links of positive length, the inner one at the origin. -/
structure TwoLink where
  inner : ℝ
  outer : ℝ
  inner_pos : 0 < inner
  outer_pos : 0 < outer

namespace TwoLink

variable (chain : TwoLink)

/-- The tip of the chain while the inner link lies on the real axis. -/
noncomputable def spread (elbow : ℝ) : ℂ := chain.inner + chain.outer * exp (elbow * I)

/-- The tip of the chain; the elbow angle is measured from the inner link. -/
noncomputable def tip (shoulder elbow : ℝ) : ℂ := exp (shoulder * I) * chain.spread elbow

/-- The cosine of an elbow angle at which the tip has the distance of the target. -/
noncomputable def elbowCos (target : ℂ) : ℝ :=
  (‖target‖ ^ 2 - chain.inner ^ 2 - chain.outer ^ 2) / 2 • (chain.inner * chain.outer)

noncomputable def elbowAngle (target : ℂ) : ℝ := Real.arccos (chain.elbowCos target)

noncomputable def shoulderAngle (target : ℂ) : ℝ :=
  arg target - arg (chain.spread (chain.elbowAngle target))

/-- The targets at which the cosine exists. -/
def InReach (target : ℂ) : Prop := -1 ≤ chain.elbowCos target ∧ chain.elbowCos target ≤ 1

variable {chain} {target : ℂ}

@[simp]
theorem spread_re (elbow : ℝ) :
    (chain.spread elbow).re = chain.inner + chain.outer * Real.cos elbow := by
  simp [spread, Complex.exp_ofReal_mul_I_re]

@[simp]
theorem spread_im (elbow : ℝ) : (chain.spread elbow).im = chain.outer * Real.sin elbow := by
  simp [spread, Complex.exp_ofReal_mul_I_im]

theorem norm_sq_eq (point : ℂ) : ‖point‖ ^ 2 = point.re ^ 2 + point.im ^ 2 := by
  rw [Complex.sq_norm, Complex.normSq_apply]
  ring

theorem norm_spread_sq (elbow : ℝ) :
    ‖chain.spread elbow‖ ^ 2 =
      chain.inner ^ 2 + chain.outer ^ 2 + 2 * chain.inner * chain.outer * Real.cos elbow := by
  have pythagoras := Real.sin_sq_add_cos_sq elbow
  rw [norm_sq_eq, spread_re, spread_im]
  linear_combination chain.outer ^ 2 * pythagoras

/-- A straighter elbow moves the tip away from the origin. -/
theorem norm_spread_le_iff {first second : ℝ} :
    ‖chain.spread first‖ ≤ ‖chain.spread second‖ ↔ Real.cos first ≤ Real.cos second := by
  have gainPos : 0 < 2 * chain.inner * chain.outer := by
    have innerPos := chain.inner_pos
    have outerPos := chain.outer_pos
    positivity
  rw [← pow_le_pow_iff_left₀ (norm_nonneg _) (norm_nonneg _) two_ne_zero, norm_spread_sq,
    norm_spread_sq, add_le_add_iff_left, mul_le_mul_iff_right₀ gainPos]

theorem norm_tip (shoulder elbow : ℝ) :
    ‖chain.tip shoulder elbow‖ = ‖chain.spread elbow‖ := by
  rw [tip, norm_mul, Complex.norm_exp_ofReal_mul_I, one_mul]

theorem norm_spread_sub (elbow : ℝ) : ‖chain.spread elbow - chain.inner‖ = chain.outer := by
  rw [spread, add_sub_cancel_left, norm_mul, Complex.norm_exp_ofReal_mul_I, mul_one,
    Complex.norm_real, Real.norm_of_nonneg chain.outer_pos.le]

/-- A unit vector moves no further than its angle. -/
theorem norm_exp_sub_exp_le (first second : ℝ) :
    ‖exp (first * I) - exp (second * I)‖ ≤ |first - second| := by
  have factored : exp (first * I) - exp (second * I) =
      exp (second * I) * (exp (I * (first - second : ℝ)) - 1) := by
    rw [mul_sub, ← Complex.exp_add, mul_one]
    push_cast
    ring_nf
  rw [factored, norm_mul, Complex.norm_exp_ofReal_mul_I, one_mul]
  exact Real.norm_exp_I_mul_ofReal_sub_one_le

/-- The inner link turns with the shoulder, the outer link with the sum of the angles. -/
theorem norm_tip_sub_le (shoulder elbow shoulder' elbow' : ℝ) :
    ‖chain.tip shoulder elbow - chain.tip shoulder' elbow'‖ ≤
      chain.inner * |shoulder - shoulder'| +
        chain.outer * |(shoulder + elbow) - (shoulder' + elbow')| := by
  have links : ∀ first second : ℝ, chain.tip first second =
      chain.inner * exp (first * I) + chain.outer * exp ((first + second : ℝ) * I) := by
    intro first second
    rw [tip, spread, mul_add, mul_left_comm, ← Complex.exp_add]
    push_cast
    ring_nf
  have scaled : ∀ length first second : ℝ, 0 < length →
      ‖(length : ℂ) * (exp (first * I) - exp (second * I))‖ ≤ length * |first - second| := by
    intro length first second positive
    rw [norm_mul, Complex.norm_real, Real.norm_of_nonneg positive.le]
    exact mul_le_mul_of_nonneg_left (norm_exp_sub_exp_le first second) positive.le
  calc ‖chain.tip shoulder elbow - chain.tip shoulder' elbow'‖
      = ‖chain.inner * (exp (shoulder * I) - exp (shoulder' * I)) +
          chain.outer * (exp ((shoulder + elbow : ℝ) * I) -
            exp ((shoulder' + elbow' : ℝ) * I))‖ := by
        rw [links, links]
        ring_nf
    _ ≤ _ := (norm_add_le _ _).trans (add_le_add (scaled _ _ _ chain.inner_pos)
        (scaled _ _ _ chain.outer_pos))

/-! ## The closed form -/

theorem elbowCos_of_norm {elbow : ℝ} (same : ‖chain.spread elbow‖ = ‖target‖) :
    chain.elbowCos target = Real.cos elbow := by
  have innerPos := chain.inner_pos
  have outerPos := chain.outer_pos
  rw [elbowCos, ← same, norm_spread_sq, two_nsmul]
  field_simp
  ring

theorem norm_spread_elbowAngle (reach : chain.InReach target) :
    ‖chain.spread (chain.elbowAngle target)‖ = ‖target‖ := by
  have innerPos := chain.inner_pos
  have outerPos := chain.outer_pos
  rw [← pow_left_inj₀ (norm_nonneg _) (norm_nonneg _) two_ne_zero, norm_spread_sq, elbowAngle,
    Real.cos_arccos reach.1 reach.2, elbowCos, two_nsmul]
  field_simp
  ring

theorem tip_solution (reach : chain.InReach target) :
    chain.tip (chain.shoulderAngle target) (chain.elbowAngle target) = target := by
  have same := norm_spread_elbowAngle reach
  generalize elbowEq : chain.elbowAngle target = elbow at same
  calc chain.tip (chain.shoulderAngle target) elbow
      = exp ((arg target - arg (chain.spread elbow) : ℝ) * I) *
          (‖chain.spread elbow‖ * exp (arg (chain.spread elbow) * I)) := by
        rw [Complex.norm_mul_exp_arg_mul_I, tip, shoulderAngle, elbowEq]
    _ = ‖target‖ * exp (arg target * I) := by
        rw [same, mul_left_comm, ← Complex.exp_add]
        push_cast
        ring_nf
    _ = target := Complex.norm_mul_exp_arg_mul_I target

/-- The chain reaches a target exactly when the cosine exists. -/
theorem inReach_iff :
    chain.InReach target ↔ ∃ shoulder elbow, chain.tip shoulder elbow = target := by
  constructor
  · intro reach
    exact ⟨_, _, tip_solution reach⟩
  · rintro ⟨shoulder, elbow, rfl⟩
    rw [InReach, elbowCos_of_norm (norm_tip shoulder elbow).symm]
    exact ⟨Real.neg_one_le_cos elbow, Real.cos_le_one elbow⟩

/-! ## Comparisons of the elbow angle -/

theorem elbowAngle_mem (chain : TwoLink) (target : ℂ) :
    0 ≤ chain.elbowAngle target ∧ chain.elbowAngle target ≤ Real.pi :=
  ⟨Real.arccos_nonneg _, Real.arccos_le_pi _⟩

section Elbow

variable (reach : chain.InReach target) {angle : ℝ} (angleNonneg : 0 ≤ angle)
  (angleLe : angle ≤ Real.pi)
include reach angleNonneg angleLe

theorem elbowAngle_le_iff :
    chain.elbowAngle target ≤ angle ↔ ‖chain.spread angle‖ ≤ ‖target‖ := by
  rw [← norm_spread_elbowAngle reach, norm_spread_le_iff]
  exact (Real.strictAntiOn_cos.le_iff_ge ⟨angleNonneg, angleLe⟩ (chain.elbowAngle_mem target)).symm

theorem le_elbowAngle_iff :
    angle ≤ chain.elbowAngle target ↔ ‖target‖ ≤ ‖chain.spread angle‖ := by
  rw [← norm_spread_elbowAngle reach, norm_spread_le_iff]
  exact (Real.strictAntiOn_cos.le_iff_ge (chain.elbowAngle_mem target) ⟨angleNonneg, angleLe⟩).symm

end Elbow

/-! ## Comparisons of the shoulder angle -/

/-- In the upper half plane, at one distance from the origin, arguments compare as distances. -/
theorem arg_le_arg_iff {first second : ℂ} (same : ‖first‖ = ‖second‖) (firstUpper : 0 ≤ first.im)
    (secondUpper : 0 ≤ second.im) {centre : ℝ} (centrePos : 0 < centre) :
    arg first ≤ arg second ↔ ‖first - centre‖ ≤ ‖second - centre‖ := by
  have firstMem : arg first ∈ Set.Icc 0 Real.pi :=
    ⟨Complex.arg_nonneg_iff.mpr firstUpper, Complex.arg_le_pi first⟩
  have secondMem : arg second ∈ Set.Icc 0 Real.pi :=
    ⟨Complex.arg_nonneg_iff.mpr secondUpper, Complex.arg_le_pi second⟩
  have sameSq : first.re ^ 2 + first.im ^ 2 = second.re ^ 2 + second.im ^ 2 := by
    rw [← norm_sq_eq, ← norm_sq_eq, same]
  have distanceIff : ‖first - centre‖ ≤ ‖second - centre‖ ↔ second.re ≤ first.re := by
    rw [← pow_le_pow_iff_left₀ (norm_nonneg _) (norm_nonneg _) two_ne_zero, norm_sq_eq, norm_sq_eq]
    simp only [Complex.sub_re, Complex.sub_im, Complex.ofReal_re, Complex.ofReal_im, sub_zero]
    constructor <;> intro compare <;> nlinarith
  rw [distanceIff, ← Complex.norm_mul_cos_arg first, ← Complex.norm_mul_cos_arg second, ← same]
  rcases (norm_nonneg first).eq_or_lt with zero | positive
  · have firstZero : first = 0 := norm_eq_zero.mp zero.symm
    have secondZero : second = 0 := norm_eq_zero.mp (same ▸ zero.symm)
    simp [firstZero, secondZero]
  · rw [mul_le_mul_iff_right₀ positive]
    exact (Real.strictAntiOn_cos.le_iff_ge secondMem firstMem).symm

theorem arg_mul_exp {point : ℂ} (nonzero : point ≠ 0) {turn : ℝ}
    (inside : arg point + turn ∈ Set.Ioc (-Real.pi) Real.pi) :
    arg (point * exp (turn * I)) = arg point + turn := by
  have polar : point * exp (turn * I) = ‖point‖ *
      (Complex.cos (arg point + turn : ℝ) + Complex.sin (arg point + turn : ℝ) * I) := by
    rw [← Complex.exp_mul_I]
    nth_rewrite 1 [← Complex.norm_mul_exp_arg_mul_I point]
    rw [mul_assoc, ← Complex.exp_add]
    push_cast
    ring_nf
  rw [polar]
  exact Complex.arg_mul_cos_add_sin_mul_I (norm_pos_iff.mpr nonzero) inside

/-- The point seen from the inner link at an angle. -/
noncomputable def turned (target : ℂ) (angle : ℝ) : ℂ := target * exp ((-angle : ℝ) * I)

theorem norm_turned (target : ℂ) (angle : ℝ) : ‖turned target angle‖ = ‖target‖ := by
  rw [turned, norm_mul, Complex.norm_exp_ofReal_mul_I, mul_one]

theorem norm_turned_sub (target : ℂ) (angle length : ℝ) :
    ‖turned target angle - length‖ = ‖target - length * exp (angle * I)‖ := by
  have back : (turned target angle - length) * exp (angle * I) =
      target - length * exp (angle * I) := by
    rw [turned, sub_mul, mul_assoc, ← Complex.exp_add]
    simp
  rw [← back, norm_mul, Complex.norm_exp_ofReal_mul_I, mul_one]

theorem arg_turned {target : ℂ} (nonzero : target ≠ 0) {angle : ℝ}
    (inside : arg target - angle ∈ Set.Ioc (-Real.pi) Real.pi) :
    arg (turned target angle) = arg target - angle := by
  rw [turned, arg_mul_exp nonzero (by rwa [← sub_eq_add_neg]), sub_eq_add_neg]

theorem turned_upper_iff {target : ℂ} (nonzero : target ≠ 0) {angle : ℝ}
    (inside : arg target - angle ∈ Set.Ioc (-Real.pi) Real.pi) :
    0 ≤ (turned target angle).im ↔ angle ≤ arg target := by
  rw [← Complex.arg_nonneg_iff, arg_turned nonzero inside, sub_nonneg]

theorem spread_elbowAngle_upper (chain : TwoLink) (target : ℂ) :
    0 ≤ (chain.spread (chain.elbowAngle target)).im := by
  have elbowMem := chain.elbowAngle_mem target
  rw [spread_im]
  exact mul_nonneg chain.outer_pos.le (Real.sin_nonneg_of_nonneg_of_le_pi elbowMem.1 elbowMem.2)

theorem shoulderAngle_le_arg (chain : TwoLink) (target : ℂ) :
    chain.shoulderAngle target ≤ arg target :=
  sub_le_self _ (Complex.arg_nonneg_iff.mpr (chain.spread_elbowAngle_upper target))

/-- The chain reaches the origin only folded onto itself. -/
theorem shoulderAngle_zero (reach : chain.InReach 0) :
    chain.shoulderAngle 0 = 0 ∧ chain.inner = chain.outer := by
  have folded : chain.spread (chain.elbowAngle 0) = 0 := by
    rw [← norm_eq_zero, norm_spread_elbowAngle reach, norm_zero]
  have outerEq := chain.norm_spread_sub (chain.elbowAngle 0)
  rw [folded, zero_sub, norm_neg, Complex.norm_real,
    Real.norm_of_nonneg chain.inner_pos.le] at outerEq
  exact ⟨by rw [shoulderAngle, folded, sub_self], outerEq⟩

section Shoulder

variable (reach : chain.InReach target)
include reach

/-- A turned target in the upper half plane is past the solved tip when it is further away. -/
theorem arg_spread_le_iff (angle : ℝ) (upper : 0 ≤ (turned target angle).im) :
    arg (chain.spread (chain.elbowAngle target)) ≤ arg (turned target angle) ↔
      chain.outer ≤ ‖target - chain.inner * exp (angle * I)‖ := by
  have same : ‖chain.spread (chain.elbowAngle target)‖ = ‖turned target angle‖ := by
    rw [norm_turned, norm_spread_elbowAngle reach]
  rw [arg_le_arg_iff same (chain.spread_elbowAngle_upper target) upper chain.inner_pos,
    norm_spread_sub, norm_turned_sub]

theorem le_arg_spread_iff (angle : ℝ) (upper : 0 ≤ (turned target angle).im) :
    arg (turned target angle) ≤ arg (chain.spread (chain.elbowAngle target)) ↔
      ‖target - chain.inner * exp (angle * I)‖ ≤ chain.outer := by
  have same : ‖turned target angle‖ = ‖chain.spread (chain.elbowAngle target)‖ := by
    rw [norm_turned, norm_spread_elbowAngle reach]
  rw [arg_le_arg_iff same upper (chain.spread_elbowAngle_upper target) chain.inner_pos,
    norm_spread_sub, norm_turned_sub]

/-- The shoulder angle is nonnegative outside the circle of the outer link, at angle zero. -/
theorem shoulderAngle_nonneg_iff : 0 ≤ chain.shoulderAngle target ↔
    0 ≤ target.im ∧ chain.outer ≤ ‖target - chain.inner‖ := by
  have turnedZero : turned target 0 = target := by simp [turned]
  have compare := arg_spread_le_iff reach 0
  simp only [turnedZero, Complex.ofReal_zero, zero_mul, Complex.exp_zero, mul_one] at compare
  rw [shoulderAngle, sub_nonneg]
  constructor
  · intro past
    have upper : 0 ≤ target.im :=
      Complex.arg_nonneg_iff.mp
        ((Complex.arg_nonneg_iff.mpr (chain.spread_elbowAngle_upper target)).trans past)
    exact ⟨upper, (compare upper).mp past⟩
  · rintro ⟨upper, far⟩
    exact (compare upper).mpr far

section Nonneg

variable (nonneg : 0 ≤ chain.shoulderAngle target) {angle : ℝ}
include nonneg

/-- The shoulder angle is at most `angle` when the target lies before that direction, or within
the circle of the outer link there. -/
theorem shoulderAngle_le_iff (angleNonneg : 0 ≤ angle) (angleLt : angle < Real.pi) :
    chain.shoulderAngle target ≤ angle ↔
      (turned target angle).im < 0 ∨ ‖target - chain.inner * exp (angle * I)‖ ≤ chain.outer := by
  rcases eq_or_ne target 0 with rfl | nonzero
  · rcases shoulderAngle_zero reach with ⟨angleEq, folded⟩
    have close : ‖(0 : ℂ) - chain.inner * exp (angle * I)‖ ≤ chain.outer := by
      rw [zero_sub, norm_neg, norm_mul, Complex.norm_exp_ofReal_mul_I, mul_one,
        Complex.norm_real, Real.norm_of_nonneg chain.inner_pos.le, folded]
    rw [angleEq]
    exact iff_of_true angleNonneg (Or.inr close)
  have argNonneg : 0 ≤ arg target := nonneg.trans (chain.shoulderAngle_le_arg target)
  have inside : arg target - angle ∈ Set.Ioc (-Real.pi) Real.pi :=
    ⟨by linarith, by linarith [Complex.arg_le_pi target]⟩
  rcases lt_or_ge (turned target angle).im 0 with lower | upper
  · have before : arg target < angle := by
      rw [← not_le, ← turned_upper_iff nonzero inside]
      exact not_le.mpr lower
    have := chain.shoulderAngle_le_arg target
    simp only [lower, true_or, iff_true]
    linarith
  · rw [← le_arg_spread_iff reach angle upper, arg_turned nonzero inside, shoulderAngle]
    simp only [not_lt.mpr upper, false_or]
    constructor <;> intro compare <;> linarith

/-- The shoulder angle is at least `angle` when the target lies past that direction and outside
the circle of the outer link there. -/
theorem le_shoulderAngle_iff (anglePos : 0 < angle) (angleLe : angle ≤ Real.pi) :
    angle ≤ chain.shoulderAngle target ↔
      (0 < target.im ∨ target.re < 0) ∧ 0 ≤ (turned target angle).im ∧
        chain.outer ≤ ‖target - chain.inner * exp (angle * I)‖ := by
  have argNonneg : 0 ≤ arg target := nonneg.trans (chain.shoulderAngle_le_arg target)
  have upperHalf : 0 ≤ target.im := Complex.arg_nonneg_iff.mp argNonneg
  have argPosIff : 0 < arg target ↔ 0 < target.im ∨ target.re < 0 := by
    rw [argNonneg.lt_iff_ne', Ne, Complex.arg_eq_zero_iff, not_and_or, not_le,
      upperHalf.lt_iff_ne', or_comm]
  rw [← argPosIff]
  rcases argNonneg.eq_or_lt with zero | positive
  · have := chain.shoulderAngle_le_arg target
    simp only [← zero, lt_self_iff_false, false_and, iff_false]
    linarith
  have nonzero : target ≠ 0 := by
    rintro rfl
    simp at positive
  have inside : arg target - angle ∈ Set.Ioc (-Real.pi) Real.pi :=
    ⟨by linarith, by linarith [Complex.arg_le_pi target]⟩
  rw [turned_upper_iff nonzero inside]
  simp only [positive, true_and]
  have pastIff : angle ≤ chain.shoulderAngle target ↔
      arg (chain.spread (chain.elbowAngle target)) ≤ arg (turned target angle) := by
    rw [arg_turned nonzero inside, shoulderAngle, le_sub_comm]
  constructor
  · intro past
    have before : angle ≤ arg target := past.trans (chain.shoulderAngle_le_arg target)
    have upper := (turned_upper_iff nonzero inside).mpr before
    exact ⟨before, (arg_spread_le_iff reach angle upper).mp (pastIff.mp past)⟩
  · rintro ⟨before, far⟩
    have upper := (turned_upper_iff nonzero inside).mpr before
    exact pastIff.mpr ((arg_spread_le_iff reach angle upper).mpr far)

end Nonneg

end Shoulder

/-! ## Recovering the joint angles of a tip -/

section Recovery

variable (chain) {shoulder elbow : ℝ} (elbowNonneg : 0 ≤ elbow)
include elbowNonneg

/-- Of the two poses that reach a tip, the closed form gives the one with this elbow. -/
theorem elbowAngle_tip (elbowLe : elbow ≤ Real.pi) :
    chain.elbowAngle (chain.tip shoulder elbow) = elbow := by
  rw [elbowAngle, elbowCos_of_norm (norm_tip shoulder elbow).symm,
    Real.arccos_cos elbowNonneg elbowLe]

/-- With an elbow of at most a right angle, the tip stays in the first quadrant. -/
theorem arg_spread_mem (elbowLe : elbow ≤ Real.pi / 2) :
    chain.spread elbow ≠ 0 ∧ 0 ≤ arg (chain.spread elbow) ∧
      arg (chain.spread elbow) ≤ Real.pi / 2 := by
  have cosNonneg : 0 ≤ Real.cos elbow := Real.cos_nonneg_of_mem_Icc ⟨by linarith, elbowLe⟩
  have sinNonneg : 0 ≤ Real.sin elbow := Real.sin_nonneg_of_nonneg_of_le_pi elbowNonneg
    (by linarith [Real.pi_pos])
  have rePos : 0 < (chain.spread elbow).re := by
    rw [spread_re]
    exact add_pos_of_pos_of_nonneg chain.inner_pos (mul_nonneg chain.outer_pos.le cosNonneg)
  have imNonneg : 0 ≤ (chain.spread elbow).im := by
    rw [spread_im]
    exact mul_nonneg chain.outer_pos.le sinNonneg
  refine ⟨?_, Complex.arg_nonneg_iff.mpr imNonneg, ?_⟩
  · intro zero
    simp [zero] at rePos
  · exact (abs_le.mp (Complex.abs_arg_le_pi_div_two_iff.mpr rePos.le)).2

/-- Neither argument wraps, so their difference is the shoulder angle itself. -/
theorem shoulderAngle_tip (elbowLe : elbow ≤ Real.pi / 2) (shoulderNonneg : 0 ≤ shoulder)
    (shoulderLe : shoulder ≤ Real.pi / 2) :
    chain.shoulderAngle (chain.tip shoulder elbow) = shoulder := by
  have piPos := Real.pi_pos
  rcases chain.arg_spread_mem elbowNonneg elbowLe with ⟨nonzero, argNonneg, argLe⟩
  have inside : arg (chain.spread elbow) + shoulder ∈ Set.Ioc (-Real.pi) Real.pi :=
    ⟨by linarith, by linarith⟩
  rw [shoulderAngle, chain.elbowAngle_tip elbowNonneg (by linarith), tip, mul_comm,
    arg_mul_exp nonzero inside, add_sub_cancel_left]

end Recovery

end TwoLink
