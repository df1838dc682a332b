import Mathlib.Data.Rat.Floor
import Mathlib.Tactic.Common

/-!
# C types of the target

The programs run on an ARM board, where `char` is unsigned: the command tables
initialise it with constants such as `0x92`. Integers of the machine are bit vectors.
A `float` is an exact rational, an infinity or a NaN; its comparisons are those of
IEEE 754, and its rounding is left out.
-/

namespace ArmSimulator

/-- `char` and `u_int8_t`. -/
abbrev Byte := BitVec 8

/-- `int` and `u_int32_t`. -/
abbrev Word := BitVec 32

/-- The addition of two `int`s: the overflow of a signed sum is undefined. -/
def addInt? (left right : ℤ) : Option ℤ :=
  if -2 ^ 31 ≤ left + right ∧ left + right < 2 ^ 31 then some (left + right) else none

/-- The product of two `int`s: the overflow of a signed product is undefined. -/
def mulInt? (left right : Word) : Option Word :=
  if left.smulOverflow right then none else some (left * right)

/-- A `float` without rounding. -/
inductive CFloat where
  | finite (value : ℚ)
  | inf (negative : Bool)
  | nan
  deriving DecidableEq, Repr

theorem addInt?_of_range {left right : ℤ} (lower : -2 ^ 31 ≤ left + right)
    (upper : left + right < 2 ^ 31) : addInt? left right = some (left + right) :=
  if_pos ⟨lower, upper⟩

/-- A product that is defined is exact. -/
theorem mulInt?_eq_some_iff {left right product : Word} :
    mulInt? left right = some product ↔ product.toInt = left.toInt * right.toInt := by
  unfold mulInt?
  by_cases overflow : left.smulOverflow right
  · rw [if_pos overflow]
    have lower := product.le_toInt
    have upper := product.toInt_lt
    simp only [BitVec.smulOverflow, Bool.or_eq_true, decide_eq_true_eq] at overflow
    simp only [reduceCtorEq, false_iff]
    omega
  · have exact := BitVec.toInt_mul_of_not_smulOverflow overflow
    rw [if_neg overflow, Option.some.injEq, ← exact, eq_comm, BitVec.toInt_inj]

namespace CFloat

def lt : CFloat → CFloat → Bool
  | finite left, finite right => left < right
  | finite _, inf negative => !negative
  | inf negative, finite _ => negative
  | inf left, inf right => left && !right
  | _, _ => false

def le : CFloat → CFloat → Bool
  | finite left, finite right => left ≤ right
  | finite _, inf negative => !negative
  | inf negative, finite _ => negative
  | inf left, inf right => left || !right
  | _, _ => false

def mul : CFloat → CFloat → CFloat
  | finite left, finite right => finite (left * right)
  | finite factor, inf negative | inf negative, finite factor =>
      if factor = 0 then nan else inf (negative ^^ decide (factor < 0))
  | inf left, inf right => inf (left ^^ right)
  | _, _ => nan

def ofInt (value : ℤ) : CFloat := finite value

def truncate (value : ℚ) : ℤ := if 0 ≤ value then ⌊value⌋ else ⌈value⌉

/--
The conversion to `u_int32_t`: defined only when the truncated value is representable,
which excludes the infinities and NaN.
-/
def toUInt32? : CFloat → Option Word
  | finite value =>
      if 0 ≤ truncate value ∧ truncate value < 2 ^ 32 then
        some (BitVec.ofInt 32 (truncate value))
      else none
  | _ => none

theorem truncate_nonneg_iff {value : ℚ} : 0 ≤ truncate value ↔ -1 < value := by
  unfold truncate
  split
  · rename_i nonneg
    simp only [Int.floor_nonneg, nonneg, true_iff]
    linarith
  · rw [← Int.lt_add_one_iff, ← sub_lt_iff_lt_add, Int.lt_ceil]
    norm_num

theorem truncate_le {value : ℚ} {bound : ℤ} (le : value ≤ bound) :
    truncate value ≤ bound := by
  unfold truncate
  split
  · exact Int.floor_le_iff.mpr (by linarith)
  · exact Int.ceil_le.mpr le

end CFloat

end ArmSimulator
