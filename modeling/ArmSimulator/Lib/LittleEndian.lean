import Mathlib.Data.BitVec
import Mathlib.Tactic.Ring
import Mathlib.Tactic.Common

/-!
# Little-endian byte strings

The unsigned and the two's-complement value of a byte string, lowest byte first, and the
byte string of a number. Both round trips are stated for strings of any length.
-/

namespace LittleEndian

/-- The unsigned value of a byte string. -/
def value : List (BitVec 8) → ℕ
  | [] => 0
  | byte :: rest => byte.toNat + 256 * value rest

/-- The lowest `count` bytes of a number. -/
def bytes : ℕ → ℕ → List (BitVec 8)
  | 0, _ => []
  | count + 1, number => BitVec.ofNat 8 number :: bytes count (number / 256)

/-- The two's-complement value of a byte string. -/
def signed (string : List (BitVec 8)) : ℤ := (value string : ℤ).bmod (256 ^ string.length)

@[simp]
theorem length_bytes (count number : ℕ) : (bytes count number).length = count := by
  induction count generalizing number with
  | zero => rfl
  | succ count ih => simp [bytes, ih]

theorem value_bytes (count number : ℕ) : value (bytes count number) = number % 256 ^ count := by
  induction count generalizing number with
  | zero => simp [bytes, value, Nat.mod_one]
  | succ count ih =>
      simp only [bytes, value, ih, BitVec.toNat_ofNat, Nat.reducePow]
      rw [pow_succ', Nat.mod_mul]

theorem value_lt (string : List (BitVec 8)) : value string < 256 ^ string.length := by
  induction string with
  | nil => simp [value]
  | cons byte string ih =>
      have small := byte.isLt
      simp only [value, List.length_cons, pow_succ]
      omega

theorem value_append (low high : List (BitVec 8)) :
    value (low ++ high) = value low + 256 ^ low.length * value high := by
  induction low with
  | nil => simp [value]
  | cons byte low ih =>
      simp only [List.cons_append, value, ih, List.length_cons, pow_succ]
      ring

/-- A byte that is shifted above the bytes joined so far joins them. -/
theorem shiftLeft_or {width : ℕ} {word : BitVec width} {low : List (BitVec 8)}
    (joined : word.toNat = value low) (byte : BitVec 8) (inside : 8 * low.length + 8 ≤ width) :
    (byte.setWidth width <<< (8 * low.length) ||| word).toNat = value (low ++ [byte]) := by
  have powEq : 2 ^ (8 * low.length) = 256 ^ low.length := pow_mul 2 8 low.length
  have below : word.toNat < 2 ^ (8 * low.length) := by
    rw [joined, powEq]
    exact value_lt low
  have small : byte.toNat < 2 ^ width :=
    byte.isLt.trans_le (Nat.pow_le_pow_right (by omega) (by omega))
  have fits : byte.toNat * 2 ^ (8 * low.length) < 2 ^ width := by
    calc byte.toNat * 2 ^ (8 * low.length) < 2 ^ 8 * 2 ^ (8 * low.length) :=
          Nat.mul_lt_mul_of_pos_right byte.isLt (Nat.pow_pos (by omega))
      _ = 2 ^ (8 + 8 * low.length) := (Nat.pow_add 2 8 _).symm
      _ ≤ 2 ^ width := Nat.pow_le_pow_right (by omega) (by omega)
  rw [BitVec.toNat_or, BitVec.toNat_shiftLeft, BitVec.toNat_setWidth, Nat.mod_eq_of_lt small,
    Nat.shiftLeft_eq, Nat.mod_eq_of_lt fits, Nat.mul_comm, ← Nat.two_pow_add_eq_or_of_lt below,
    value_append, joined, powEq]
  simp only [value]
  ring

/-- Behind its lowest `start` bits, the bytes of a word are its slices. -/
theorem bytes_shifted (count : ℕ) {width : ℕ} (word : BitVec width) (start : ℕ) :
    bytes count (word.toNat / 2 ^ start) =
      (List.range count).map fun index => word.extractLsb' (start + 8 * index) 8 := by
  induction count generalizing start with
  | zero => rfl
  | succ count ih =>
      have next : word.toNat / 2 ^ start / 256 = word.toNat / 2 ^ (start + 8) := by
        rw [Nat.div_div_eq_div_mul, pow_add]
        norm_num
      rw [bytes, next, ih, List.range_succ_eq_map, List.map_cons, List.map_map]
      congr 1
      · apply BitVec.eq_of_toNat_eq
        simp [Nat.shiftRight_eq_div_pow]
      · apply List.map_congr_left
        intro index _
        simp only [Function.comp_apply]
        congr 1
        omega

/-- The bytes of a word are what reading it through a byte pointer gives. -/
theorem bytes_word (count : ℕ) {width : ℕ} (word : BitVec width) :
    bytes count word.toNat =
      (List.range count).map fun index => word.extractLsb' (8 * index) 8 := by
  simpa using bytes_shifted count word 0

theorem setWidth_ushiftRight {width : ℕ} (word : BitVec width) (start : ℕ) :
    (word >>> start).setWidth 8 = word.extractLsb' start 8 := by
  apply BitVec.eq_of_toNat_eq
  simp

/-- The sign bits that an arithmetic shift fills in are cut off again. -/
theorem setWidth_sshiftRight {width : ℕ} (word : BitVec width) {start : ℕ}
    (inside : start + 8 ≤ width) :
    (word.sshiftRight start).setWidth 8 = word.extractLsb' start 8 := by
  apply BitVec.eq_of_getLsbD_eq
  intro index small
  simp [BitVec.getLsbD_sshiftRight, small]
  grind

/-- The bytes of a word give back its two's-complement value. -/
theorem signed_bytes (count : ℕ) (word : BitVec (8 * count)) :
    signed (bytes count word.toNat) = word.toInt := by
  have width : 2 ^ (8 * count) = 256 ^ count := pow_mul 2 8 count
  have bound : word.toNat < 256 ^ count := width ▸ word.isLt
  rw [signed, value_bytes, Nat.mod_eq_of_lt bound, length_bytes,
    BitVec.toInt_eq_toNat_bmod, width]

theorem toInt_of_toNat_eq_value {width : ℕ} {word : BitVec width} {string : List (BitVec 8)}
    (joined : word.toNat = value string) (widthEq : width = 8 * string.length) :
    word.toInt = signed string := by
  rw [signed, BitVec.toInt_eq_toNat_bmod, joined, widthEq, pow_mul]
  rfl

/-- A string whose highest bit is set stands for a negative number. -/
theorem signed_eq_ite (string : List (BitVec 8)) : signed string =
    if 2 * value string < 256 ^ string.length then (value string : ℤ)
    else value string - (256 ^ string.length : ℕ) := by
  have small := value_lt string
  rw [signed]
  generalize value string = number at small ⊢
  generalize 256 ^ string.length = modulus at small ⊢
  have reduced : (number : ℤ) % modulus = number := Int.emod_eq_of_lt (by omega) (by omega)
  rw [Int.bmod, reduced]
  split_ifs <;> omega

/-- A byte string of positive length lies in the two's-complement range of its width. -/
theorem signed_mem_range (string : List (BitVec 8)) (nonempty : string ≠ []) :
    -(256 ^ string.length / 2 : ℤ) ≤ signed string ∧
      signed string < (256 ^ string.length / 2 : ℤ) := by
  have positive : 0 < 256 ^ string.length := Nat.pow_pos (by omega)
  have even : (256 ^ string.length : ℤ) % 2 = 0 := by
    rw [← Int.even_iff]
    exact (by decide : Even (256 : ℤ)).pow_of_ne_zero (by simpa using nonempty)
  have lower := Int.le_bmod (x := value string) positive
  have upper := Int.bmod_lt (x := value string) positive
  simp only [signed]
  push_cast at lower upper ⊢
  omega

end LittleEndian
