import ArmSimulator.X8.Frames

/-!
# What the X8 driver reads from replies

The angle in a reply has seven bytes, and the driver fills the eighth with a copy of the
seventh. That extends the sign only when the copied byte is all zeros or all ones. A speed
is multiplied in 16 bits before it is divided. Both results are compared with the exact
quotient of what the motor reports.
-/

namespace ArmSimulator.X8

/-! ## Division towards zero -/

theorem tdiv_tdiv (dividend : ℤ) (first second : ℕ) :
    (dividend.tdiv first).tdiv second = dividend.tdiv (first * second : ℕ) := by
  rcases dividend.eq_nat_or_neg with ⟨size, rfl | rfl⟩
  · rw [← Int.ofNat_tdiv, ← Int.ofNat_tdiv, ← Int.ofNat_tdiv, Nat.div_div_eq_div_mul]
  · rw [Int.neg_tdiv, Int.neg_tdiv, Int.neg_tdiv, ← Int.ofNat_tdiv, ← Int.ofNat_tdiv,
      ← Int.ofNat_tdiv, Nat.div_div_eq_div_mul]

theorem tdiv_bounds (dividend : ℤ) {divisor : ℤ} (positive : 0 < divisor) :
    dividend - divisor < dividend.tdiv divisor * divisor ∧
      dividend.tdiv divisor * divisor < dividend + divisor := by
  have split := dividend.tdiv_mul_add_tmod divisor
  have upper := Int.tmod_lt_of_pos dividend positive
  have lower := Int.lt_tmod_of_pos dividend positive
  omega

/-- Dividends further apart than twice the divisor have different quotients. -/
theorem tdiv_eq_iff_of_apart {dividend other divisor gap : ℤ} (positive : 0 < divisor)
    (wide : 2 * divisor ≤ gap) {turns : ℤ} (apart : other = dividend + turns * gap) :
    other.tdiv divisor = dividend.tdiv divisor ↔ turns = 0 := by
  constructor
  · intro same
    have near := tdiv_bounds dividend positive
    have far := tdiv_bounds other positive
    rw [same, apart] at far
    by_contra moved
    rcases lt_or_gt_of_ne moved with below | above
    · have := mul_le_mul_of_nonneg_right (show turns ≤ -1 by omega) (show 0 ≤ gap by omega)
      omega
    · have := mul_le_mul_of_nonneg_right (show 1 ≤ turns by omega) (show 0 ≤ gap by omega)
      omega
  · rintro rfl
    rw [apart, zero_mul, add_zero]

/-! ## The multi-turn angle -/

theorem toList_drop_one (data : Vector Byte 8) :
    data.toList.drop 1 = [data.get 1, data.get 2, data.get 3, data.get 4, data.get 5, data.get 6,
      data.get 7] := by
  have listed : data.toList = List.ofFn data.get := by
    apply List.ext_getElem
    · rw [List.length_ofFn, Vector.length_toList]
    · intro index inside small
      rw [List.getElem_ofFn]
      rfl
  rw [listed]
  rfl

/-- The angle in a reply, in units of the motor: the two's-complement number behind the
command byte. -/
def reportedAngle (canRxData : Vector Byte 8) : ℤ :=
  LittleEndian.signed (canRxData.toList.drop 1)

/-- The shifts and the disjunction put bytes side by side. -/
theorem toNat_join (byte1 byte2 byte3 byte4 byte5 byte6 byte7 byte8 : Byte) :
    (byte8.setWidth 64 <<< 56 ||| byte7.setWidth 64 <<< 48 ||| byte6.setWidth 64 <<< 40 |||
      byte5.setWidth 64 <<< 32 ||| byte4.setWidth 64 <<< 24 ||| byte3.setWidth 64 <<< 16 |||
      byte2.setWidth 64 <<< 8 ||| byte1.setWidth 64).toNat =
        LittleEndian.value [byte1, byte2, byte3, byte4, byte5, byte6, byte7, byte8] := by
  have joined1 : (byte1.setWidth 64).toNat = LittleEndian.value [byte1] := by
    simp [LittleEndian.value]
    omega
  have joined2 := LittleEndian.shiftLeft_or joined1 byte2 (by simp)
  have joined3 := LittleEndian.shiftLeft_or joined2 byte3 (by simp)
  have joined4 := LittleEndian.shiftLeft_or joined3 byte4 (by simp)
  have joined5 := LittleEndian.shiftLeft_or joined4 byte5 (by simp)
  have joined6 := LittleEndian.shiftLeft_or joined5 byte6 (by simp)
  have joined7 := LittleEndian.shiftLeft_or joined6 byte7 (by simp)
  have joined8 := LittleEndian.shiftLeft_or joined7 byte8 (by simp)
  simp only [BitVec.or_assoc]
  exact joined8

/-- The driver reads the seven bytes with the last of them repeated. -/
theorem toInt_getMotorMultiTurnAngle (canRxData : Vector Byte 8) :
    (getMotorMultiTurnAngle canRxData).toInt =
      (LittleEndian.signed (canRxData.toList.drop 1 ++ [canRxData.get 7])).tdiv 600 := by
  have joined := toNat_join (canRxData.get 1) (canRxData.get 2) (canRxData.get 3)
    (canRxData.get 4) (canRxData.get 5) (canRxData.get 6) (canRxData.get 7) (canRxData.get 7)
  rw [getMotorMultiTurnAngle, BitVec.toInt_sdiv_of_ne_or_ne _ _ (Or.inr (by decide)),
    BitVec.toInt_sdiv_of_ne_or_ne _ _ (Or.inr (by decide)),
    LittleEndian.toInt_of_toNat_eq_value joined rfl, toList_drop_one]
  exact tdiv_tdiv _ 100 6

/-- Repeating the last of seven bytes adds whole multiples of `2 ^ 56`, none exactly when the
number has room in 49 bits. -/
theorem signed_repeated {low : List Byte} (six : low.length = 6) (top : Byte) :
    ∃ turns : ℤ, LittleEndian.signed (low ++ [top, top]) =
        LittleEndian.signed (low ++ [top]) + turns * 2 ^ 56 ∧
      (turns = 0 ↔ -2 ^ 48 ≤ LittleEndian.signed (low ++ [top]) ∧
        LittleEndian.signed (low ++ [top]) < 2 ^ 48) := by
  have small := LittleEndian.value_lt low
  have topSmall := top.isLt
  simp only [LittleEndian.signed_eq_ite, LittleEndian.value_append, LittleEndian.value,
    List.length_append, List.length_cons, List.length_nil, six] at small ⊢
  by_cases positive : top.toNat < 128
  · refine ⟨top.toNat, ?_, ?_⟩ <;> split_ifs <;> omega
  · refine ⟨top.toNat - 255, ?_, ?_⟩ <;> split_ifs <;> omega

/-- The angle that the driver gives is the reported one, in whole degrees, exactly when that
has room in 49 bits. -/
theorem getMotorMultiTurnAngle_exact_iff (canRxData : Vector Byte 8) :
    (getMotorMultiTurnAngle canRxData).toInt = (reportedAngle canRxData).tdiv 600 ↔
      -2 ^ 48 ≤ reportedAngle canRxData ∧ reportedAngle canRxData < 2 ^ 48 := by
  rcases signed_repeated (show (canRxData.toList.drop 1).dropLast.length = 6 by simp)
    (canRxData.get 7) with ⟨turns, repeated, room⟩
  have split : canRxData.toList.drop 1 =
      (canRxData.toList.drop 1).dropLast ++ [canRxData.get 7] := by
    rw [toList_drop_one]
    rfl
  rw [← split] at repeated room
  rw [toInt_getMotorMultiTurnAngle, reportedAngle, ← room]
  apply tdiv_eq_iff_of_apart (by omega) (show 2 * 600 ≤ (2 ^ 56 : ℤ) by omega)
  rw [← repeated, split]
  simp

/-! ## The status -/

theorem toNat_joinHalf (low high : Byte) :
    (high.setWidth 16 <<< 8 ||| low.setWidth 16).toNat = LittleEndian.value [low, high] := by
  have joined : (low.setWidth 16).toNat = LittleEndian.value [low] := by
    simp [LittleEndian.value]
    omega
  exact LittleEndian.shiftLeft_or joined high (by simp)

/-- The speed in a reply, in degrees per second. -/
def reportedSpeed (canRxData : Vector Byte 8) : ℤ :=
  LittleEndian.signed ((canRxData.toList.drop 4).take 2)

theorem toList_eq_cons (data : Vector Byte 8) :
    data.toList = data.toList.headI :: data.toList.drop 1 := by
  rcases data with ⟨⟨_ | ⟨first, rest⟩⟩, size⟩
  · cases size
  · rfl

/-- In 16 bits the product wraps around as often as the reported speed demands. -/
theorem toInt_mul_sixty (speed : BitVec 16) : ∃ turns : ℤ,
    (speed * 60).toInt = speed.toInt * 60 + turns * 2 ^ 16 ∧
      (turns = 0 ↔ -546 ≤ speed.toInt ∧ speed.toInt ≤ 546) := by
  have lower := (speed * 60).le_toInt
  have upper := (speed * 60).toInt_lt
  have wraps : (speed * 60).toInt = (speed.toInt * 60).bmod (2 ^ 16) := BitVec.toInt_mul _ _
  have whole : (speed * 60).toInt + 2 ^ 16 * (speed.toInt * 60).bdiv (2 ^ 16) =
      speed.toInt * 60 := by
    rw [wraps]
    exact Int.bmod_add_bdiv _ _
  exact ⟨-(speed.toInt * 60).bdiv (2 ^ 16), by omega, by omega⟩

/-- The status is what the motor reports, except that its speed in revolutions per minute is
right only for reported speeds of at most 546 degrees per second. -/
theorem getMotorStatus_reported (canRxData : Vector Byte 8) :
    let status := getMotorStatus canRxData
    status.temperature.toInt = LittleEndian.signed ((canRxData.toList.drop 1).take 1) ∧
      status.torqueCurrent.toInt = LittleEndian.signed ((canRxData.toList.drop 2).take 2) ∧
      status.encoder.toNat = LittleEndian.value ((canRxData.toList.drop 6).take 2) ∧
      (status.speed.toInt = (reportedSpeed canRxData).tdiv 6 ↔
        -546 ≤ reportedSpeed canRxData ∧ reportedSpeed canRxData ≤ 546) := by
  intro status
  have joined := fun low high => LittleEndian.toInt_of_toNat_eq_value (toNat_joinHalf low high) rfl
  have speedEq : ((canRxData.get 5).setWidth 16 <<< 8 ||| (canRxData.get 4).setWidth 16).toInt =
      reportedSpeed canRxData := by
    rw [joined, reportedSpeed, toList_eq_cons, toList_drop_one]
    rfl
  refine ⟨?_, ?_, ?_, ?_⟩
  · rw [toList_drop_one]
    exact LittleEndian.toInt_of_toNat_eq_value (by simp [status, getMotorStatus,
      LittleEndian.value]) rfl
  · rw [toList_eq_cons, toList_drop_one]
    exact joined _ _
  · rw [toList_eq_cons, toList_drop_one]
    exact toNat_joinHalf _ _
  · rcases toInt_mul_sixty ((canRxData.get 5).setWidth 16 <<< 8 |||
      (canRxData.get 4).setWidth 16) with ⟨turns, wraps, room⟩
    rw [speedEq] at wraps room
    have quotient : status.speed.toInt =
        (reportedSpeed canRxData * 60 + turns * 2 ^ 16).tdiv 360 := by
      rw [← wraps]
      exact BitVec.toInt_sdiv_of_ne_or_ne _ _ (Or.inr (by decide))
    have exact : (reportedSpeed canRxData * 60).tdiv 360 = (reportedSpeed canRxData).tdiv 6 :=
      Int.mul_tdiv_mul_of_pos_left _ 6 (show (0 : ℤ) < 60 by omega)
    rw [quotient, ← exact, ← room]
    exact tdiv_eq_iff_of_apart (by omega) (by omega) rfl

end ArmSimulator.X8
