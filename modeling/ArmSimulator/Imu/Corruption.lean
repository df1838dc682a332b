import Mathlib.Data.List.GetD
import ArmSimulator.Imu.Framing

/-!
# Packets with one wrong byte

A change of one byte moves the sum modulo 256 or the checksum, but not both, so no packet
with one wrong byte is accepted. The parser drops its first byte and keeps the other ten.
-/

namespace ArmSimulator

theorem sum_set (bytes : List Byte) (value : Byte) {position : ℕ}
    (inside : position < bytes.length) :
    ((bytes.set position value).map BitVec.toNat).sum + (bytes.getD position 0).toNat =
      (bytes.map BitVec.toNat).sum + value.toNat := by
  induction bytes generalizing position with
  | nil => simp at inside
  | cons byte bytes ih =>
      cases position with
      | zero =>
          simp
          omega
      | succ position =>
          have rest := ih (Nat.lt_of_succ_lt_succ inside)
          simp only [List.set_cons_succ, List.map_cons, List.sum_cons, List.getD_cons_succ]
          omega

/-- The checksum detects every change of one byte, be it the checksum itself. -/
theorem not_validPacket_set {packet : List Byte} (valid : ValidPacket packet) {position : ℕ}
    (inside : position ≤ 10) {value : Byte} (different : value ≠ packet.getD position 0) :
    ¬ValidPacket (packet.set position value) := by
  rcases valid with ⟨lengthEq, -, -, sumEq⟩
  rintro ⟨-, -, -, alteredEq⟩
  apply different
  apply BitVec.eq_of_toNat_eq
  rw [List.take_set] at alteredEq
  rcases inside.lt_or_eq with early | rfl
  · have short : position < (packet.take 10).length := by
      rw [List.length_take]
      omega
    have moved := sum_set (packet.take 10) value short
    have lastEq : (packet.set position value).getD 10 0 = packet.getD 10 0 := by
      rw [List.getD_eq_getElem?_getD, List.getElem?_set_ne (by omega), ← List.getD_eq_getElem?_getD]
    have byteEq : (packet.take 10).getD position 0 = packet.getD position 0 := by
      rw [List.getD_eq_getElem?_getD, List.getElem?_take_of_lt early, ← List.getD_eq_getElem?_getD]
    have valueSmall := value.isLt
    have byteSmall := (packet.getD position 0).isLt
    rw [lastEq, sumEq] at alteredEq
    rw [byteEq] at moved
    omega
  · have beyond : (packet.take 10).length ≤ 10 := by simp
    rw [List.set_eq_of_length_le beyond, ← sumEq] at alteredEq
    rw [← alteredEq, List.getD_eq_getElem _ _ (by simp [lengthEq]), List.getElem_set_self]

/-- The bytes are pending behind those of the state, and no packet was taken. -/
structure Buffered (state : ParseState) (bytes : List Byte)
    (result : ParseState × List ParseOutcome) : Prop where
  count_eq : result.1.chrCnt = state.chrCnt + bytes.length
  pending_eq : result.1.pending = state.pending ++ bytes
  kept : result.1.realData = state.realData
  packets_eq : packets result.2 = []

/-- Bytes that do not complete a window are buffered. -/
theorem feed_buffered (state : ParseState) (bytes : List Byte)
    (room : state.chrCnt + bytes.length ≤ 10) : Buffered state bytes (feed state bytes) := by
  induction bytes using List.reverseRecOn with
  | nil => exact ⟨rfl, by simp [feed], rfl, rfl⟩
  | append_singleton bytes chr ih =>
      rw [List.length_append, List.length_singleton] at room
      have buffered := ih (by omega)
      have countEq := buffered.count_eq
      have small : (feed state bytes).1.chrCnt ≤ 10 := by omega
      have call := parseData_call small chr
      rw [feed_snoc]
      generalize parseData (feed state bytes).1 chr = result at call ⊢
      cases call with
      | incomplete short nextCount nextPending nextKept =>
          refine ⟨?_, ?_, nextKept.trans buffered.kept, ?_⟩
          · simp only [nextCount, countEq, List.length_append, List.length_singleton]
            omega
          · simp only [nextPending, buffered.pending_eq, List.append_assoc]
          · rw [packets_snoc, buffered.packets_eq]
            rfl
      | rejected full => omega
      | accepted full => omega

/-- Eleven bytes that are no packet leave their last ten behind. -/
theorem feed_of_not_validPacket {state : ParseState} (empty : state.chrCnt = 0)
    {bytes : List Byte} (lengthEq : bytes.length = 11) (invalid : ¬ValidPacket bytes) :
    packets (feed state bytes).2 = [] ∧ (feed state bytes).1.realData = state.realData ∧
      (feed state bytes).1.chrCnt = 10 ∧ (feed state bytes).1.pending = bytes.drop 1 := by
  rcases List.eq_nil_or_concat bytes with rfl | ⟨front, chr, rfl⟩
  · simp at lengthEq
  rw [List.concat_eq_append] at lengthEq invalid ⊢
  rw [List.length_append, List.length_singleton] at lengthEq
  have buffered := feed_buffered state front (by omega)
  have countEq := buffered.count_eq
  have pendingEq : (feed state front).1.pending = front := by
    rw [buffered.pending_eq, ParseState.pending, empty]
    rfl
  have small : (feed state front).1.chrCnt ≤ 10 := by omega
  have call := parseData_call small chr
  rw [feed_snoc]
  generalize parseData (feed state front).1 chr = result at call ⊢
  cases call with
  | incomplete short => omega
  | rejected full _ nextCount nextPending nextKept =>
      refine ⟨?_, nextKept.trans buffered.kept, nextCount, by rw [nextPending, pendingEq]⟩
      rw [packets_snoc, buffered.packets_eq]
      rfl
  | accepted full valid =>
      rw [pendingEq] at valid
      contradiction

/--
With an empty buffer, a packet with one wrong byte is not accepted, changes no angle, and
leaves its last ten bytes pending.
-/
theorem feed_corrupted (before : List Byte) (empty : (feed .initial before).1.chrCnt = 0)
    {packet : List Byte} (valid : ValidPacket packet) {position : ℕ} (inside : position ≤ 10)
    {value : Byte} (different : value ≠ packet.getD position 0) :
    let state := (feed .initial before).1
    let altered := packet.set position value
    let result := feed state altered
    packets result.2 = [] ∧ result.1.realData = state.realData ∧ result.1.chrCnt = 10 ∧
      result.1.pending = altered.drop 1 := by
  intro state altered result
  exact feed_of_not_validPacket empty (by simp [altered, valid.1])
    (not_validPacket_set valid inside different)

/-- An angle packet whose high x byte was changed, behind an acceleration packet. -/
theorem feed_corrupted_angle :
    let before : List Byte := [0x55, 0x51, 1, 0, 0, 0, 0, 0, 0, 0, 0xA7]
    let packet : List Byte := [0x55, 0x53, 0, 0x40, 0, 0, 0, 0, 0, 0, 0xE8]
    let state := (feed .initial before).1
    let altered := packet.set 3 0xC0
    let result := feed state altered
    packets result.2 = [] ∧ result.1.realData = state.realData ∧ result.1.chrCnt = 10 ∧
      result.1.pending = altered.drop 1 := by
  intro before packet
  exact feed_corrupted before (by decide +kernel) (by decide) (by decide) (by decide)

end ArmSimulator
