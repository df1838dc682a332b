import Mathlib.Data.Rat.Cast.Order
import Mathlib.Tactic.Linarith
import Mathlib.Tactic.NormNum
import ArmSimulator.Imu.Framing

/-!
# The angles that `WT901_Get_data` returns

The reads of the port only cut the stream: the parser state after any sequence of reads is
the state after the bytes they delivered. What `real_data` holds is then an invariant of
`ParseData` alone, about the last accepted angle packet.
-/

namespace ArmSimulator

/-- The signed word of an axis, in degrees. -/
def angle (packet : List Byte) (axis : Fin 3) : ℚ :=
  (LittleEndian.signed [packet.getD (2 + 2 * axis.val) 0, packet.getD (3 + 2 * axis.val) 0] : ℚ) *
    180 / 32768

def received (results : List RecvResult) : List Byte := results.flatMap RecvResult.bytes

theorem angle_mem_range (packet : List Byte) (axis : Fin 3) :
    -180 ≤ angle packet axis ∧ angle packet axis < 180 := by
  have range := LittleEndian.signed_mem_range
    [packet.getD (2 + 2 * axis.val) 0, packet.getD (3 + 2 * axis.val) 0] (by simp)
  simp only [List.length_cons, List.length_nil] at range
  have lower : (-32768 : ℚ) ≤ LittleEndian.signed
      [packet.getD (2 + 2 * axis.val) 0, packet.getD (3 + 2 * axis.val) 0] := by
    exact_mod_cast range.1
  have upper : (LittleEndian.signed
      [packet.getD (2 + 2 * axis.val) 0, packet.getD (3 + 2 * axis.val) 0] : ℚ) ≤ 32767 := by
    exact_mod_cast Int.le_of_lt_add_one (by simpa using range.2)
  unfold angle
  constructor <;> linarith

/-! ## The reads -/

namespace Imu

/-- A read feeds the parser the bytes it delivers; a failed one feeds it none. -/
theorem parser_wt901GetData (imu : Imu) (result : RecvResult) :
    (imu.wt901GetData result).parser = (feed imu.parser result.bytes).1 := by
  cases result with
  | failed => simp [wt901GetData, RecvResult.ret, RecvResult.bytes]
  | received bytes bounded => simp [wt901GetData, RecvResult.ret, RecvResult.bytes]

theorem parser_foldl (imu : Imu) (results : List RecvResult) :
    (results.foldl wt901GetData imu).parser = (feed imu.parser (received results)).1 := by
  induction results generalizing imu with
  | nil => rfl
  | cons result results ih =>
      rw [List.foldl_cons, ih, parser_wt901GetData, received, received, List.flatMap_cons,
        feed_append]

end Imu

/-! ## The invariant -/

/-- The angles are those of the given packet, or zero, and the other entries are zero. -/
structure HoldsAngles (last : Option (List Byte)) (realData : Vector ℚ 12) : Prop where
  angles_eq : ∀ axis : Fin 3, realData[6 + axis.val] = last.elim 0 fun packet => angle packet axis
  others_eq : ∀ index (inside : index < 12), index < 6 ∨ 8 < index → realData[index] = 0

def lastAnglePacket (outcomes : List ParseOutcome) : Option (List Byte) :=
  ((packets outcomes).filter fun packet => IsAnglePacket packet).getLast?

theorem lastAnglePacket_snoc (outcomes : List ParseOutcome) (outcome : ParseOutcome) :
    lastAnglePacket (outcomes ++ [outcome]) =
      (lastAnglePacket [outcome]).or (lastAnglePacket outcomes) := by
  simp [lastAnglePacket, packets_snoc]

@[simp]
theorem lastAnglePacket_incomplete : lastAnglePacket [.incomplete] = none := rfl

@[simp]
theorem lastAnglePacket_rejected : lastAnglePacket [.rejected] = none := rfl

theorem lastAnglePacket_accepted (packet : List Byte) :
    lastAnglePacket [.accepted packet] = if IsAnglePacket packet then some packet else none := by
  by_cases isAngle : IsAnglePacket packet <;> simp [lastAnglePacket, packets, isAngle]

theorem storeAngles_holds {chrBuf : Vector Byte 100} {packet : List Byte}
    (buffered : chrBuf.toList.take 11 = packet) {last : Option (List Byte)}
    {realData : Vector ℚ 12} (holds : HoldsAngles last realData) :
    HoldsAngles (some packet) (storeAngles chrBuf realData) := by
  constructor
  · intro axis
    have wordEq : sData chrBuf ⟨axis.val, by omega⟩ = LittleEndian.signed
        [packet.getD (2 + 2 * axis.val) 0, packet.getD (3 + 2 * axis.val) 0] := by
      rw [getD_of_take buffered _ (by omega), getD_of_take buffered _ (by omega)]
      rfl
    have isAngle : 6 ≤ 6 + axis.val ∧ 6 + axis.val ≤ 8 := by omega
    simp only [storeAngles, Vector.getElem_ofFn, isAngle, and_self, ↓reduceDIte,
      Nat.add_sub_cancel_left, wordEq, Option.elim_some, angle]
    ring
  · intro index inside other
    have notAngle : ¬(6 ≤ index ∧ index ≤ 8) := by omega
    simpa [storeAngles, notAngle] using holds.others_eq index inside other

theorem feed_holdsAngles (stream : List Byte) :
    HoldsAngles (lastAnglePacket (feed .initial stream).2) (feed .initial stream).1.realData := by
  induction stream using List.reverseRecOn with
  | nil => exact ⟨fun axis => by simp [feed, ParseState.initial, lastAnglePacket, packets],
      fun index inside other => by simp [feed, ParseState.initial]⟩
  | append_singleton stream chr ih =>
      rw [feed_snoc, lastAnglePacket_snoc]
      have small := (feed_tracks stream).small
      have call := parseData_call small chr
      generalize parseData (feed .initial stream).1 chr = result at call ⊢
      cases call with
      | incomplete short countEq pendingEq kept => simpa [kept] using ih
      | rejected full invalid countEq pendingEq kept => simpa [kept] using ih
      | accepted full valid countEq stored =>
          have buffered := take_setIfInBounds (feed .initial stream).1.chrBuf small chr
          simp only [full] at buffered
          rw [stored, lastAnglePacket_accepted]
          by_cases isAngle : IsAnglePacket ((feed .initial stream).1.pending ++ [chr])
          · rw [if_pos isAngle, if_pos isAngle, Option.some_or]
            apply storeAngles_holds _ ih
            rw [buffered, ParseState.pending, full]
          · rw [if_neg isAngle, if_neg isAngle, Option.none_or]
            exact ih

/-- The last angle packet in the leftmost framing of a stream. -/
def latestAnglePacket (stream : List Byte) : Option (List Byte) :=
  (((framing stream).1.map (packetAt stream)).filter fun packet => IsAnglePacket packet).getLast?

theorem lastAnglePacket_eq_latest (stream : List Byte) :
    lastAnglePacket (feed .initial stream).2 = latestAnglePacket stream := by
  rw [lastAnglePacket, (feed_tracks stream).packets_eq, latestAnglePacket]

/-- The angles depend only on the bytes received, through their leftmost framing. -/
theorem realData_latest (stream : List Byte) (axis : Fin 3) :
    (feed .initial stream).1.realData[6 + axis.val] =
      (latestAnglePacket stream).elim 0 fun packet => angle packet axis := by
  rw [← lastAnglePacket_eq_latest]
  exact (feed_holdsAngles stream).angles_eq axis

theorem lastAnglePacket_feed (stream : List Byte) :
    lastAnglePacket (feed .initial stream).2 =
      ((packetStarts 0 (feed .initial stream).2).filter
        fun start => IsAnglePacket (packetAt stream start)).getLast?.map (packetAt stream) := by
  have tracks := feed_tracks stream
  rw [lastAnglePacket, tracks.packets_eq, tracks.starts_eq, List.filter_map, List.getLast?_map]
  rfl

/-- A call changes the angles only when it accepts an angle packet. -/
theorem parseData_realData (state : ParseState) (chr : Byte)
    (other : ∀ packet, (parseData state chr).2 = .accepted packet → ¬IsAnglePacket packet) :
    (parseData state chr).1.realData = state.realData := by
  simp only [parseData] at other ⊢
  split_ifs with short bad typeEq
  · rfl
  · rfl
  · rw [if_neg short, if_neg bad] at other
    exact absurd ((getD_of_take rfl 1 (by omega)).trans typeEq) (other _ rfl)
  · rfl

/--
However the stream is cut into reads, the angles returned are the words of the last angle
packet that `ParseData` accepted in the concatenated bytes.
-/
theorem wt901GetData_latestAngles (results : List RecvResult) :
    let stream := received results
    let realData := (results.foldl Imu.wt901GetData .initial).parser.realData
    let angleStarts := (packetStarts 0 (feed .initial stream).2).filter
      fun start => IsAnglePacket (packetAt stream start)
    (∀ axis : Fin 3, realData[6 + axis.val] =
      match angleStarts.getLast? with
      | none => 0
      | some start => angle (packetAt stream start) axis) ∧
    (∀ axis : Fin 3, -180 ≤ realData[6 + axis.val] ∧ realData[6 + axis.val] < 180) ∧
    (∀ index (inside : index < 12), index < 6 ∨ 8 < index → realData[index] = 0) ∧
    (∀ (state : ParseState) (chr : Byte),
      (∀ packet, (parseData state chr).2 = .accepted packet → ¬IsAnglePacket packet) →
        (parseData state chr).1.realData = state.realData) ∧
    ∀ imu : Imu, (imu.wt901GetData .failed).parser = imu.parser := by
  intro stream realData angleStarts
  have stateEq : realData = (feed .initial stream).1.realData :=
    congrArg ParseState.realData (Imu.parser_foldl .initial results)
  have holds := feed_holdsAngles stream
  rw [← stateEq, lastAnglePacket_feed] at holds
  have anglesEq := holds.angles_eq
  refine ⟨?_, ?_, holds.others_eq, parseData_realData, fun imu => imu.parser_wt901GetData .failed⟩
  · intro axis
    rw [anglesEq axis, Option.elim_map]
    cases angleStarts.getLast? <;> rfl
  · intro axis
    rw [anglesEq axis, Option.elim_map]
    cases angleStarts.getLast? with
    | none => simp
    | some start => exact angle_mem_range _ axis

/-- A packet with 90 degrees about the last axis, behind a stray byte and cut by a failed read. -/
example :
    let reads : List RecvResult := [.received [0x00, 0x55, 0x53, 0x00, 0x00, 0x00] (by decide),
      .failed, .received [0x00, 0x00, 0x40, 0x00, 0x00, 0xE8] (by decide)]
    (reads.foldl Imu.wt901GetData .initial).parser.realData[8] = 90 := by
  decide +kernel

end ArmSimulator
