import ArmSimulator.Imu.ParseData
import ArmSimulator.Lib.Framer

/-!
# `ParseData` computes the leftmost framing

The parser sees one byte at a time and shifts its buffer by at most one byte per call. The
invariant `Tracks` says that it nevertheless accepts the packets of the leftmost framing
of the whole stream, and that its buffer holds the open rest of that framing.
-/

namespace ArmSimulator

/-- Eleven bytes with the header bits and the checksum of a packet. -/
def ValidPacket (bytes : List Byte) : Prop :=
  bytes.length = 11 ∧ bytes.getD 0 0 = 0x55 ∧ bytes.getD 1 0 &&& 0x50 = 0x50 ∧
    (bytes.getD 10 0).toNat = ((bytes.take 10).map BitVec.toNat).sum % 256

instance (bytes : List Byte) : Decidable (ValidPacket bytes) :=
  inferInstanceAs (Decidable (_ ∧ _ ∧ _ ∧ _))

def IsAnglePacket (packet : List Byte) : Prop := packet.getD 1 0 = 0x53

instance : DecidablePred IsAnglePacket := fun _ => inferInstanceAs (Decidable (_ = _))

def packetAt (stream : List Byte) (start : ℕ) : List Byte := Framer.window 10 stream start

def framing (stream : List Byte) : List ℕ × ℕ :=
  Framer.scan 10 (fun bytes => decide (ValidPacket bytes)) stream 0

theorem framing_nil : framing [] = ([], 0) := Framer.scan_of_short (by simp)

theorem framing_rest (stream : List Byte) :
    (framing stream).2 ≤ stream.length ∧ stream.length ≤ (framing stream).2 + 10 :=
  have rest := Framer.scan_rest (Nat.zero_le stream.length)
  ⟨rest.1, rest.2.1⟩

/-- Accepted packets stay where they are when the stream grows. -/
theorem map_packetAt_append (stream : List Byte) (late : List Byte) :
    (framing stream).1.map (packetAt (stream ++ late)) =
      (framing stream).1.map (packetAt stream) := by
  apply List.map_congr_left
  intro start mem
  exact Framer.window_append (Framer.scan_valid mem).2.1 late

section Snoc

variable {stream : List Byte} {chr : Byte}

theorem framing_snoc_of_short (short : stream.length < (framing stream).2 + 10) :
    framing (stream ++ [chr]) = framing stream :=
  Framer.scan_snoc_of_short short

variable (full : (framing stream).2 + 10 = stream.length)
include full

theorem framing_snoc_of_valid
    (valid : ValidPacket (packetAt (stream ++ [chr]) (framing stream).2)) :
    framing (stream ++ [chr]) =
      ((framing stream).1 ++ [(framing stream).2], stream.length + 1) :=
  Framer.scan_snoc_of_valid full (decide_eq_true valid)

theorem framing_snoc_of_invalid
    (invalid : ¬ValidPacket (packetAt (stream ++ [chr]) (framing stream).2)) :
    framing (stream ++ [chr]) = ((framing stream).1, (framing stream).2 + 1) :=
  Framer.scan_snoc_of_invalid full (decide_eq_false invalid)

end Snoc

theorem toNat_foldl_add (bytes : List Byte) (sum : Byte) :
    (bytes.foldl (· + ·) sum).toNat = (sum.toNat + (bytes.map BitVec.toNat).sum) % 256 := by
  induction bytes generalizing sum with
  | nil =>
      have := sum.isLt
      simp
      omega
  | cons byte bytes ih =>
      simp only [List.foldl_cons, ih, BitVec.toNat_add, List.map_cons, List.sum_cons]
      omega

theorem getD_of_take {chrBuf : Vector Byte 100} {bytes : List Byte}
    (holds : chrBuf.toList.take 11 = bytes) (index : ℕ) (inside : index < 11) :
    bytes.getD index 0 = chrBuf[index] := by
  simp [← holds, List.getD, inside, Vector.getElem_toList]

/-- The error test of the parser rejects exactly the buffers that hold no packet. -/
theorem badPacket_iff {chrBuf : Vector Byte 100} {bytes : List Byte}
    (holds : chrBuf.toList.take 11 = bytes) : BadPacket chrBuf ↔ ¬ValidPacket bytes := by
  have lengthEq : bytes.length = 11 := by simp [← holds]
  have sumEq : (checkSum chrBuf).toNat = ((bytes.take 10).map BitVec.toNat).sum % 256 := by
    simp [checkSum, toNat_foldl_add, ← holds, List.take_take]
  have sumIff : checkSum chrBuf = chrBuf[10] ↔
      chrBuf[10].toNat = ((bytes.take 10).map BitVec.toNat).sum % 256 := by
    rw [← sumEq, eq_comm]
    exact ⟨fun equal => by rw [equal], BitVec.eq_of_toNat_eq⟩
  simp only [BadPacket, ValidPacket, lengthEq, getD_of_take holds 0 (by omega),
    getD_of_take holds 1 (by omega), getD_of_take holds 10 (by omega),
    ← sumIff, true_and]
  tauto

/-! ## One call -/

def ParseState.pending (state : ParseState) : List Byte := state.chrBuf.toList.take state.chrCnt

theorem ParseState.length_pending {state : ParseState} (small : state.chrCnt ≤ 10) :
    state.pending.length = state.chrCnt := by
  simp [pending]
  omega

/-- What a call does to the partial packet and to `real_data`. -/
inductive ParseCall (state : ParseState) (chr : Byte) : ParseState × ParseOutcome → Prop
  | incomplete {next : ParseState} (short : state.chrCnt < 10)
      (countEq : next.chrCnt = state.chrCnt + 1)
      (pendingEq : next.pending = state.pending ++ [chr])
      (kept : next.realData = state.realData) : ParseCall state chr (next, .incomplete)
  | rejected {next : ParseState} (full : state.chrCnt = 10)
      (invalid : ¬ValidPacket (state.pending ++ [chr]))
      (countEq : next.chrCnt = 10)
      (pendingEq : next.pending = (state.pending ++ [chr]).drop 1)
      (kept : next.realData = state.realData) : ParseCall state chr (next, .rejected)
  | accepted {next : ParseState} (full : state.chrCnt = 10)
      (valid : ValidPacket (state.pending ++ [chr]))
      (countEq : next.chrCnt = 0)
      (stored : next.realData =
        if IsAnglePacket (state.pending ++ [chr]) then
          storeAngles (state.chrBuf.setIfInBounds 10 chr) state.realData
        else state.realData) :
      ParseCall state chr (next, .accepted (state.pending ++ [chr]))

theorem take_setIfInBounds (chrBuf : Vector Byte 100) {chrCnt : ℕ} (small : chrCnt ≤ 10)
    (chr : Byte) : (chrBuf.setIfInBounds chrCnt chr).toList.take (chrCnt + 1) =
      chrBuf.toList.take chrCnt ++ [chr] := by
  apply List.ext_getElem?
  intro index
  simp [List.getElem?_take, List.getElem?_append, List.getElem?_set]
  grind

theorem take_dropOldest (chrBuf : Vector Byte 100) :
    (dropOldest chrBuf).toList.take 10 = (chrBuf.toList.take 11).drop 1 := by
  apply List.ext_getElem?
  intro index
  simp [dropOldest, List.getElem?_take]
  grind

theorem parseData_call {state : ParseState} (small : state.chrCnt ≤ 10) (chr : Byte) :
    ParseCall state chr (parseData state chr) := by
  have extended := take_setIfInBounds state.chrBuf small chr
  have countEq : (state.chrCnt + 1) % 256 = state.chrCnt + 1 := Nat.mod_eq_of_lt (by omega)
  simp only [parseData, countEq]
  by_cases short : state.chrCnt < 10
  · rw [if_pos (by omega)]
    exact .incomplete short rfl extended rfl
  · have full : state.chrCnt = 10 := by omega
    have pendingEq : state.pending = state.chrBuf.toList.take 10 := by
      simp only [ParseState.pending, full]
    simp only [full, ← pendingEq] at extended ⊢
    rw [if_neg (by omega)]
    split
    case isTrue bad =>
      refine .rejected full ((badPacket_iff extended).mp bad) rfl ?_ rfl
      rw [← extended]
      exact take_dropOldest _
    case isFalse good =>
      rw [extended]
      refine .accepted full (not_not.mp fun invalid => good ((badPacket_iff extended).mpr invalid))
        rfl ?_
      simp only [IsAnglePacket, getD_of_take extended 1 (by omega)]

/-! ## The run -/

def packets (outcomes : List ParseOutcome) : List (List Byte) :=
  outcomes.filterMap fun
    | .accepted packet => some packet
    | _ => none

/-- The parser has accepted the framing of the stream so far, and holds its open rest. -/
structure Tracks (stream : List Byte) (state : ParseState) (outcomes : List ParseOutcome) :
    Prop where
  small : state.chrCnt ≤ 10
  pending_eq : state.pending = stream.drop (framing stream).2
  length_eq : outcomes.length = stream.length
  starts_eq : packetStarts 0 outcomes = (framing stream).1
  packets_eq : packets outcomes = (framing stream).1.map (packetAt stream)

theorem packetStarts_snoc (fed : ℕ) (outcomes : List ParseOutcome) (outcome : ParseOutcome) :
    packetStarts fed (outcomes ++ [outcome]) =
      packetStarts fed outcomes ++ packetStarts (fed + outcomes.length) [outcome] := by
  induction outcomes generalizing fed with
  | nil => rfl
  | cons first outcomes ih =>
      have shift : fed + 1 + outcomes.length = fed + (first :: outcomes).length := by
        simp only [List.length_cons]
        omega
      cases first <;> simp [packetStarts, ih, shift]

theorem packets_snoc (outcomes : List ParseOutcome) (outcome : ParseOutcome) :
    packets (outcomes ++ [outcome]) = packets outcomes ++ packets [outcome] :=
  List.filterMap_append

namespace Tracks

variable {stream : List Byte} {state : ParseState} {outcomes : List ParseOutcome}

theorem rest_eq (tracks : Tracks stream state outcomes) :
    (framing stream).2 + state.chrCnt = stream.length := by
  have countEq := congrArg List.length tracks.pending_eq
  have rest := framing_rest stream
  rw [ParseState.length_pending tracks.small, List.length_drop] at countEq
  omega

/-- With its last byte, a full buffer is the window at the open rest. -/
theorem window_eq (tracks : Tracks stream state outcomes) (full : state.chrCnt = 10) (chr : Byte) :
    packetAt (stream ++ [chr]) (framing stream).2 = state.pending ++ [chr] := by
  have restEq := tracks.rest_eq
  rw [tracks.pending_eq, packetAt, Framer.window,
    List.drop_append_of_le_length (by omega), List.take_of_length_le]
  simp
  omega

theorem initial : Tracks [] .initial [] := by
  exact ⟨by decide, by simp [ParseState.pending, ParseState.initial], rfl,
    by simp [packetStarts, framing_nil], by simp [packets, framing_nil]⟩

theorem parseData (tracks : Tracks stream state outcomes) (chr : Byte) :
    Tracks (stream ++ [chr]) (parseData state chr).1 (outcomes ++ [(parseData state chr).2]) := by
  have restEq := tracks.rest_eq
  have lengthEq : ∀ outcome : ParseOutcome,
      (outcomes ++ [outcome]).length = (stream ++ [chr]).length := by simp [tracks.length_eq]
  have call := parseData_call tracks.small chr
  generalize ArmSimulator.parseData state chr = result at call ⊢
  cases call with
  | @incomplete next short countEq pendingEq kept =>
      have frames : framing (stream ++ [chr]) = framing stream :=
        framing_snoc_of_short (by omega)
      refine ⟨by simp only [countEq]; omega, ?_, lengthEq _, ?_, ?_⟩
      · rw [pendingEq, tracks.pending_eq, frames, List.drop_append_of_le_length (by omega)]
      · rw [packetStarts_snoc, tracks.starts_eq, frames]
        simp [packetStarts]
      · rw [packets_snoc, tracks.packets_eq, frames, map_packetAt_append]
        simp [packets]
  | @rejected next full invalid countEq pendingEq kept =>
      have windowEq := tracks.window_eq full chr
      have frames : framing (stream ++ [chr]) = ((framing stream).1, (framing stream).2 + 1) := by
        apply framing_snoc_of_invalid (by omega)
        rwa [windowEq]
      refine ⟨by simp only [countEq]; omega, ?_, lengthEq _, ?_, ?_⟩
      · rw [pendingEq, tracks.pending_eq, frames, ← List.drop_append_of_le_length (by omega),
          List.drop_drop]
      · rw [packetStarts_snoc, tracks.starts_eq, frames]
        simp [packetStarts]
      · rw [packets_snoc, tracks.packets_eq, frames, map_packetAt_append]
        simp [packets]
  | @accepted next full valid countEq stored =>
      have windowEq := tracks.window_eq full chr
      have frames : framing (stream ++ [chr]) =
          ((framing stream).1 ++ [(framing stream).2], stream.length + 1) := by
        apply framing_snoc_of_valid (by omega)
        rwa [windowEq]
      have startEq : stream.length - 10 = (framing stream).2 := by omega
      refine ⟨by simp only [countEq]; omega, ?_, lengthEq _, ?_, ?_⟩
      · simp [ParseState.pending, countEq, frames]
      · rw [packetStarts_snoc, tracks.starts_eq, frames]
        simp [packetStarts, tracks.length_eq, startEq]
      · rw [packets_snoc, tracks.packets_eq, frames, List.map_append, map_packetAt_append,
          List.map_singleton, windowEq]
        rfl

end Tracks

theorem feed_tracks (stream : List Byte) :
    Tracks stream (feed .initial stream).1 (feed .initial stream).2 := by
  induction stream using List.reverseRecOn with
  | nil => exact Tracks.initial
  | append_singleton stream chr ih =>
      rw [feed_snoc]
      exact ih.parseData chr

/-- No call writes behind the eleventh byte of the buffer. -/
theorem parseData_frame {state : ParseState} (small : state.chrCnt ≤ 10) (chr : Byte) {index : ℕ}
    (inside : index < 100) (behind : 10 < index) :
    (parseData state chr).1.chrBuf[index] = state.chrBuf[index] := by
  have stored : (state.chrBuf.setIfInBounds state.chrCnt chr)[index] = state.chrBuf[index] :=
    Vector.getElem_setIfInBounds_ne inside (by omega)
  simp only [parseData]
  split_ifs
  · exact stored
  · rw [← stored]
    simp [dropOldest, show ¬index < 10 by omega]
  all_goals exact stored

theorem feed_frame (stream : List Byte) {index : ℕ} (inside : index < 100) (behind : 10 < index) :
    (feed .initial stream).1.chrBuf[index] = 0 := by
  induction stream using List.reverseRecOn with
  | nil => simp [feed, ParseState.initial]
  | append_singleton stream chr ih =>
      rw [feed_snoc]
      exact (parseData_frame (feed_tracks stream).small chr inside behind).trans ih

/--
Fed one byte at a time, the parser holds the last bytes of the stream in the first eleven
places of its buffer, and accepts the leftmost framing of the stream into packets.
-/
theorem feed_framesLeftmost (stream : List Byte) :
    let state := (feed .initial stream).1
    let accepted := packetStarts 0 (feed .initial stream).2
    (state.chrCnt ≤ 10 ∧
      ∀ index (inside : index < 100), 10 < index → state.chrBuf[index] = 0) ∧
    state.chrBuf.toList.take state.chrCnt = stream.drop (stream.length - state.chrCnt) ∧
    (∀ start ∈ accepted, start + 11 ≤ stream.length ∧ ValidPacket (packetAt stream start)) ∧
    packets (feed .initial stream).2 = accepted.map (packetAt stream) ∧
    accepted.Pairwise (fun early late => early + 11 ≤ late) ∧
    ∀ start, start + 11 ≤ stream.length → ValidPacket (packetAt stream start) →
      start ∉ accepted → ∃ early ∈ accepted, early + 1 ≤ start ∧ start ≤ early + 10 := by
  intro state accepted
  have tracks : Tracks stream state _ := feed_tracks stream
  have restEq := tracks.rest_eq
  have startsEq : accepted = (framing stream).1 := tracks.starts_eq
  rw [startsEq]
  refine ⟨⟨tracks.small, fun index inside behind => feed_frame stream inside behind⟩,
    ?_, ?_, tracks.packets_eq, Framer.scan_disjoint stream 0, ?_⟩
  · rw [show stream.length - state.chrCnt = (framing stream).2 by omega]
    exact tracks.pending_eq
  · intro start mem
    rcases Framer.scan_valid mem with ⟨-, complete, passes⟩
    exact ⟨by omega, of_decide_eq_true passes⟩
  · intro start complete valid missed
    exact Framer.scan_missed (Nat.zero_le _) (by omega) (decide_eq_true valid) missed

end ArmSimulator
