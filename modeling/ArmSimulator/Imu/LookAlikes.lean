import Mathlib.Data.List.GetD
import ArmSimulator.Imu.Framing

/-!
# What `ParseData` takes for a packet

The test of the type byte is a mask, `(chrBuf[1] & 0x50) != 0x50`, which lets the high nibbles
7, D and F pass beside 5. A stream is parsed into WT901 packets alone exactly when no call
completes such a look-alike.
-/

namespace ArmSimulator

def highNibble (byte : Byte) : Byte := byte >>> 4

/-- Eleven bytes from the sensor: the header, a type 0x50..0x5F and the checksum. -/
def Wt901Packet (bytes : List Byte) : Prop :=
  bytes.length = 11 ∧ bytes.getD 0 0 = 0x55 ∧ highNibble (bytes.getD 1 0) = 5 ∧
    (bytes.getD 10 0).toNat = ((bytes.take 10).map BitVec.toNat).sum % 256

/-- With another type byte, a call that fills the buffer shifts it by one byte. -/
def ShiftsOthers (state : ParseState) (chr : Byte) : Prop :=
  state.chrCnt = 10 → highNibble ((state.pending ++ [chr]).getD 1 0) ≠ 5 →
    (parseData state chr).2 = .rejected ∧
      (parseData state chr).1.pending = (state.pending ++ [chr]).drop 1

/-- Accepted windows are WT901 packets, and a window of another type is shifted. -/
structure OnlyPackets (stream : List Byte) : Prop where
  accepted_wt901 : ∀ packet ∈ packets (feed .initial stream).2, Wt901Packet packet
  others_shifted : ∀ before chr, before ++ [chr] <+: stream →
    ShiftsOthers (feed .initial before).1 chr

/-- The byte is the checksum of ten pending ones that begin with the header and a type byte of
high nibble 7, D or F. -/
def CompletesLookAlike (state : ParseState) (chr : Byte) : Prop :=
  state.chrCnt = 10 ∧ state.pending.getD 0 0 = 0x55 ∧
    (highNibble (state.pending.getD 1 0) = 7 ∨ highNibble (state.pending.getD 1 0) = 0xD ∨
      highNibble (state.pending.getD 1 0) = 0xF) ∧
    chr.toNat = (state.pending.map BitVec.toNat).sum % 256

theorem mask_iff : ∀ byte : Byte, byte &&& 0x50 = 0x50 ↔
    highNibble byte = 5 ∨ highNibble byte = 7 ∨ highNibble byte = 0xD ∨ highNibble byte = 0xF := by
  decide

theorem highNibble_ne_five : ∀ byte : Byte,
    highNibble byte = 7 ∨ highNibble byte = 0xD ∨ highNibble byte = 0xF → highNibble byte ≠ 5 := by
  decide

theorem wt901Packet_iff (bytes : List Byte) :
    Wt901Packet bytes ↔ ValidPacket bytes ∧ highNibble (bytes.getD 1 0) = 5 := by
  have masked := (mask_iff (bytes.getD 1 0)).mpr
  simp only [Wt901Packet, ValidPacket]
  tauto

/-! ## One call -/

/-- With its last byte, a full buffer is a look-alike when it passes with another type. -/
theorem completesLookAlike_iff {state : ParseState} (full : state.chrCnt = 10) (chr : Byte) :
    CompletesLookAlike state chr ↔
      ValidPacket (state.pending ++ [chr]) ∧
        highNibble ((state.pending ++ [chr]).getD 1 0) ≠ 5 := by
  have length : state.pending.length = 10 := by
    rw [ParseState.length_pending (by omega), full]
  have headEq : ∀ index < 10,
      (state.pending ++ [chr]).getD index 0 = state.pending.getD index 0 := by
    intro index inside
    rw [List.getD_append _ _ _ _ (by omega)]
  have lastEq : (state.pending ++ [chr]).getD 10 0 = chr := by
    rw [List.getD_append_right _ _ _ _ (by omega), length]
    rfl
  have takeEq : (state.pending ++ [chr]).take 10 = state.pending := List.take_left' length
  have masked := mask_iff (state.pending.getD 1 0)
  have other := highNibble_ne_five (state.pending.getD 1 0)
  simp only [CompletesLookAlike, ValidPacket, full, lastEq, takeEq, headEq 0 (by omega),
    headEq 1 (by omega), List.length_append, length, List.length_singleton]
  tauto

def CallSound (state : ParseState) (chr : Byte) : Prop :=
  (∀ packet, (parseData state chr).2 = .accepted packet → Wt901Packet packet) ∧
    ShiftsOthers state chr

theorem callSound_iff {state : ParseState} (small : state.chrCnt ≤ 10) (chr : Byte) :
    CallSound state chr ↔ ¬CompletesLookAlike state chr := by
  have call := parseData_call small chr
  simp only [CallSound, ShiftsOthers]
  generalize parseData state chr = result at call ⊢
  cases call with
  | incomplete short countEq pendingEq kept =>
      have notFull : state.chrCnt ≠ 10 := by omega
      simp [CompletesLookAlike, notFull]
  | rejected full invalid countEq pendingEq kept =>
      rw [completesLookAlike_iff full]
      simp [invalid, pendingEq]
  | accepted full valid countEq stored =>
      rw [completesLookAlike_iff full]
      simp [wt901Packet_iff, valid, full]

/-! ## The run -/

theorem forall_mem_packets_iff (Good : List Byte → Prop) (outcomes : List ParseOutcome) :
    (∀ packet ∈ packets outcomes, Good packet) ↔
      ∀ outcome ∈ outcomes, ∀ packet, outcome = .accepted packet → Good packet := by
  constructor
  · intro good outcome mem packet accepted
    exact good packet (List.mem_filterMap.mpr ⟨outcome, mem, by rw [accepted]⟩)
  · intro good packet mem
    rcases List.mem_filterMap.mp mem with ⟨outcome, outcomeMem, kept⟩
    cases outcome with
    | accepted other => exact good _ outcomeMem packet (by simpa using kept)
    | incomplete => simp at kept
    | rejected => simp at kept

/--
The parser consumes packets alone exactly when no byte completes a look-alike: the header, a
type byte with high nibble 7, D or F, and the right checksum.
-/
theorem feed_onlyPackets_iff (stream : List Byte) :
    OnlyPackets stream ↔ ∀ before chr, before ++ [chr] <+: stream →
      ¬CompletesLookAlike (feed .initial before).1 chr := by
  have accepted : (∀ packet ∈ packets (feed .initial stream).2, Wt901Packet packet) ↔
      ∀ before chr, before ++ [chr] <+: stream →
        ∀ packet, (parseData (feed .initial before).1 chr).2 = .accepted packet →
          Wt901Packet packet := by
    rw [forall_mem_packets_iff, feed, Machine.forall_mem_trace_iff]
    simp [feed]
  have calls : OnlyPackets stream ↔ ∀ before chr, before ++ [chr] <+: stream →
      CallSound (feed .initial before).1 chr := by
    constructor
    · intro only before chr sofar
      exact ⟨accepted.mp only.accepted_wt901 before chr sofar,
        only.others_shifted before chr sofar⟩
    · intro sound
      exact ⟨accepted.mpr fun before chr sofar => (sound before chr sofar).1,
        fun before chr sofar => (sound before chr sofar).2⟩
  rw [calls]
  apply forall_congr'
  intro before
  simp only [callSound_iff (feed_tracks before).small]

/-- A window with the type byte 0x71 is accepted. -/
theorem lookAlike_not_onlyPackets :
    let stream : List Byte := [0x55, 0x71, 0, 0, 0, 0, 0, 0, 0, 0, 0xC6]
    packets (feed .initial stream).2 = [stream] ∧ ¬OnlyPackets stream := by
  intro stream
  have swallowed : packets (feed .initial stream).2 = [stream] := by decide +kernel
  refine ⟨swallowed, ?_⟩
  intro only
  have packet := only.accepted_wt901 stream (by simp [swallowed])
  exact absurd packet.2.2.1 (by decide)

end ArmSimulator
