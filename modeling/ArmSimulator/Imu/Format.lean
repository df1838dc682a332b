import Mathlib.Data.List.Forall2
import Mathlib.Tactic.FinCases
import ArmSimulator.Imu.Angles
import ArmSimulator.Imu.Corruption

/-!
# The packet format of the IMU

A sample is what the sensor reports in one packet: a type byte and four words. The packets
that the parser accepts are exactly the encodings of samples. A parser with an empty buffer
takes a sequence of samples apart as it was put together, and of any stream whatever every
byte is accounted for: it is in an accepted packet, was dropped, or is pending.
-/

namespace ArmSimulator

@[ext]
structure Sample where
  kind : Byte
  words : Fin 4 → BitVec 16
  /-- The two bits of the type byte that the parser looks at. -/
  kind_mask : kind &&& 0x50 = 0x50

namespace Sample

/-- The ten bytes that the checksum covers. -/
def body (sample : Sample) : List Byte :=
  0x55 :: sample.kind :: [sample.words 0, sample.words 1, sample.words 2, sample.words 3].flatMap
    fun word => LittleEndian.bytes 2 word.toNat

def packet (sample : Sample) : List Byte :=
  sample.body ++ [BitVec.ofNat 8 (sample.body.map BitVec.toNat).sum]

@[simp]
theorem length_body (sample : Sample) : sample.body.length = 10 := by
  simp [body]

theorem validPacket (sample : Sample) : ValidPacket sample.packet := by
  have front : sample.packet.take 10 = sample.body := by
    rw [packet, List.take_append_of_le_length (by simp), List.take_of_length_le (by simp)]
  refine ⟨by simp [packet], by simp [packet, body], ?_, ?_⟩
  · simpa [packet, body] using sample.kind_mask
  · rw [front]
    simp [packet]

theorem angle_packet (sample : Sample) (axis : Fin 3) :
    angle sample.packet axis = (sample.words axis.castSucc).toInt * 180 / 32768 := by
  rw [← LittleEndian.signed_bytes 2 (sample.words axis.castSucc)]
  fin_cases axis <;> rfl

end Sample

/-! ## What the parser accepts -/

theorem feed_incomplete (state : ParseState) (bytes : List Byte)
    (room : state.chrCnt + bytes.length ≤ 10) :
    (feed state bytes).2 = List.replicate bytes.length .incomplete := by
  induction bytes using List.reverseRecOn with
  | nil => rfl
  | append_singleton bytes chr ih =>
      rw [List.length_append, List.length_singleton] at room ⊢
      have countEq := (feed_buffered state bytes (by omega)).count_eq
      have small : (feed state bytes).1.chrCnt ≤ 10 := by omega
      have call := parseData_call small chr
      rw [feed_snoc, ih (by omega), List.replicate_succ']
      generalize parseData (feed state bytes).1 chr = result at call ⊢
      cases call with
      | incomplete short => rfl
      | rejected full => omega
      | accepted full => omega

/-- With an empty buffer, a packet is accepted with its last byte. -/
theorem feed_of_validPacket {state : ParseState} (empty : state.chrCnt = 0) {bytes : List Byte}
    (valid : ValidPacket bytes) :
    (feed state bytes).1.chrCnt = 0 ∧
      (feed state bytes).2 = List.replicate 10 .incomplete ++ [.accepted bytes] := by
  have lengthEq := valid.1
  rcases List.eq_nil_or_concat bytes with rfl | ⟨front, chr, rfl⟩
  · simp at lengthEq
  rw [List.concat_eq_append] at lengthEq valid ⊢
  rw [List.length_append, List.length_singleton] at lengthEq
  have buffered := feed_buffered state front (by omega)
  have countEq := buffered.count_eq
  have pendingEq : (feed state front).1.pending = front := by
    rw [buffered.pending_eq, ParseState.pending, empty]
    rfl
  have small : (feed state front).1.chrCnt ≤ 10 := by omega
  have call := parseData_call small chr
  rw [feed_snoc, feed_incomplete state front (by omega)]
  generalize parseData (feed state front).1 chr = result at call ⊢
  cases call with
  | incomplete short => omega
  | rejected full invalid =>
      rw [pendingEq] at invalid
      contradiction
  | accepted full _ nextCount =>
      refine ⟨nextCount, ?_⟩
      rw [pendingEq, show front.length = 10 by omega]

theorem feed_samples_inStep {state : ParseState} (empty : state.chrCnt = 0)
    (samples : List Sample) :
    (feed state (samples.flatMap Sample.packet)).1.chrCnt = 0 ∧
      (feed state (samples.flatMap Sample.packet)).2 = samples.flatMap fun sample =>
        List.replicate 10 .incomplete ++ [.accepted sample.packet] := by
  induction samples generalizing state with
  | nil => exact ⟨empty, rfl⟩
  | cons sample samples ih =>
      rcases feed_of_validPacket empty sample.validPacket with ⟨nextEmpty, accepted⟩
      rcases ih nextEmpty with ⟨lastEmpty, rest⟩
      rw [List.flatMap_cons, feed_append, List.flatMap_cons, accepted]
      exact ⟨lastEmpty, by rw [rest]⟩

theorem packets_append (early late : List ParseOutcome) :
    packets (early ++ late) = packets early ++ packets late :=
  List.filterMap_append

theorem packets_samples (samples : List Sample) :
    packets (samples.flatMap fun sample =>
      List.replicate 10 .incomplete ++ [.accepted sample.packet]) = samples.map Sample.packet := by
  induction samples with
  | nil => rfl
  | cons sample samples ih =>
      rw [List.flatMap_cons, packets_append, ih]
      rfl

/-- The sample whose words the angles are. -/
def lastAngleSample (samples : List Sample) : Option Sample :=
  (samples.filter fun sample => sample.kind = 0x53).getLast?

theorem lastAnglePacket_append (early late : List ParseOutcome) :
    lastAnglePacket (early ++ late) = (lastAnglePacket late).or (lastAnglePacket early) := by
  simp [lastAnglePacket, packets_append]

theorem lastAnglePacket_samples (samples : List Sample) :
    lastAnglePacket (samples.flatMap fun sample =>
      List.replicate 10 .incomplete ++ [.accepted sample.packet]) =
        (lastAngleSample samples).map Sample.packet := by
  rw [lastAnglePacket, packets_samples, List.filter_map, List.getLast?_map]
  rfl

/--
Once the buffer is empty, whatever the sensor sends from then on comes out of the reads as it
was sent, however they cut it: every packet is accepted, none of its bytes is dropped, and the
angles are the words of the last angle sample, or else those from before.
-/
theorem wt901GetData_samples (before : List Byte)
    (inStep : (feed .initial before).1.chrCnt = 0) (samples : List Sample)
    (results : List RecvResult)
    (delivered : received results = before ++ samples.flatMap Sample.packet) :
    let outcomes := (feed .initial (received results)).2
    let parser := (results.foldl Imu.wt901GetData .initial).parser
    outcomes.drop before.length = (samples.flatMap fun sample =>
      List.replicate 10 .incomplete ++ [.accepted sample.packet]) ∧
    parser.chrCnt = 0 ∧
    ∀ axis : Fin 3, parser.realData[6 + axis.val] =
      match lastAngleSample samples with
      | some sample => (sample.words axis.castSucc).toInt * 180 / 32768
      | none => (feed .initial before).1.realData[6 + axis.val] := by
  intro outcomes parser
  rcases feed_samples_inStep inStep samples with ⟨lastEmpty, accepted⟩
  have parserEq : parser = (feed .initial (before ++ samples.flatMap Sample.packet)).1 := by
    rw [← delivered]
    exact Imu.parser_foldl .initial results
  have outcomesEq : outcomes = (feed .initial (before ++ samples.flatMap Sample.packet)).2 := by
    rw [← delivered]
  have held := (feed_holdsAngles (before ++ samples.flatMap Sample.packet)).angles_eq
  have heldBefore := (feed_holdsAngles before).angles_eq
  rw [← parserEq] at held
  rw [feed_append] at parserEq outcomesEq held
  rw [accepted] at outcomesEq held
  refine ⟨?_, ?_, ?_⟩
  · rw [outcomesEq, List.drop_append_of_le_length (feed_tracks before).length_eq.ge,
      List.drop_of_length_le (feed_tracks before).length_eq.le, List.nil_append]
  · rw [parserEq]
    exact lastEmpty
  · intro axis
    rw [held axis, lastAnglePacket_append, lastAnglePacket_samples]
    cases lastAngleSample samples with
    | none => exact (heldBefore axis).symm
    | some sample => exact sample.angle_packet axis

/-- A quarter turn about the last axis and another sample, behind a stray byte and a packet. -/
theorem wt901GetData_samples_quarterTurn :
    ((([.received [0x00, 0x55, 0x51, 0x00, 0x00, 0x00, 0x00] (by decide),
      .received [0x00, 0x00, 0x00, 0x00, 0xA6, 0x55, 0x53, 0x00, 0x00] (by decide), .failed,
      .received [0x00, 0x00, 0x00, 0x40, 0x00, 0x00, 0xE8, 0x55, 0x52, 0x00] (by decide),
      .received [0x00, 0x00, 0x00, 0x00, 0x00, 0x00, 0x00, 0xA7] (by decide)] :
        List RecvResult).foldl Imu.wt901GetData .initial).parser.realData[6 + (2 : Fin 3).val] :
          ℚ) = 90 := by
  refine ((wt901GetData_samples
    [0x00, 0x55, 0x51, 0x00, 0x00, 0x00, 0x00, 0x00, 0x00, 0x00, 0x00, 0xA6] (by decide +kernel)
    [⟨0x53, fun index => if index = 2 then 0x4000 else 0, rfl⟩, ⟨0x52, fun _ => 0, rfl⟩]
    _ ?_).2.2 2).trans ?_
  · rfl
  · change ((16384 : ℤ) : ℚ) * 180 / 32768 = 90
    norm_num

/-! ## Every byte is accounted for -/

/-- What leaves the buffer with a call: nothing, the oldest byte, or a packet. -/
def Leaves : ParseOutcome → List Byte → Prop
  | .incomplete, piece => piece = []
  | .rejected, piece => piece.length = 1
  | .accepted packet, piece => piece = packet ∧ ValidPacket packet

theorem parseData_leaves {state : ParseState} (small : state.chrCnt ≤ 10) (chr : Byte) :
    ∃ piece, Leaves (parseData state chr).2 piece ∧
      state.pending ++ [chr] = piece ++ (parseData state chr).1.pending := by
  have call := parseData_call small chr
  have lengthEq := ParseState.length_pending small
  generalize parseData state chr = result at call ⊢
  cases call with
  | incomplete _ _ pendingEq => exact ⟨[], rfl, pendingEq.symm⟩
  | rejected full _ _ pendingEq =>
      refine ⟨(state.pending ++ [chr]).take 1, ?_, ?_⟩
      · simp [Leaves]
      · rw [pendingEq, List.take_append_drop]
  | @accepted next _ valid countEq =>
      have emptied : next.pending = [] := by simp [ParseState.pending, countEq]
      exact ⟨state.pending ++ [chr], ⟨rfl, valid⟩, by simp [emptied]⟩

theorem Leaves.length_eq {outcome : ParseOutcome} {piece : List Byte}
    (leaves : Leaves outcome piece) :
    piece.length = 11 * (packets [outcome]).length + [outcome].count .rejected := by
  cases outcome with
  | incomplete => simp_all [Leaves, packets]
  | rejected => simp_all [Leaves, packets]
  | accepted packet =>
      rcases leaves with ⟨rfl, valid⟩
      simp [packets, valid.1]

/--
The stream is what left the buffer, in the order of the calls, and what is pending in it. An
error message stands for exactly one lost byte, and an accepted packet for eleven.
-/
theorem feed_accounts (stream : List Byte) :
    let state := (feed .initial stream).1
    let outcomes := (feed .initial stream).2
    (∃ pieces, List.Forall₂ Leaves outcomes pieces ∧ stream = pieces.flatten ++ state.pending) ∧
      stream.length =
        11 * (packets outcomes).length + outcomes.count .rejected + state.chrCnt := by
  induction stream using List.reverseRecOn with
  | nil => exact ⟨⟨[], .nil, rfl⟩, rfl⟩
  | append_singleton stream chr ih =>
      rcases ih with ⟨⟨pieces, leave, streamEq⟩, countEq⟩
      have tracks := feed_tracks stream
      rcases parseData_leaves tracks.small chr with ⟨piece, leaves, pendingEq⟩
      have nextTracks := tracks.parseData chr
      have pieceLength := leaves.length_eq
      have lengthEq := congrArg List.length pendingEq
      rw [List.length_append, List.length_append, ParseState.length_pending tracks.small,
        ParseState.length_pending nextTracks.small, List.length_singleton] at lengthEq
      simp only [feed_snoc]
      refine ⟨⟨pieces ++ [piece], ?_, ?_⟩, ?_⟩
      · exact List.rel_append leave (.cons leaves .nil)
      · calc
          stream ++ [chr] = pieces.flatten ++ ((feed .initial stream).1.pending ++ [chr]) := by
            rw [← List.append_assoc, ← streamEq]
          _ = _ := by
            rw [pendingEq, List.flatten_append, List.flatten_singleton, List.append_assoc]
      · rw [packets_append, List.length_append, List.length_append, List.count_append,
          List.length_singleton]
        omega

end ArmSimulator
