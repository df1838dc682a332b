import ArmSimulator.Imu.Angles

/-!
# The servo value of `IMU_read_thread`

Each iteration reads the port and converts an affine image of the x angle to `u_int32_t`. The
conversion is defined while the image is above -1, that is, while the word of the x angle is
at least -12494. The sensor's range goes down to -32768.
-/

namespace ArmSimulator

/-- The IMU and the global `servo_val`. -/
structure ImuReadThread where
  imu : Imu
  servoVal : Word

/-- What a read gives, and what the conversion gives where C++ leaves it undefined. -/
structure ImuRead where
  result : RecvResult
  unrepresentable : Word

/-- An evaluation of `servo_val`: the angle it reads, the conversion, and the value assigned. -/
structure ServoEvaluation where
  angle : ℚ
  converted : Option Word
  servoVal : Word

/-- The argument of the conversion. -/
def servoScaled (angle : ℚ) : ℚ := (1.0138 * (angle + 71.32) - 2.7326) * 100

namespace ImuReadThread

def initial : ImuReadThread := ⟨.initial, 200⟩

/-- One iteration of `IMU_read_thread`. -/
def iterate (thread : ImuReadThread) (read : ImuRead) : ImuReadThread × List ServoEvaluation :=
  let imu := thread.imu.wt901GetData read.result
  let angle := imu.parser.realData[6]
  let converted := (CFloat.finite (servoScaled angle)).toUInt32?
  let servoVal := converted.getD read.unrepresentable
  (⟨imu, servoVal⟩, [⟨angle, converted, servoVal⟩])

end ImuReadThread

/-- The conversion is defined, and its value is the truncated image of the angle. -/
def ServoEvaluation.Defined (evaluation : ServoEvaluation) : Prop :=
  evaluation.converted = some evaluation.servoVal ∧
    (evaluation.servoVal.toNat : ℤ) = CFloat.truncate (servoScaled evaluation.angle)

/-- The word of the x angle in an angle packet. -/
def xWord (packet : List Byte) : ℤ := LittleEndian.signed [packet.getD 2 0, packet.getD 3 0]

/-! ## One evaluation -/

theorem servoScaled_above_iff (word : ℤ) :
    -1 < servoScaled (word * 180 / 32768) ↔ -12494 ≤ word := by
  have scaled : servoScaled (word * 180 / 32768) =
      (1.0138 * (word * 180 / 32768 + 71.32) - 2.7326) * 100 := rfl
  rw [scaled]
  constructor
  · intro above
    have wide : (-12495 : ℚ) < word := by
      norm_num at above
      linarith
    have : -12495 < word := by exact_mod_cast wide
    omega
  · intro above
    have : (-12494 : ℚ) ≤ word := by exact_mod_cast above
    norm_num
    linarith

/-- Below 180 degrees the image stays small, so only its lower bound matters. -/
theorem converted_iff {angle : ℚ} (upper : angle < 180) :
    (∃ word : Word, (CFloat.finite (servoScaled angle)).toUInt32? = some word ∧
      (word.toNat : ℤ) = CFloat.truncate (servoScaled angle)) ↔ -1 < servoScaled angle := by
  have small : CFloat.truncate (servoScaled angle) ≤ 25206 := by
    apply CFloat.truncate_le
    rw [servoScaled]
    norm_num
    linarith
  rw [← CFloat.truncate_nonneg_iff]
  constructor
  · rintro ⟨word, -, value⟩
    rw [← value]
    exact Int.natCast_nonneg _
  · intro nonneg
    refine ⟨BitVec.ofInt 32 (CFloat.truncate (servoScaled angle)), ?_, ?_⟩
    · rw [CFloat.toUInt32?, if_pos ⟨nonneg, by omega⟩]
    · rw [BitVec.toNat_ofInt]
      omega

theorem iterate_defined_iff (thread : ImuReadThread) (read : ImuRead)
    (upper : (thread.imu.wt901GetData read.result).parser.realData[6] < 180) :
    (∀ evaluation ∈ (thread.iterate read).2, evaluation.Defined) ↔
      (-1 : ℚ) < servoScaled (thread.imu.wt901GetData read.result).parser.realData[6] := by
  rw [← converted_iff upper]
  simp only [ImuReadThread.iterate, List.mem_singleton, forall_eq, ServoEvaluation.Defined]
  constructor
  · rintro ⟨defined, value⟩
    exact ⟨_, defined, value⟩
  · rintro ⟨word, defined, value⟩
    rw [defined, Option.getD_some]
    exact ⟨rfl, value⟩

/-! ## The run -/

theorem realData_six (stream : List Byte) :
    (feed .initial stream).1.realData[6] =
      (latestAnglePacket stream).elim 0 fun packet => (xWord packet : ℚ) * 180 / 32768 :=
  realData_latest stream 0

theorem iterate_imu (reads : List ImuRead) (thread : ImuReadThread) :
    (Machine.trace ImuReadThread.iterate thread reads).1.imu =
      (reads.map ImuRead.result).foldl Imu.wt901GetData thread.imu := by
  induction reads generalizing thread with
  | nil => rfl
  | cons read reads ih =>
      simp only [Machine.trace, ih, List.map_cons, List.foldl_cons]
      rfl

/-- The angle of an evaluation after some reads is that of the latest angle packet. -/
theorem realData_iterate (early : List ImuRead) (read : ImuRead) :
    ((Machine.trace ImuReadThread.iterate .initial early).1.imu.wt901GetData
        read.result).parser.realData[6] =
      (latestAnglePacket (received ((early ++ [read]).map ImuRead.result))).elim 0
        fun packet => (xWord packet : ℚ) * 180 / 32768 := by
  have parserEq := Imu.parser_foldl .initial ((early ++ [read]).map ImuRead.result)
  rw [List.map_append, List.map_singleton, List.foldl_append] at parserEq
  rw [← realData_six, List.map_append, List.map_singleton, iterate_imu]
  exact congrArg (fun state : ParseState => state.realData[6]) parserEq

theorem iterate_latest_defined_iff (early : List ImuRead) (read : ImuRead) :
    (∀ evaluation ∈ (ImuReadThread.iterate
        (Machine.trace ImuReadThread.iterate .initial early).1 read).2, evaluation.Defined) ↔
      ∀ packet, latestAnglePacket (received ((early ++ [read]).map ImuRead.result)) = some packet →
        -12494 ≤ xWord packet := by
  have angleEq := realData_iterate early read
  cases latest : latestAnglePacket (received ((early ++ [read]).map ImuRead.result)) with
  | none =>
      rw [latest, Option.elim_none] at angleEq
      have above : (-1 : ℚ) < servoScaled 0 := by norm_num [servoScaled]
      rw [iterate_defined_iff _ _ (by rw [angleEq]; norm_num), angleEq]
      simp [above]
  | some packet =>
      rw [latest, Option.elim_some] at angleEq
      have upper := (angle_mem_range packet 0).2
      rw [iterate_defined_iff _ _ (by rw [angleEq]; exact upper), angleEq, servoScaled_above_iff]
      simp

/--
Every evaluation of a run is defined exactly when, after every read, the latest angle packet
of the bytes so far has an x word of at least -12494.
-/
theorem servoVal_defined_iff (reads : List ImuRead) :
    (∀ evaluation ∈ (Machine.trace ImuReadThread.iterate .initial reads).2, evaluation.Defined) ↔
      ∀ early, early <+: reads →
        ∀ packet, latestAnglePacket (received (early.map ImuRead.result)) = some packet →
          -12494 ≤ xWord packet := by
  simp only [Machine.forall_mem_trace_iff, iterate_latest_defined_iff]
  constructor
  · intro defined early sofar packet latest
    rcases List.eq_nil_or_concat early with rfl | ⟨before, read, rfl⟩
    · simp [received, latestAnglePacket, framing_nil] at latest
    · rw [List.concat_eq_append] at sofar latest
      exact defined before read sofar packet latest
  · intro bounded early read sofar
    exact bounded (early ++ [read]) sofar

/-- The packet of -180 degrees, the lowest x angle, in one read. -/
theorem lowestAngle_not_defined :
    let packet : List Byte := [0x55, 0x53, 0, 0x80, 0, 0, 0, 0, 0, 0, 0x28]
    let read : ImuRead := ⟨.received packet (by decide), 0⟩
    (ImuReadThread.initial.imu.wt901GetData read.result).parser.realData[6] = -180 ∧
      ¬∀ evaluation ∈ (Machine.trace ImuReadThread.iterate .initial [read]).2,
        evaluation.Defined := by
  intro packet read
  have angleEq :
      (ImuReadThread.initial.imu.wt901GetData read.result).parser.realData[6] = -180 := by
    decide +kernel
  refine ⟨angleEq, ?_⟩
  have upper : (ImuReadThread.initial.imu.wt901GetData read.result).parser.realData[6] < 180 := by
    rw [angleEq]
    norm_num
  rw [Machine.trace, Machine.trace, List.append_nil, iterate_defined_iff _ _ upper, angleEq]
  norm_num [servoScaled]

end ArmSimulator
