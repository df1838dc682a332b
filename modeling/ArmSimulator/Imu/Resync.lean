import ArmSimulator.Imu.Framing

/-!
# Resynchronisation of the IMU parser

Whatever is pending when two adjacent packets arrive, the second one is accepted: in terms
of the framing, the scan enters the first packet at its start or past it, and no window
between the two packets' starts is valid.
-/

namespace ArmSimulator

theorem packetAt_append_length (before bytes : List Byte) (offset : ℕ) :
    packetAt (before ++ bytes) (before.length + offset) = packetAt bytes offset :=
  Framer.window_length_add before bytes offset

theorem packetAt_second {first second : List Byte} (firstValid : ValidPacket first)
    (secondValid : ValidPacket second) : packetAt (first ++ second) 11 = second := by
  rw [packetAt, Framer.window, ← firstValid.1, List.drop_left]
  apply List.take_of_length_le
  rw [secondValid.1]

/-- The framing of a stream that ends with two adjacent packets ends with the second one. -/
theorem framing_resync (before : List Byte) {first second : List Byte}
    (firstValid : ValidPacket first) (secondValid : ValidPacket second)
    (between : ∀ offset, 1 ≤ offset → offset ≤ 10 →
      ¬ValidPacket (packetAt (first ++ second) offset)) :
    ∃ accepted, framing (before ++ (first ++ second)) =
      (accepted ++ [before.length + 11], (before ++ (first ++ second)).length) := by
  have rest := framing_rest before
  have lengthEq : (before ++ (first ++ second)).length = before.length + 22 := by
    simp [firstValid.1, secondValid.1]
  have firstPasses : ValidPacket (packetAt (before ++ (first ++ second)) before.length) := by
    have shift := packetAt_append_length before (first ++ second) 0
    rw [Nat.add_zero] at shift
    rw [shift]
    simpa [packetAt, Framer.window, ← firstValid.1] using firstValid
  have secondPasses : ValidPacket
      (packetAt (before ++ (first ++ second)) (before.length + 11)) := by
    rw [packetAt_append_length, packetAt_second firstValid secondValid]
    exact secondValid
  have fails : ∀ start, before.length < start → start < before.length + 11 →
      ¬ValidPacket (packetAt (before ++ (first ++ second)) start) := by
    intro start after inside
    have offsetEq : before.length + (start - before.length) = start := by omega
    rw [← offsetEq, packetAt_append_length]
    apply between <;> omega
  have resynced : ∃ accepted,
      Framer.scan 10 (fun bytes => decide (ValidPacket bytes)) (before ++ (first ++ second))
          (framing before).2 =
        (accepted ++ [before.length + 11], (before ++ (first ++ second)).length) :=
    Framer.scan_resync lengthEq (decide_eq_true secondPasses)
      (fun start after inside => decide_eq_false (fails start after inside))
      (decide_eq_true firstPasses) rest.1 rest.2
  rcases resynced with ⟨accepted, resynced⟩
  refine ⟨(framing before).1 ++ accepted, ?_⟩
  have continued : framing (before ++ (first ++ second)) = _ :=
    Framer.scan_append before (first ++ second) (Nat.zero_le _)
  rw [continued]
  simp only [framing] at resynced
  rw [resynced]
  simp [framing]

/-- The buffer is empty only behind an accepted packet. -/
theorem accepted_of_empty {stream : List Byte} (nonempty : 0 < stream.length)
    (empty : (feed .initial stream).1.chrCnt = 0) :
    ∃ packet, (feed .initial stream).2.getLast? = some (.accepted packet) := by
  rcases List.eq_nil_or_concat stream with rfl | ⟨stream, chr, rfl⟩
  · simp at nonempty
  · rw [List.concat_eq_append, feed_snoc] at empty ⊢
    have call := parseData_call (feed_tracks stream).small chr
    generalize parseData (feed .initial stream).1 chr = result at call empty ⊢
    cases call with
    | incomplete short countEq => simp [countEq] at empty
    | rejected full invalid countEq => simp [countEq] at empty
    | accepted full valid countEq => simp

theorem getLast?_packets {outcomes : List ParseOutcome} {packet : List Byte}
    (last : outcomes.getLast? = some (.accepted packet)) :
    (packets outcomes).getLast? = some packet := by
  rcases List.getLast?_eq_some_iff.mp last with ⟨early, rfl⟩
  rw [packets_snoc]
  simp [packets]

/--
Whatever came before, after two adjacent packets with no valid window between their starts
the second one has been accepted with its last byte, and the buffer is empty.
-/
theorem feed_resync (before first second : List Byte)
    (firstValid : ValidPacket first) (secondValid : ValidPacket second)
    (between : ∀ offset, 1 ≤ offset → offset ≤ 10 →
      ¬ValidPacket (packetAt (first ++ second) offset)) :
    let result := feed (feed .initial before).1 (first ++ second)
    result.1.chrCnt = 0 ∧ result.2.length = 22 ∧ result.2.getLast? = some (.accepted second) := by
  intro result
  have whole := feed_append .initial before (first ++ second)
  have tracks := feed_tracks (before ++ (first ++ second))
  have beforeTracks := feed_tracks before
  have bytesLength : (first ++ second).length = 22 := by simp [firstValid.1, secondValid.1]
  rcases framing_resync before firstValid secondValid between with ⟨accepted, resynced⟩
  have empty : (feed .initial (before ++ (first ++ second))).1.chrCnt = 0 := by
    have restEq := tracks.rest_eq
    rw [resynced] at restEq
    simpa using restEq
  have outcomesLength : result.2.length = 22 := by
    have lengthEq := tracks.length_eq
    rw [whole, List.length_append, beforeTracks.length_eq, List.length_append, bytesLength]
      at lengthEq
    exact Nat.add_left_cancel lengthEq
  refine ⟨?_, outcomesLength, ?_⟩
  · rw [whole] at empty
    exact empty
  rcases accepted_of_empty (by rw [List.length_append]; omega) empty
    with ⟨packet, last⟩
  have packetEq : some packet = some second := by
    rw [← getLast?_packets last, tracks.packets_eq, resynced, List.map_append,
      List.map_singleton, packetAt_append_length, packetAt_second firstValid secondValid]
    simp
  cases packetEq
  have lateNonempty : result.2 ≠ [] := by
    rw [← List.length_pos_iff]
    omega
  rwa [whole, List.getLast?_append_of_ne_nil _ lateNonempty] at last

/-- A false header is pending when an angle packet and an acceleration packet arrive. -/
theorem feed_resync_falseHeader :
    let first : List Byte := [0x55, 0x53, 0, 0x40, 0, 0, 0, 0, 0, 0, 0xE8]
    let second : List Byte := [0x55, 0x51, 1, 0, 0, 0, 0, 0, 0, 0, 0xA7]
    let result := feed (feed .initial [0x55, 0x53, 0x55]).1 (first ++ second)
    result.1.chrCnt = 0 ∧ result.2.length = 22 ∧ result.2.getLast? = some (.accepted second) := by
  intro first second
  have between : ∀ offset < 11, 1 ≤ offset → ¬ValidPacket (packetAt (first ++ second) offset) := by
    decide
  exact feed_resync [0x55, 0x53, 0x55] first second (by decide) (by decide)
    fun offset after inside => between offset (by omega) after

end ArmSimulator
