import ArmSimulator.Can.SetPoint

/-!
# A position word on the wire

`set_position` slices a word into four bytes. A reply of the motor with these bytes in
`data[4..7]` reaches `read_position` behind the address byte, and the signed sum of shifted
bytes there is the word again.
-/

namespace ArmSimulator.Motor

/--
A position reply that is oldest when the motor polls, and carries the target bytes that
`set_position` sends for a word, sets `position_` to the signed value of the word in
hundredths, without an overflow.
-/
theorem readPosition_word (motor : Motor) (word : Word) {frame : CanFrame} {bus : CanBus}
    {during : List CanFrame} (sender : frame.canId = motor.canAddress + 256)
    (command : cmdByte frame.data = 0x92)
    (carries : frame.data.toList.drop 4 = (setPositionBuf word).toList.drop 4)
    (oldest : (bus.sRecv.arrived ++ during)[bus.sRecv.taken]? = some frame) :
    let result := motor.readPosition during false bus
    result.2.1.receiveBuf = frame.received motor.canAddress ∧
      result.1.position = .finite (word.toInt * (1 / 100)) ∧
      decodePosition? result.2.1.receiveBuf = some word.toInt := by
  intro result
  let waiting : CanBus := (motor.readPositionSend bus).deliver during
  have answers : frame.Answers motor.canAddress (cmdByte getPositionMsg) := ⟨command.symm, sender⟩
  have popped : waiting.sRecv.pop =
      some (frame, ⟨bus.sRecv.arrived ++ during, bus.sRecv.taken + 1,
        (List.getElem?_eq_some_iff.mp oldest).1⟩) :=
    Fifo.pop_eq_some_iff.mpr ⟨oldest, rfl, rfl⟩
  have replied := (canBusReceive_of_pop motor.canAddress (cmdByte getPositionMsg) popped).2.mpr
    answers
  have frameEq : ∀ {other : CanFrame}, waiting.sRecv.arrived[waiting.sRecv.taken]? = some other →
      other = frame := fun delivered => Option.some.inj (delivered.symm.trans oldest)
  have buffer : result.2.1.receiveBuf = frame.received motor.canAddress := by
    rcases canBusReceive_of_canReply replied with ⟨other, delivered, -, bufferEq, -⟩
    rw [← frameEq delivered, ← bufferEq]
    exact motor.readPositionReceive_receiveBuf false waiting
  have position : result.1.position = .finite frame.reportedPosition := by
    rcases motor.readPositionReceive_cases false waiting with
      ⟨silent, -, -⟩ | ⟨other, delivered, -, -, changed, -⟩
    · rw [silent] at replied
      contradiction
    · rw [← frameEq delivered]
      exact congrArg Motor.position changed
  refine ⟨buffer, ?_, ?_⟩
  · rw [position, ← reportedPosition_eq frame motor.canAddress, decodePosition_of_carries carries]
  · rw [buffer, decodePosition?_eq, decodePosition_of_carries carries]

/-- A reply of the elbow motor with the word of the lowest position, minus 90 degrees. -/
theorem readPosition_word_lowest :
    let frame : CanFrame := ⟨0x241, 8, #v[0x92, 0, 0, 0, 0xD8, 0xDC, 0xFF, 0xFF]⟩
    let result := (Motor.mk .nan 0x141).readPosition [frame] false .initial
    result.2.1.receiveBuf = frame.received 0x141 ∧
      result.1.position = .finite ((0xFFFFDCD8 : Word).toInt * (1 / 100)) ∧
      decodePosition? result.2.1.receiveBuf = some (0xFFFFDCD8 : Word).toInt :=
  readPosition_word (Motor.mk .nan 0x141) 0xFFFFDCD8 (by decide) (by decide) (by decide) rfl

end ArmSimulator.Motor
