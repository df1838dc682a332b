import Mathlib.Data.BitVec
import ArmSimulator.CTypes
import ArmSimulator.Lib.Fifo

/-!
# The CAN bus driver

`CAN_BUS_HCPS.c` sends eight-byte commands on one socket and polls another one, in
non-blocking mode, for replies. A poll reads at most one frame. Whatever the frame is
for, it is gone from the socket afterwards; it reaches the caller only when its
identifier and its first byte are the expected ones.
-/

namespace ArmSimulator

/-- Byte 0 of a message, which names the command. -/
def cmdByte (message : Vector Byte 8) : Byte := message[0]

structure CanFrame where
  canId : Word
  canDlc : Byte
  data : Vector Byte 8
  deriving DecidableEq, Repr

/-- A frame after `memset`. -/
def CanFrame.zero : CanFrame := ⟨0, 0, Vector.replicate 8 0⟩

/-- The globals of the driver, the statics of `motor.cpp` and the two sockets. -/
structure CanBus where
  frameSend : CanFrame
  frameRecv : CanFrame
  /-- The static buffer whose address `CAN_BUS_Receive` returns. -/
  receiveBuf : Vector Byte 9
  /-- Whether `can_reply` is not `NULL`; it can only point to `receiveBuf`. -/
  canReply : Bool
  recBuf : Vector Byte 9
  sRecv : Fifo CanFrame
  sSend : List CanFrame

namespace CanBus

def initial : CanBus where
  frameSend := .zero
  frameRecv := .zero
  receiveBuf := Vector.replicate 9 0
  canReply := false
  recBuf := Vector.replicate 9 0
  sRecv := .empty
  sSend := []

def deliver (bus : CanBus) (frames : List CanFrame) : CanBus :=
  { bus with sRecv := bus.sRecv.pushAll frames }

/-- `read` on the receive socket: it fails, or it takes the oldest waiting frame if any. -/
def read (bus : CanBus) (readFails : Bool) : Option (CanFrame × Fifo CanFrame) :=
  if readFails then none else bus.sRecv.pop

end CanBus

/-- The test of `CAN_BUS_Receive` on a received frame. -/
def CanFrame.Answers (frame : CanFrame) (motorCanBusAddr : Word) (cmdNumber : Byte) : Prop :=
  cmdNumber = cmdByte frame.data ∧ frame.canId = motorCanBusAddr + 256

instance (frame : CanFrame) (motorCanBusAddr : Word) (cmdNumber : Byte) :
    Decidable (frame.Answers motorCanBusAddr cmdNumber) :=
  inferInstanceAs (Decidable (_ ∧ _))

/-- The address nibble followed by the eight data bytes, as `CAN_BUS_Receive` copies them. -/
def CanFrame.received (frame : CanFrame) (motorCanBusAddr : Word) : Vector Byte 9 :=
  Vector.ofFn fun index =>
    if zero : index.val = 0 then (0x0F &&& motorCanBusAddr).setWidth 8
    else frame.data[index.val - 1]

/-- `CAN_BUS_Send`: the write of one frame. -/
def canBusSend (commandBuf : Vector Byte 8) (sendCanBusAddr : Word) (bus : CanBus) : CanBus :=
  let frameSend : CanFrame := { canId := sendCanBusAddr, canDlc := 8, data := commandBuf }
  { bus with frameSend, sSend := bus.sSend ++ [frameSend] }

/-- `CAN_BUS_Receive`, with the result left in `can_reply`. -/
def canBusReceive (motorCanBusAddr : Word) (cmdNumber : Byte) (readFails : Bool)
    (bus : CanBus) : CanBus :=
  match bus.read readFails with
  | some (frameRecv, sRecv) =>
      if frameRecv.Answers motorCanBusAddr cmdNumber then
        { bus with
          sRecv
          receiveBuf := frameRecv.received motorCanBusAddr
          frameRecv := .zero
          canReply := true }
      else
        -- The frame was for another motor or command: it is dropped all the same.
        { bus with sRecv, frameRecv := .zero, canReply := false }
  | none => { bus with frameRecv := .zero, canReply := false }

namespace CanBus

@[simp]
theorem deliver_sRecv (bus : CanBus) (frames : List CanFrame) :
    (bus.deliver frames).sRecv = bus.sRecv.pushAll frames := rfl

@[simp]
theorem deliver_sSend (bus : CanBus) (frames : List CanFrame) :
    (bus.deliver frames).sSend = bus.sSend := rfl

end CanBus

@[simp]
theorem canBusSend_sRecv (commandBuf : Vector Byte 8) (address : Word) (bus : CanBus) :
    (canBusSend commandBuf address bus).sRecv = bus.sRecv := rfl

@[simp]
theorem canBusSend_sSend (commandBuf : Vector Byte 8) (address : Word) (bus : CanBus) :
    (canBusSend commandBuf address bus).sSend = bus.sSend ++ [⟨address, 8, commandBuf⟩] := rfl

@[simp]
theorem canBusReceive_sSend (address : Word) (cmdNumber : Byte) (readFails : Bool)
    (bus : CanBus) : (canBusReceive address cmdNumber readFails bus).sSend = bus.sSend := by
  unfold canBusReceive
  split
  · split <;> rfl
  · rfl

@[simp]
theorem canBusReceive_arrived (address : Word) (cmdNumber : Byte) (readFails : Bool)
    (bus : CanBus) :
    (canBusReceive address cmdNumber readFails bus).sRecv.arrived = bus.sRecv.arrived := by
  unfold canBusReceive CanBus.read
  split
  · rename_i popped
    split at popped
    · simp at popped
    · have := (Fifo.pop_eq_some_iff.mp popped).2.1
      split <;> exact this
  · rfl

theorem canBusReceive_of_pop (address : Word) (cmdNumber : Byte) {bus : CanBus}
    {frame : CanFrame} {rest : Fifo CanFrame} (popped : bus.sRecv.pop = some (frame, rest)) :
    (canBusReceive address cmdNumber false bus).sRecv = rest ∧
      ((canBusReceive address cmdNumber false bus).canReply ↔
        frame.Answers address cmdNumber) := by
  simp only [canBusReceive, CanBus.read, Bool.false_eq_true, if_false, popped]
  split <;> simp_all

/--
Everything a non-`NULL` result says: the read took the waiting frame whose number is
`taken`, the frame answers the command, and the buffer holds its bytes.
-/
theorem canBusReceive_of_canReply {address : Word} {cmdNumber : Byte} {readFails : Bool}
    {bus : CanBus} (replied : (canBusReceive address cmdNumber readFails bus).canReply) :
    ∃ frame, bus.sRecv.arrived[bus.sRecv.taken]? = some frame ∧
      frame.Answers address cmdNumber ∧
      (canBusReceive address cmdNumber readFails bus).receiveBuf = frame.received address ∧
      (canBusReceive address cmdNumber readFails bus).sRecv.taken = bus.sRecv.taken + 1 := by
  unfold canBusReceive CanBus.read at replied ⊢
  split at replied
  · rename_i frame rest read
    split at read
    · simp at read
    · split at replied
      · rename_i answers
        obtain ⟨delivered, -, taken⟩ := Fifo.pop_eq_some_iff.mp read
        exact ⟨frame, delivered, answers, by simp [*], by simp [*]⟩
      · simp at replied
  · simp at replied

theorem canBusReceive_taken (address : Word) (cmdNumber : Byte) (readFails : Bool)
    (bus : CanBus) :
    (canBusReceive address cmdNumber readFails bus).sRecv.taken = bus.sRecv.taken ∨
      (canBusReceive address cmdNumber readFails bus).sRecv.taken = bus.sRecv.taken + 1 := by
  unfold canBusReceive CanBus.read
  split
  · rename_i popped
    split at popped
    · simp at popped
    · right
      have := (Fifo.pop_eq_some_iff.mp popped).2.2
      split <;> exact this
  · exact Or.inl rfl

end ArmSimulator
