import Mathlib.Data.Rat.Defs
import ArmSimulator.CTypes
import ArmSimulator.Lib.LittleEndian
import ArmSimulator.Lib.Machine

/-!
# The IMU parser

`ParseData` takes one byte of the serial stream at a time and keeps a partial packet in a
static buffer. With the eleventh byte it checks the two header bytes and the sum; a packet
that passes is consumed and empties the buffer, and otherwise the oldest byte is dropped.
Only angle packets change `real_data`. `WT901_Get_data` feeds it what one read of the
serial port gives.
-/

namespace ArmSimulator

/-- The statics of `ParseData` and the global it writes. -/
structure ParseState where
  chrBuf : Vector Byte 100
  chrCnt : ℕ
  realData : Vector ℚ 12

/-- Where a call of `ParseData` returns. -/
inductive ParseOutcome where
  /-- The first `return`: fewer than eleven bytes. -/
  | incomplete
  /-- The second `return`, after the error message. -/
  | rejected
  /-- The end of the function, after the packet in the buffer is consumed. -/
  | accepted (packet : List Byte)
  deriving DecidableEq, Repr

namespace ParseState

def initial : ParseState := ⟨Vector.replicate 100 0, 0, Vector.replicate 12 0⟩

end ParseState

/-- `cTemp`, the sum of the first ten bytes in a `char`. -/
def checkSum (chrBuf : Vector Byte 100) : Byte := (chrBuf.toList.take 10).foldl (· + ·) 0

def BadPacket (chrBuf : Vector Byte 100) : Prop :=
  chrBuf[0] ≠ 0x55 ∨ chrBuf[1] &&& 0x50 ≠ 0x50 ∨ checkSum chrBuf ≠ chrBuf[10]

instance (chrBuf : Vector Byte 100) : Decidable (BadPacket chrBuf) :=
  inferInstanceAs (Decidable (_ ∨ _ ∨ _))

/-- `memcpy(&chrBuf[0], &chrBuf[1], 10)`, as an ascending byte copy. -/
def dropOldest (chrBuf : Vector Byte 100) : Vector Byte 100 :=
  Vector.ofFn fun index =>
    if first : index.val < 10 then chrBuf[index.val + 1] else chrBuf[index]

/-- `sData[index]`: the words are copied from byte 2 on, lowest byte first. -/
def sData (chrBuf : Vector Byte 100) (index : Fin 4) : ℤ :=
  LittleEndian.signed [chrBuf[2 + 2 * index.val], chrBuf[3 + 2 * index.val]]

def storeAngles (chrBuf : Vector Byte 100) (realData : Vector ℚ 12) : Vector ℚ 12 :=
  Vector.ofFn fun index =>
    if angle : 6 ≤ index.val ∧ index.val ≤ 8 then
      -- The source's division and product are exact in `double`, and so is the stored `float`.
      (sData chrBuf ⟨index.val - 6, by omega⟩ : ℚ) / 32768 * 180
    else realData[index]

def parseData (state : ParseState) (chr : Byte) : ParseState × ParseOutcome :=
  let chrBuf := state.chrBuf.setIfInBounds state.chrCnt chr
  let chrCnt := (state.chrCnt + 1) % 256
  if chrCnt < 11 then ({ state with chrBuf, chrCnt }, .incomplete)
  else if BadPacket chrBuf then
    ({ state with chrBuf := dropOldest chrBuf, chrCnt := chrCnt - 1 }, .rejected)
  else
    -- The other packet types have empty cases.
    let realData :=
      if chrBuf[1] = 0x53 then storeAngles chrBuf state.realData else state.realData
    ({ chrBuf, chrCnt := 0, realData }, .accepted (chrBuf.toList.take 11))

/-- The bytes fed to `ParseData` one at a time, with the outcome of each call. -/
def feed (state : ParseState) (bytes : List Byte) : ParseState × List ParseOutcome :=
  Machine.trace (fun state chr => ((parseData state chr).1, [(parseData state chr).2])) state bytes

theorem feed_append (state : ParseState) (early late : List Byte) :
    feed state (early ++ late) =
      ((feed (feed state early).1 late).1,
        (feed state early).2 ++ (feed (feed state early).1 late).2) :=
  Machine.trace_append _ state early late

theorem feed_snoc (state : ParseState) (stream : List Byte) (chr : Byte) :
    feed state (stream ++ [chr]) =
      ((parseData (feed state stream).1 chr).1,
        (feed state stream).2 ++ [(parseData (feed state stream).1 chr).2]) := by
  rw [feed, Machine.trace_snoc]
  rfl

/--
The stream positions at which accepted packets start, for calls that begin after `fed`
bytes. The byte that completes a packet is its eleventh.
-/
def packetStarts (fed : ℕ) : List ParseOutcome → List ℕ
  | [] => []
  | .accepted _ :: outcomes => (fed - 10) :: packetStarts (fed + 1) outcomes
  | _ :: outcomes => packetStarts (fed + 1) outcomes

/-! ## Reading the port -/

/-- What one `recv_data` call gives: an error, or at most the 44 bytes asked for. -/
inductive RecvResult where
  | failed
  | received (bytes : List Byte) (bounded : bytes.length ≤ 44)

namespace RecvResult

def bytes : RecvResult → List Byte
  | failed => []
  | received bytes _ => bytes

def ret : RecvResult → ℤ
  | failed => -1
  | received bytes _ => bytes.length

end RecvResult

structure Imu where
  parser : ParseState
  rBuf : List Byte

namespace Imu

def initial : Imu := ⟨.initial, List.replicate 1024 0⟩

/-- `WT901_Get_data`: the bytes read are stored at the front of `r_buf`, then parsed. -/
def wt901GetData (imu : Imu) (result : RecvResult) : Imu :=
  let rBuf := result.bytes ++ imu.rBuf.drop result.bytes.length
  { parser := (feed imu.parser (rBuf.take result.ret.toNat)).1, rBuf }

end Imu

end ArmSimulator
