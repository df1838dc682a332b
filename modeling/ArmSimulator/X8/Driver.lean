import ArmSimulator.CTypes
import ArmSimulator.Lib.Machine

/-!
# The driver of the X8 motor

`x8-can.cpp`. Each kind of command keeps its message in a static structure, and all share
one static transmit buffer. A command that has data is packed into the whole buffer; a
request only sets the command byte. The frames given to `cansend` are the events.
-/

namespace ArmSimulator.X8

/-- `x8_can_msg_handler_send_type_t`. -/
inductive MsgHandler where
  | readPidData | writePidToRam | writePidToRom | readAcceleration | writeAcceleration
  | readEncodeData | writeEncoderOffset | writeCurrentPosition | readMultiTurnsAngle
  | readSingleCircleAngle | readMotorStatus | clearMotorErrorFlag | readMotorStatus2
  | readMotorStatus3 | motorOff | motorStop | motorRunning | torqueClosedLoop
  | speedClosedLoop | positionCtrl1 | positionCtrl2 | positionCtrl3 | positionCtrl4
  deriving DecidableEq, Repr

inductive MotorDir where
  | clockwise
  | counterClockwise
  deriving DecidableEq, Repr

def MotorDir.toByte : MotorDir → Byte
  | clockwise => 0
  | counterClockwise => 1

/-- `x8_motor_command_t`. The last constructor is for a value that is no enumerator. -/
inductive MotorCommand where
  | off
  | stop
  | run
  | unknown
  deriving DecidableEq, Repr

/-! ## The messages -/

structure MsgWriteEncodeOffsetCmd where
  (cmdByte data1 data2 data3 data4 data5 encodeOffsetLow encodeOffsetHigh : Byte)

structure MsgTorqueCloseLoopCmd where
  (cmdByte data1 data2 data3 torqueCurrentLow torqueCurrentHigh data6 data7 : Byte)

structure MsgSpeedCloseLoopCmd where
  (cmdByte data1 data2 data3 speedCtrlLowest speedCtrlLow speedCtrlHigh speedCtrlHighest : Byte)

structure MsgPositionCtrl1Cmd where
  (cmdByte data1 data2 data3 posCtrlLowest posCtrlLow posCtrlHigh posCtrlHighest : Byte)

structure MsgPositionCtrl2Cmd where
  (cmdByte data1 speedLimitedLow speedLimitedHigh : Byte)
  (posCtrlLowest posCtrlLow posCtrlHigh posCtrlHighest : Byte)

structure MsgPositionCtrl3Cmd where
  (cmdByte spinDir data2 data3 posCtrlLow posCtrlHigh data6 data7 : Byte)

structure MsgPositionCtrl4Cmd where
  (cmdByte spinDir speedLimitedLow speedLimitedHigh posCtrlLow posCtrlHigh data6 data7 : Byte)

/-- The statics that the senders use. -/
structure Driver where
  canTxData : Vector Byte 8
  msgWriteEncodeOffsetCmd : MsgWriteEncodeOffsetCmd
  msgSpeedCloseLoopCmd : MsgSpeedCloseLoopCmd
  msgTorqueCloseLoopCmd : MsgTorqueCloseLoopCmd
  msgPositionCtrl1Cmd : MsgPositionCtrl1Cmd
  msgPositionCtrl2Cmd : MsgPositionCtrl2Cmd
  msgPositionCtrl3Cmd : MsgPositionCtrl3Cmd
  msgPositionCtrl4Cmd : MsgPositionCtrl4Cmd

/-- What `cansend` is called with. -/
structure Frame where
  msgId : BitVec 16
  buffer : Vector Byte 8
  deriving DecidableEq, Repr

namespace Driver

/-- Statics are zero when the program starts. -/
def initial : Driver where
  canTxData := Vector.replicate 8 0
  msgWriteEncodeOffsetCmd := ⟨0, 0, 0, 0, 0, 0, 0, 0⟩
  msgSpeedCloseLoopCmd := ⟨0, 0, 0, 0, 0, 0, 0, 0⟩
  msgTorqueCloseLoopCmd := ⟨0, 0, 0, 0, 0, 0, 0, 0⟩
  msgPositionCtrl1Cmd := ⟨0, 0, 0, 0, 0, 0, 0, 0⟩
  msgPositionCtrl2Cmd := ⟨0, 0, 0, 0, 0, 0, 0, 0⟩
  msgPositionCtrl3Cmd := ⟨0, 0, 0, 0, 0, 0, 0, 0⟩
  msgPositionCtrl4Cmd := ⟨0, 0, 0, 0, 0, 0, 0, 0⟩

/-! ## Packing -/

def packMsgEncodeOffsetCmd (driver : Driver) : Driver :=
  let msg := { driver.msgWriteEncodeOffsetCmd with cmdByte := 0x91 }
  { driver with
    msgWriteEncodeOffsetCmd := msg
    canTxData := #v[msg.cmdByte, msg.data1, msg.data2, msg.data3, msg.data4, msg.data5,
      msg.encodeOffsetLow, msg.encodeOffsetHigh] }

def packMsgSpeedCloseLoopCmd (driver : Driver) : Driver :=
  let msg := { driver.msgSpeedCloseLoopCmd with cmdByte := 0xA2 }
  { driver with
    msgSpeedCloseLoopCmd := msg
    canTxData := #v[msg.cmdByte, msg.data1, msg.data2, msg.data3, msg.speedCtrlLowest,
      msg.speedCtrlLow, msg.speedCtrlHigh, msg.speedCtrlHighest] }

def packMsgPositionCtrl1Cmd (driver : Driver) : Driver :=
  let msg := { driver.msgPositionCtrl1Cmd with cmdByte := 0xA3 }
  { driver with
    msgPositionCtrl1Cmd := msg
    canTxData := #v[msg.cmdByte, msg.data1, msg.data2, msg.data3, msg.posCtrlLowest,
      msg.posCtrlLow, msg.posCtrlHigh, msg.posCtrlHighest] }

def packMsgPositionCtrl2Cmd (driver : Driver) : Driver :=
  let msg := { driver.msgPositionCtrl2Cmd with cmdByte := 0xA4 }
  { driver with
    msgPositionCtrl2Cmd := msg
    canTxData := #v[msg.cmdByte, msg.data1, msg.speedLimitedLow, msg.speedLimitedHigh,
      msg.posCtrlLowest, msg.posCtrlLow, msg.posCtrlHigh, msg.posCtrlHighest] }

def packMsgPositionCtrl3Cmd (driver : Driver) : Driver :=
  let msg := { driver.msgPositionCtrl3Cmd with cmdByte := 0xA5 }
  { driver with
    msgPositionCtrl3Cmd := msg
    canTxData := #v[msg.cmdByte, msg.spinDir, msg.data2, msg.data3, msg.posCtrlLow,
      msg.posCtrlHigh, msg.data6, msg.data7] }

def packMsgPositionCtrl4Cmd (driver : Driver) : Driver :=
  let msg := { driver.msgPositionCtrl4Cmd with cmdByte := 0xA6 }
  { driver with
    msgPositionCtrl4Cmd := msg
    canTxData := #v[msg.cmdByte, msg.spinDir, msg.speedLimitedLow, msg.speedLimitedHigh,
      msg.posCtrlLow, msg.posCtrlHigh, msg.data6, msg.data7] }

/-- `can_tx_data[0] = …`. -/
def setCmdByte (driver : Driver) (cmdByte : Byte) : Driver :=
  { driver with canTxData := driver.canTxData.setIfInBounds 0 cmdByte }

/-- `m_x8_can_send_msg`. -/
def sendMsg (driver : Driver) (msgHandler : MsgHandler) : Driver × List Frame :=
  let driver := match msgHandler with
    | .writeEncoderOffset => driver.packMsgEncodeOffsetCmd
    | .speedClosedLoop => driver.packMsgSpeedCloseLoopCmd
    | .positionCtrl1 => driver.packMsgPositionCtrl1Cmd
    | .positionCtrl2 => driver.packMsgPositionCtrl2Cmd
    | .positionCtrl3 => driver.packMsgPositionCtrl3Cmd
    | .positionCtrl4 => driver.packMsgPositionCtrl4Cmd
    | .readMotorStatus2 => driver.setCmdByte 0x9C
    | .readMultiTurnsAngle => driver.setCmdByte 0x92
    | .readPidData => driver.setCmdByte 0x30
    | .motorOff => driver.setCmdByte 0x80
    | .motorStop => driver.setCmdByte 0x81
    | .motorRunning => driver.setCmdByte 0x88
    -- The torque command has no case of its own.
    | _ => driver
  (driver, [⟨0x141, driver.canTxData⟩])

/-! ## The senders -/

def sendEncoderOffsetCmd (driver : Driver) (encoderOffset : BitVec 16) : Driver × List Frame :=
  let msg := { driver.msgWriteEncodeOffsetCmd with
    encodeOffsetLow := encoderOffset.setWidth 8
    encodeOffsetHigh := (encoderOffset >>> 8).setWidth 8 }
  { driver with msgWriteEncodeOffsetCmd := msg }.sendMsg .writeEncoderOffset

def sendTorqueCloseLoopCmd (driver : Driver) (torque : BitVec 16) : Driver × List Frame :=
  let msg := { driver.msgTorqueCloseLoopCmd with
    torqueCurrentLow := torque.setWidth 8
    torqueCurrentHigh := (torque.sshiftRight 8).setWidth 8 }
  { driver with msgTorqueCloseLoopCmd := msg }.sendMsg .torqueClosedLoop

/-- Undefined where one of the signed products overflows. -/
def sendSpeedCloseLoopCmd (driver : Driver) (speed : Word) : Option (Driver × List Frame) := do
  let speed ← mulInt? speed 360
  let speed := speed.sdiv 60
  let speed ← mulInt? speed 100
  let msg := { driver.msgSpeedCloseLoopCmd with
    speedCtrlLowest := speed.setWidth 8
    speedCtrlLow := (speed.sshiftRight 8).setWidth 8
    speedCtrlHigh := (speed.sshiftRight 16).setWidth 8
    speedCtrlHighest := (speed.sshiftRight 24).setWidth 8 }
  return { driver with msgSpeedCloseLoopCmd := msg }.sendMsg .speedClosedLoop

/-- Undefined where one of the signed products overflows. -/
def sendPositionCtrl1Cmd (driver : Driver) (posCtrl : Word) : Option (Driver × List Frame) := do
  let posCtrl ← mulInt? posCtrl 100
  let posCtrl ← mulInt? posCtrl 6
  let msg := { driver.msgPositionCtrl1Cmd with
    posCtrlLowest := posCtrl.setWidth 8
    posCtrlLow := (posCtrl.sshiftRight 8).setWidth 8
    posCtrlHigh := (posCtrl.sshiftRight 16).setWidth 8
    posCtrlHighest := (posCtrl.sshiftRight 24).setWidth 8 }
  return { driver with msgPositionCtrl1Cmd := msg }.sendMsg .positionCtrl1

/-- The position is read through a byte pointer, lowest byte first. -/
def sendPositionCtrl2Cmd (driver : Driver) (speedLimited : BitVec 16) (posCtrl : Word) :
    Option (Driver × List Frame) := do
  let speedLimited := speedLimited * 360
  let speedLimited := speedLimited / 60
  let posCtrl ← mulInt? posCtrl 100
  let posCtrl ← mulInt? posCtrl 6
  let msg := { driver.msgPositionCtrl2Cmd with
    speedLimitedLow := speedLimited.setWidth 8
    speedLimitedHigh := (speedLimited >>> 8).setWidth 8
    posCtrlLowest := posCtrl.extractLsb' 0 8
    posCtrlLow := posCtrl.extractLsb' 8 8
    posCtrlHigh := posCtrl.extractLsb' 16 8
    posCtrlHighest := posCtrl.extractLsb' 24 8 }
  return { driver with msgPositionCtrl2Cmd := msg }.sendMsg .positionCtrl2

def sendPositionCtrl3Cmd (driver : Driver) (posCtrl : BitVec 16) (dir : MotorDir) :
    Driver × List Frame :=
  let posCtrl := posCtrl * 100
  let posCtrl := posCtrl * 6
  let msg := { driver.msgPositionCtrl3Cmd with
    spinDir := dir.toByte
    posCtrlLow := posCtrl.setWidth 8
    posCtrlHigh := (posCtrl >>> 8).setWidth 8 }
  { driver with msgPositionCtrl3Cmd := msg }.sendMsg .positionCtrl3

def sendPositionCtrl4Cmd (driver : Driver) (posCtrl speedLimited : BitVec 16)
    (dir : MotorDir) : Driver × List Frame :=
  let speedLimited := speedLimited * 360
  let speedLimited := speedLimited / 60
  let posCtrl := posCtrl * 100
  let posCtrl := posCtrl * 6
  let msg := { driver.msgPositionCtrl4Cmd with
    spinDir := dir.toByte
    speedLimitedLow := speedLimited.setWidth 8
    speedLimitedHigh := (speedLimited >>> 8).setWidth 8
    posCtrlLow := posCtrl.setWidth 8
    posCtrlHigh := (posCtrl >>> 8).setWidth 8 }
  { driver with msgPositionCtrl4Cmd := msg }.sendMsg .positionCtrl4

def sendMotorCommand (driver : Driver) : MotorCommand → Driver × List Frame
  | .off => driver.sendMsg .motorOff
  | .run => driver.sendMsg .motorRunning
  | .stop => driver.sendMsg .motorStop
  | .unknown => (driver, [])

def sendGetMotorStatus (driver : Driver) : Driver × List Frame :=
  driver.sendMsg .readMotorStatus2

def sendGetMotorMultiTurnAngle (driver : Driver) : Driver × List Frame :=
  driver.sendMsg .readMultiTurnsAngle

def sendGetPidData (driver : Driver) : Driver × List Frame := driver.sendMsg .readPidData

end Driver

/-! ## Programs that use the driver -/

/-- A call of one of the senders. -/
inductive Call where
  | encoderOffset (encoderOffset : BitVec 16)
  | torqueCloseLoop (torque : BitVec 16)
  | speedCloseLoop (speed : Word)
  | positionCtrl1 (posCtrl : Word)
  | positionCtrl2 (speedLimited : BitVec 16) (posCtrl : Word)
  | positionCtrl3 (posCtrl : BitVec 16) (dir : MotorDir)
  | positionCtrl4 (posCtrl speedLimited : BitVec 16) (dir : MotorDir)
  | motorCommand (command : MotorCommand)
  | getMotorStatus
  | getMotorMultiTurnAngle
  | getPidData
  deriving DecidableEq, Repr

def Driver.step (driver : Driver) : Call → Option (Driver × List Frame)
  | .encoderOffset encoderOffset => some (driver.sendEncoderOffsetCmd encoderOffset)
  | .torqueCloseLoop torque => some (driver.sendTorqueCloseLoopCmd torque)
  | .speedCloseLoop speed => driver.sendSpeedCloseLoopCmd speed
  | .positionCtrl1 posCtrl => driver.sendPositionCtrl1Cmd posCtrl
  | .positionCtrl2 speedLimited posCtrl => driver.sendPositionCtrl2Cmd speedLimited posCtrl
  | .positionCtrl3 posCtrl dir => some (driver.sendPositionCtrl3Cmd posCtrl dir)
  | .positionCtrl4 posCtrl speedLimited dir =>
      some (driver.sendPositionCtrl4Cmd posCtrl speedLimited dir)
  | .motorCommand command => some (driver.sendMotorCommand command)
  | .getMotorStatus => some driver.sendGetMotorStatus
  | .getMotorMultiTurnAngle => some driver.sendGetMotorMultiTurnAngle
  | .getPidData => some driver.sendGetPidData

/-- A call with an undefined product is refused. -/
def machine : Machine Driver Call Frame := ⟨Driver.step⟩

/-! ## Replies -/

/-- `x8_motor_status_t`. All but the encoder are signed. -/
structure MotorStatus where
  temperature : Byte
  torqueCurrent : BitVec 16
  speed : BitVec 16
  encoder : BitVec 16
  deriving DecidableEq, Repr

/-- `x8_can_get_motor_status`. The product wraps when it is stored in an `int16_t`. -/
def getMotorStatus (canRxData : Vector Byte 8) : MotorStatus :=
  let speed := ((canRxData.get 5).setWidth 16 <<< 8) ||| (canRxData.get 4).setWidth 16
  let speed := speed * 60
  { temperature := canRxData.get 1
    torqueCurrent := ((canRxData.get 3).setWidth 16 <<< 8) ||| (canRxData.get 2).setWidth 16
    speed := speed.sdiv 360
    encoder := ((canRxData.get 7).setWidth 16 <<< 8) ||| (canRxData.get 6).setWidth 16 }

/-- `x8_can_get_motor_multi_turn_angle`. The last byte is used twice. -/
def getMotorMultiTurnAngle (canRxData : Vector Byte 8) : BitVec 64 :=
  let multiTurnAngle : BitVec 64 :=
    ((canRxData.get 7).setWidth 64 <<< 56) ||| ((canRxData.get 7).setWidth 64 <<< 48) |||
      ((canRxData.get 6).setWidth 64 <<< 40) ||| ((canRxData.get 5).setWidth 64 <<< 32) |||
      ((canRxData.get 4).setWidth 64 <<< 24) ||| ((canRxData.get 3).setWidth 64 <<< 16) |||
      ((canRxData.get 2).setWidth 64 <<< 8) ||| (canRxData.get 1).setWidth 64
  (multiTurnAngle.sdiv 100).sdiv 6

end ArmSimulator.X8
