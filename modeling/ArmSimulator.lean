import ArmSimulator.Can.ControlLoop
import ArmSimulator.Can.Guard
import ArmSimulator.Can.Provenance
import ArmSimulator.Can.Wire
import ArmSimulator.Imu.Format
import ArmSimulator.Imu.LookAlikes
import ArmSimulator.Imu.Resync
import ArmSimulator.Imu.Servo
import ArmSimulator.Joystick.Workspace
import ArmSimulator.Kinematics.Limits
import ArmSimulator.Kinematics.Poses
import ArmSimulator.Kinematics.TipDrift
import ArmSimulator.Threads.Display
import ArmSimulator.Threads.Progress
import ArmSimulator.Threads.Rounds
import ArmSimulator.Threads.Serial
import ArmSimulator.Threads.Shutdown
import ArmSimulator.Threads.Transactions
import ArmSimulator.X8.Targets
