import ArmConsole.Arithmetic.Alu
import ArmConsole.Arithmetic.Shift
import ArmConsole.CommandLine.Files
import ArmConsole.CommandLine.Options
import ArmConsole.CommandLine.Report
import ArmConsole.CommandLine.Run
import ArmConsole.Configuration
import ArmConsole.Configuration.Text
import ArmConsole.Console
import ArmConsole.Console.Strict
import ArmConsole.Controller.Basic
import ArmConsole.Controller.Interrupts
import ArmConsole.Controller.RegisterMap
import ArmConsole.Controller.Snapshot
import ArmConsole.Controller.StreamChannel
import ArmConsole.Controller.Timers
import ArmConsole.Device.DiagnosticChannel
import ArmConsole.Device.GraphicsRegisters
import ArmConsole.Device.SerialProbe
import ArmConsole.Device.SignalProcessor
import ArmConsole.Device.VideoSerial
import ArmConsole.Expansion.Bus
import ArmConsole.Expansion.Device
import ArmConsole.Expansion.Scripted
import ArmConsole.Instruction.Assembly
import ArmConsole.Instruction.Basic
import ArmConsole.Instruction.Decode
import ArmConsole.Instruction.Encode
import ArmConsole.Json.Token
import ArmConsole.Machine.Basic
import ArmConsole.Machine.Execute
import ArmConsole.Machine.Snapshot
import ArmConsole.Main
import ArmConsole.Memory.Block
import ArmConsole.Memory.GuestMemory
import ArmConsole.Memory.Location
import ArmConsole.Processor.Condition
import ArmConsole.Processor.Core
import ArmConsole.Processor.Execute
import ArmConsole.Processor.Mode
import ArmConsole.Processor.Registers
import ArmConsole.Processor.StatusWord
import ArmConsole.Proofs.Arithmetic.Alu
import ArmConsole.Proofs.Arithmetic.FixedPoint
import ArmConsole.Proofs.Arithmetic.Limbs
import ArmConsole.Proofs.Arithmetic.Shift
import ArmConsole.Proofs.Checked.Access
import ArmConsole.Proofs.Checked.AddressSpace
import ArmConsole.Proofs.Checked.Controller
import ArmConsole.Proofs.Checked.Decode
import ArmConsole.Proofs.Checked.Machine
import ArmConsole.Proofs.Checked.MathCall
import ArmConsole.Proofs.Checked.Memory
import ArmConsole.Proofs.Checked.Processor
import ArmConsole.Proofs.Checked.Registers
import ArmConsole.Proofs.Console.Alike
import ArmConsole.Proofs.Console.Beam
import ArmConsole.Proofs.Console.BeamRange
import ArmConsole.Proofs.Console.Boundary
import ArmConsole.Proofs.Console.Budget
import ArmConsole.Proofs.Console.Interrupts
import ArmConsole.Proofs.Console.Load
import ArmConsole.Proofs.Console.Mirrors
import ArmConsole.Proofs.Console.Mode
import ArmConsole.Proofs.Console.Reset
import ArmConsole.Proofs.Console.Resume
import ArmConsole.Proofs.Console.Run
import ArmConsole.Proofs.Console.Strict
import ArmConsole.Proofs.Controller.Cascade
import ArmConsole.Proofs.Controller.Channels
import ArmConsole.Proofs.Controller.Interrupts
import ArmConsole.Proofs.Controller.Line
import ArmConsole.Proofs.Controller.Pending
import ArmConsole.Proofs.Controller.RegisterMap
import ArmConsole.Proofs.Controller.Snapshot
import ArmConsole.Proofs.Controller.StreamBounds
import ArmConsole.Proofs.Controller.StreamChannel
import ArmConsole.Proofs.Controller.StreamRemaining
import ArmConsole.Proofs.Controller.Streaming
import ArmConsole.Proofs.Controller.Timers
import ArmConsole.Proofs.Expansion.Attachment
import ArmConsole.Proofs.Expansion.Selection
import ArmConsole.Proofs.Expansion.Snapshot
import ArmConsole.Proofs.Expansion.Stream
import ArmConsole.Proofs.Expansion.Vacant
import ArmConsole.Proofs.Instruction.Codec
import ArmConsole.Proofs.Instruction.Fields
import ArmConsole.Proofs.Instruction.ShiftText
import ArmConsole.Proofs.Latest
import ArmConsole.Proofs.Machine.Accesses
import ArmConsole.Proofs.Machine.BlockInverse
import ArmConsole.Proofs.Machine.BlockTransfer
import ArmConsole.Proofs.Machine.Branch
import ArmConsole.Proofs.Machine.Cost
import ArmConsole.Proofs.Machine.ExceptionReturn
import ArmConsole.Proofs.Machine.FiqDelivery
import ArmConsole.Proofs.Machine.FlatRam
import ArmConsole.Proofs.Machine.Frame
import ArmConsole.Proofs.Machine.Services
import ArmConsole.Proofs.Machine.Simulation
import ArmConsole.Proofs.Machine.SingleTransfer
import ArmConsole.Proofs.Machine.Snapshot
import ArmConsole.Proofs.Machine.Step
import ArmConsole.Proofs.Machine.UserMode
import ArmConsole.Proofs.Memory.Alike
import ArmConsole.Proofs.Memory.Block
import ArmConsole.Proofs.Memory.FlatRam
import ArmConsole.Proofs.Memory.Frame
import ArmConsole.Proofs.Memory.Location
import ArmConsole.Proofs.Memory.Mirrors
import ArmConsole.Proofs.Memory.Ram
import ArmConsole.Proofs.Memory.Shadows
import ArmConsole.Proofs.Memory.Words
import ArmConsole.Proofs.MixedRadix
import ArmConsole.Proofs.Processor.Change
import ArmConsole.Proofs.Processor.Comparison
import ArmConsole.Proofs.Processor.Context
import ArmConsole.Proofs.Processor.Cost
import ArmConsole.Proofs.Processor.Exceptions
import ArmConsole.Proofs.Processor.Flags
import ArmConsole.Proofs.Processor.FlatRegisters
import ArmConsole.Proofs.Processor.LongArithmetic
import ArmConsole.Proofs.Processor.Operands
import ArmConsole.Proofs.Processor.Status
import ArmConsole.Proofs.Service.Accumulator
import ArmConsole.Proofs.Service.BatchBounds
import ArmConsole.Proofs.Service.Dispatch
import ArmConsole.Proofs.Service.MatrixProduct
import ArmConsole.Proofs.Service.Overflow
import ArmConsole.Proofs.Service.Refusal
import ArmConsole.Proofs.Service.VectorBatch
import ArmConsole.Proofs.Snapshot.Delimited
import ArmConsole.Proofs.Snapshot.FieldSequence
import ArmConsole.Proofs.Snapshot.Fields
import ArmConsole.Proofs.Snapshot.Reader
import ArmConsole.Proofs.Snapshot.SelfDelimiting
import ArmConsole.Proofs.Snapshot.Writer
import ArmConsole.Proofs.System.AddressMap
import ArmConsole.Proofs.System.Alike
import ArmConsole.Proofs.System.FlatRam
import ArmConsole.Proofs.System.Frame
import ArmConsole.Proofs.System.Interrupts
import ArmConsole.Proofs.System.Mirrors
import ArmConsole.Proofs.System.Pending
import ArmConsole.Proofs.System.SignalWindows
import ArmConsole.Proofs.System.Transfer
import ArmConsole.Proofs.Word
import ArmConsole.Service.MathCall
import ArmConsole.Service.Overflow
import ArmConsole.Service.Redirect
import ArmConsole.Snapshot.Error
import ArmConsole.Snapshot.Reader
import ArmConsole.Snapshot.Writer
import ArmConsole.System.AddressSpace
import ArmConsole.System.Peripherals
import ArmConsole.Word
