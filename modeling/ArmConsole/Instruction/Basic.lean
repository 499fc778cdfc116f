import ArmConsole.Arithmetic.Alu
import ArmConsole.Processor.Condition

/-!
The instruction set. An instruction is a value of `Instruction`; its condition is kept beside it
in `Opcode`. Register fields are register numbers by type. The other fields are words that an
instruction in memory keeps within the width of their bits.
-/

namespace ArmConsole

inductive Width where
  | word | byte
  deriving DecidableEq, Inhabited

/-- Whether the offset is applied after a transfer or before it. -/
inductive Indexing where
  | post | pre
  deriving DecidableEq, Inhabited

/-- Whether an offset is subtracted from the base or added to it. -/
inductive Direction where
  | down | up
  deriving DecidableEq, Inhabited

def Direction.move (d : Direction) (base offset : Word) : Word :=
  match d with
  | up => base + offset
  | down => base - offset

/-- Where the amount of a shift comes from. -/
inductive ShiftAmount where
  /-- A number in the instruction. -/
  | field (amount : Word)
  /-- The low byte of a register. -/
  | register (rs : RegisterNumber)
  deriving DecidableEq, Inhabited

/-- The second operand of a data processing instruction. -/
inductive SecondOperand where
  /-- An 8-bit number rotated to the right by an even count. -/
  | immediate (base rotation : Word)
  | register (rm : RegisterNumber) (kind : ShiftKind) (amount : ShiftAmount)
  deriving DecidableEq, Inhabited

inductive TransferOffset where
  | immediate (offset : Word)
  | register (rm : RegisterNumber) (kind : ShiftKind) (amount : Word)
  deriving DecidableEq, Inhabited

/-- The current status word or the saved one of the mode. -/
inductive StatusRegister where
  | current | saved
  deriving DecidableEq, Inhabited

structure Multiply where
  accumulate : Bool
  setFlags : Bool
  rd : RegisterNumber
  /-- Added to the product if `accumulate`. -/
  rn : RegisterNumber
  rs : RegisterNumber
  rm : RegisterNumber
  deriving DecidableEq, Inhabited

/-- Reads a word or byte of memory and puts a register in its place. -/
structure Swap where
  width : Width
  base : RegisterNumber
  rd : RegisterNumber
  source : RegisterNumber
  deriving DecidableEq, Inhabited

structure DataProcessing where
  operation : AluOperation
  setFlags : Bool
  rn : RegisterNumber
  rd : RegisterNumber
  operand : SecondOperand
  deriving DecidableEq, Inhabited

/-- Writes a status word: all of it, or only its flags. -/
structure StatusWrite where
  target : StatusRegister
  allFields : Bool
  source : SecondOperand
  deriving DecidableEq, Inhabited

structure SingleTransfer where
  load : Bool
  width : Width
  writeBack : Bool
  indexing : Indexing
  direction : Direction
  rd : RegisterNumber
  base : RegisterNumber
  offset : TransferOffset
  deriving DecidableEq, Inhabited

structure BlockTransfer where
  load : Bool
  indexing : Indexing
  direction : Direction
  /-- The S bit: User's registers, or with R15 in the list of a load the saved status word. -/
  status : Bool
  writeBack : Bool
  base : RegisterNumber
  /-- One bit for each register. -/
  list : HalfWord
  deriving DecidableEq, Inhabited

inductive Instruction where
  | multiply (i : Multiply)
  | swap (i : Swap)
  | dataProcessing (i : DataProcessing)
  | readStatus (source : StatusRegister) (rd : RegisterNumber)
  | writeStatus (i : StatusWrite)
  | singleTransfer (i : SingleTransfer)
  | blockTransfer (i : BlockTransfer)
  /-- `offset` is in bytes, in two's complement. -/
  | branch (link : Bool) (offset : Word)
  | softwareInterrupt (comment : Word)
  | coprocessor
  | undefined
  deriving DecidableEq, Inhabited

/-- A word from memory, taken apart. -/
structure Opcode where
  condition : Condition
  instruction : Instruction
  deriving DecidableEq, Inhabited

namespace SingleTransfer

/-- Post-indexing writes the base back in any case. -/
def writesBack (i : SingleTransfer) : Bool := i.writeBack || i.indexing == .post

/-- Post-indexing with the write-back bit set moves User's copy of the register. -/
def usesUserBank (i : SingleTransfer) : Bool := i.writeBack && i.indexing == .post

end SingleTransfer

namespace BlockTransfer

/-- The listed registers in ascending order. -/
def registers (i : BlockTransfer) : List RegisterNumber :=
  (List.finRange 16).filter fun r => i.list.bit (.ofNat r)

def listsPc (i : BlockTransfer) : Bool := i.list.bit 15

/-- Without R15 in the list, the S bit selects User's copies. -/
def usesUserBank (i : BlockTransfer) : Bool := i.status && !i.listsPc

/-- A load with R15 in the list and the S bit also restores the status word. -/
def restoresStatus (i : BlockTransfer) : Bool := i.status && i.listsPc

end BlockTransfer

end ArmConsole
