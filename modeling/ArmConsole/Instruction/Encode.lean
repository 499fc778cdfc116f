import ArmConsole.Instruction.Decode

/-!
Encoding: the word that an instruction has in memory. The fields of a word do not overlap, so it
is the sum of its fields. `Instruction.WellFormed` says which values fit the bits that they have;
an instruction that is well-formed and neither undefined nor for a coprocessor is what its word
decodes to.
-/

namespace ArmConsole

namespace Word

/-- Bit `low` if `b` holds. -/
def ofFlag (b : Bool) (low : Word) : Word := b.toUInt32 <<< low

/-- A register number in the four bits from bit `low` up. -/
def ofRegister (r : RegisterNumber) (low : Word) : Word := UInt32.ofNat r.val <<< low

end Word

open Word (ofFlag ofRegister)

namespace SecondOperand

/-- An immediate operand has eight bits and an even rotation, a shift amount has five. -/
def WellFormed : SecondOperand → Prop
  | .immediate base rotation => base < 256 ∧ rotation ≤ 30 ∧ rotation % 2 = 0
  | .register _ _ (.field amount) => amount < 32
  | .register _ _ (.register _) => True

instance : DecidablePred WellFormed := fun o => by
  unfold WellFormed
  split <;> infer_instance

/-- Bits 0 to 11 of the word, and bit 25. -/
def encode : SecondOperand → Word
  | .immediate base rotation => ofFlag true 25 + ((rotation / 2) <<< 8) + base
  | .register rm kind (.field amount) => (amount <<< 7) + (kind.toField <<< 5) + ofRegister rm 0
  | .register rm kind (.register rs) =>
    ofRegister rs 8 + (kind.toField <<< 5) + ofFlag true 4 + ofRegister rm 0

end SecondOperand

namespace TransferOffset

/-- An immediate offset has twelve bits, a shift amount has five. -/
def WellFormed : TransferOffset → Prop
  | .immediate offset => offset < 4096
  | .register _ _ amount => amount < 32

instance : DecidablePred WellFormed := fun o => by
  unfold WellFormed
  split <;> infer_instance

/-- Bits 0 to 11 of the word, and bit 25. -/
def encode : TransferOffset → Word
  | .immediate offset => offset
  | .register rm kind amount =>
    ofFlag true 25 + (amount <<< 7) + (kind.toField <<< 5) + ofRegister rm 0

end TransferOffset

namespace Instruction

/-- Whether the parts of an instruction fit their bits. A test or comparison has to set flags,
because its patterns without the S bit belong to the status transfers. -/
def WellFormed : Instruction → Prop
  | .dataProcessing i => i.operand.WellFormed ∧ (i.operation.writesResult ∨ i.setFlags)
  | .writeStatus i => i.source.WellFormed
  | .singleTransfer i => i.offset.WellFormed
  | .branch _ offset =>
    offset % 4 = 0 ∧ -0x2000000 ≤ offset.toSigned ∧ offset.toSigned ≤ 0x1FFFFFC
  | .softwareInterrupt comment => comment < 0x1000000
  | _ => True

instance : DecidablePred WellFormed := fun i => by
  unfold WellFormed
  split <;> infer_instance

def encodeMultiply (i : Multiply) : Word :=
  ofFlag i.accumulate 21 + ofFlag i.setFlags 20 + ofRegister i.rd 16 + ofRegister i.rn 12 +
    ofRegister i.rs 8 + 0x90 + ofRegister i.rm 0

def encodeSwap (i : Swap) : Word :=
  0x01000090 + ofFlag (i.width == .byte) 22 + ofRegister i.base 16 + ofRegister i.rd 12 +
    ofRegister i.source 0

def encodeDataProcessing (i : DataProcessing) : Word :=
  (i.operation.toField <<< 21) + ofFlag i.setFlags 20 + ofRegister i.rn 16 +
    ofRegister i.rd 12 + i.operand.encode

/-- A status transfer is a test that sets no flags, with fixed bits in place of its registers. -/
def encodeReadStatus (source : StatusRegister) (rd : RegisterNumber) : Word :=
  0x010F0000 + ofFlag (source == .saved) 22 + ofRegister rd 12

def encodeWriteStatus (i : StatusWrite) : Word :=
  0x0128F000 + ofFlag (i.target == .saved) 22 + ofFlag i.allFields 16 + i.source.encode

def encodeSingleTransfer (i : SingleTransfer) : Word :=
  0x04000000 + ofFlag (i.indexing == .pre) 24 + ofFlag (i.direction == .up) 23 +
    ofFlag (i.width == .byte) 22 + ofFlag i.writeBack 21 + ofFlag i.load 20 +
    ofRegister i.base 16 + ofRegister i.rd 12 + i.offset.encode

def encodeBlockTransfer (i : BlockTransfer) : Word :=
  0x08000000 + ofFlag (i.indexing == .pre) 24 + ofFlag (i.direction == .up) 23 +
    ofFlag i.status 22 + ofFlag i.writeBack 21 + ofFlag i.load 20 + ofRegister i.base 16 +
    i.list.toUInt32

/-- The offset counts words in memory. -/
def encodeBranch (link : Bool) (offset : Word) : Word :=
  0x0A000000 + ofFlag link 24 + offset.field 2 24

/-- Bits 0 to 27 of the word. -/
def encode : Instruction → Word
  | .multiply i => encodeMultiply i
  | .swap i => encodeSwap i
  | .dataProcessing i => encodeDataProcessing i
  | .readStatus source rd => encodeReadStatus source rd
  | .writeStatus i => encodeWriteStatus i
  | .singleTransfer i => encodeSingleTransfer i
  | .blockTransfer i => encodeBlockTransfer i
  | .branch link offset => encodeBranch link offset
  | .softwareInterrupt comment => 0x0F000000 + comment
  | .coprocessor => 0x0C000000
  | .undefined => 0x06000010

end Instruction

def Opcode.encode (o : Opcode) : Word := (o.condition.toField <<< 28) + o.instruction.encode

end ArmConsole
