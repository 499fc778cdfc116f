import ArmConsole.Instruction.Basic

/-!
Decoding. Bits 27 to 24 select a class. Classes share patterns, so a multiplication, a swap, a
status transfer and an undefined word are recognised before the class that they are taken out
of. Every word decodes to something.
-/

namespace ArmConsole

namespace SecondOperand

/-- The second operand in bits 0 to 11; bit 25 selects an immediate one. -/
def decode (w : Word) : SecondOperand :=
  if w.bit 25 then .immediate (w.field 0 8) (w.field 8 4 * 2)
  else
    .register (w.registerField 0) (.ofField (w.field 5 2))
      (if w.bit 4 then .register (w.registerField 8) else .field (w.field 7 5))

end SecondOperand

namespace TransferOffset

/-- The offset of a single transfer; bit 25 selects a shifted register. -/
def decode (w : Word) : TransferOffset :=
  if w.bit 25 then .register (w.registerField 0) (.ofField (w.field 5 2)) (w.field 7 5)
  else .immediate (w.field 0 12)

end TransferOffset

namespace Instruction

def isMultiply (w : Word) : Bool := w &&& 0x0FC000F0 == 0x00000090

def isSwap (w : Word) : Bool := w &&& 0x0FB00FF0 == 0x01000090

def isUndefined (w : Word) : Bool := w &&& 0x0E000010 == 0x06000010

def decodeMultiply (w : Word) : Instruction :=
  .multiply
    { accumulate := w.bit 21, setFlags := w.bit 20, rd := w.registerField 16
      rn := w.registerField 12, rs := w.registerField 8, rm := w.registerField 0 }

def decodeSwap (w : Word) : Instruction :=
  .swap
    { width := if w.bit 22 then .byte else .word, base := w.registerField 16
      rd := w.registerField 12, source := w.registerField 0 }

/-- Bits 24 to 20 are the operation and the S bit. A test or comparison that sets no flags would
do nothing; these four patterns read and write the status words. -/
def decodeDataProcessing (w : Word) : Instruction :=
  match w.field 20 5 with
  | 16 => .readStatus .current (w.registerField 12)
  | 20 => .readStatus .saved (w.registerField 12)
  | 18 | 22 =>
    .writeStatus
      { target := if w.bit 22 then .saved else .current, allFields := w.bit 16
        source := .decode w }
  | _ =>
    .dataProcessing
      { operation := .ofField (w.field 21 4), setFlags := w.bit 20, rn := w.registerField 16
        rd := w.registerField 12, operand := .decode w }

def decodeSingleTransfer (w : Word) : Instruction :=
  .singleTransfer
    { load := w.bit 20, width := if w.bit 22 then .byte else .word, writeBack := w.bit 21
      indexing := if w.bit 24 then .pre else .post, direction := if w.bit 23 then .up else .down
      rd := w.registerField 12, base := w.registerField 16, offset := .decode w }

def decodeBlockTransfer (w : Word) : Instruction :=
  .blockTransfer
    { load := w.bit 20, indexing := if w.bit 24 then .pre else .post
      direction := if w.bit 23 then .up else .down, status := w.bit 22, writeBack := w.bit 21
      base := w.registerField 16, list := w.toUInt16 }

/-- The 24-bit field counts words, as a signed number. -/
def decodeBranch (w : Word) : Instruction :=
  .branch (w.bit 24) ((w.field 0 24).signExtend 24 <<< 2)

/-- The instruction in bits 0 to 27. -/
def decode (w : Word) : Instruction :=
  match w.field 24 4 with
  | 0x0 => if isMultiply w then decodeMultiply w else decodeDataProcessing w
  | 0x1 => if isSwap w then decodeSwap w else decodeDataProcessing w
  | 0x2 | 0x3 => decodeDataProcessing w
  | 0x4 | 0x5 | 0x6 | 0x7 => if isUndefined w then .undefined else decodeSingleTransfer w
  | 0x8 | 0x9 => decodeBlockTransfer w
  | 0xA | 0xB => decodeBranch w
  | 0xF => .softwareInterrupt (w.field 0 24)
  | _ => .coprocessor

end Instruction

/-- The condition stands in bits 28 to 31. -/
def Opcode.decode (w : Word) : Opcode := ⟨.ofField (w >>> 28), .decode w⟩

end ArmConsole
