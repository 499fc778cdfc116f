import ArmConsole.Instruction.Decode
import ArmConsole.Proofs.Checked.Access

/-!
Checked decoding. Every field of a word is taken with its range tested, and a register number is
tested here once, so that no use of it needs to. The conditions are looked up in their table.
-/

namespace ArmConsole

/-- The rows of all conditions, in the order of their codes. -/
def Condition.table : Array Word :=
  #[0xF0F0, 0x0F0F, 0xCCCC, 0x3333, 0xFF00, 0x00FF, 0xAAAA, 0x5555,
    0x0C0C, 0xF3F3, 0xAA55, 0x55AA, 0x0A05, 0xF5FA, 0xFFFF, 0x0000]

def Condition.passes? (c : Condition) (flags : Word) : Checked Bool := do
  let row ← table[c.toField.toNat]?
  row.bit? (flags &&& 0xF)

@[simp] theorem Condition.passes?_eq (c : Condition) (flags : Word) :
    c.passes? flags = some (c.passes flags) := by
  have row : table[c.toField.toNat]? = some c.row := by cases c <;> rfl
  have small : flags &&& 0xF < 32 := UInt32.lt_iff_toNat_lt.mpr (Word.toNat_and_lt (by decide))
  rw [passes?, row]
  exact c.row.bit?_eq small

/-- The second operand in bits 0 to 11. Its fields are masked, so that only register numbers can
be out of range. -/
def SecondOperand.decode? (w : Word) : Checked SecondOperand := do
  if w.bit 25 then
    return .immediate (w.field 0 8) (w.field 8 4 * 2)
  else
    let rm ← RegisterNumber.ofNat? (w.field 0 4).toNat
    if w.bit 4 then
      let rs ← RegisterNumber.ofNat? (w.field 8 4).toNat
      return .register rm (.ofField (w.field 5 2)) (.register rs)
    else
      return .register rm (.ofField (w.field 5 2)) (.field (w.field 7 5))

@[simp] theorem SecondOperand.decode?_eq (w : Word) : decode? w = some (decode w) := by
  have register (low : Word) :
      RegisterNumber.ofNat? (w.field low 4).toNat = some (w.registerField low) :=
    RegisterNumber.ofNat?_val (w.registerField low)
  simp only [decode?, decode, register]
  split
  · rfl
  · split <;> rfl

def TransferOffset.decode? (w : Word) : Checked TransferOffset := do
  if ← w.bit? 25 then
    return .register (← RegisterNumber.field? w 0) (.ofField (← w.bits? 5 6)) (← w.bits? 7 11)
  else
    return .immediate (← w.bits? 0 11)

@[simp] theorem TransferOffset.decode?_eq (w : Word) : decode? w = some (decode w) := by
  simp [decode?, decode]

namespace Instruction

def decodeMultiply? (w : Word) : Checked Instruction := do
  return .multiply
    { accumulate := ← w.bit? 21, setFlags := ← w.bit? 20, rd := ← RegisterNumber.field? w 16
      rn := ← RegisterNumber.field? w 12, rs := ← RegisterNumber.field? w 8
      rm := ← RegisterNumber.field? w 0 }

def decodeSwap? (w : Word) : Checked Instruction := do
  return .swap
    { width := if ← w.bit? 22 then .byte else .word, base := ← RegisterNumber.field? w 16
      rd := ← RegisterNumber.field? w 12, source := ← RegisterNumber.field? w 0 }

def decodeDataProcessing? (w : Word) : Checked Instruction := do
  match ← w.bits? 20 24 with
  | 16 => return .readStatus .current (← RegisterNumber.field? w 12)
  | 20 => return .readStatus .saved (← RegisterNumber.field? w 12)
  | 18 | 22 =>
    return .writeStatus
      { target := if ← w.bit? 22 then .saved else .current, allFields := ← w.bit? 16
        source := ← SecondOperand.decode? w }
  | _ =>
    return .dataProcessing
      { operation := .ofField (← w.bits? 21 24), setFlags := ← w.bit? 20
        rn := ← RegisterNumber.field? w 16, rd := ← RegisterNumber.field? w 12
        operand := ← SecondOperand.decode? w }

def decodeSingleTransfer? (w : Word) : Checked Instruction := do
  return .singleTransfer
    { load := ← w.bit? 20, width := if ← w.bit? 22 then .byte else .word
      writeBack := ← w.bit? 21, indexing := if ← w.bit? 24 then .pre else .post
      direction := if ← w.bit? 23 then .up else .down, rd := ← RegisterNumber.field? w 12
      base := ← RegisterNumber.field? w 16, offset := ← TransferOffset.decode? w }

def decodeBlockTransfer? (w : Word) : Checked Instruction := do
  return .blockTransfer
    { load := ← w.bit? 20, indexing := if ← w.bit? 24 then .pre else .post
      direction := if ← w.bit? 23 then .up else .down, status := ← w.bit? 22
      writeBack := ← w.bit? 21, base := ← RegisterNumber.field? w 16
      list := (← w.bits? 0 15).toUInt16 }

def decodeBranch? (w : Word) : Checked Instruction := do
  let offset ← (← w.bits? 0 23).signExtend? 24
  return .branch (← w.bit? 24) (offset <<< 2)

def decode? (w : Word) : Checked Instruction := do
  match ← w.bits? 24 27 with
  | 0x0 => if isMultiply w then decodeMultiply? w else decodeDataProcessing? w
  | 0x1 => if isSwap w then decodeSwap? w else decodeDataProcessing? w
  | 0x2 | 0x3 => decodeDataProcessing? w
  | 0x4 | 0x5 | 0x6 | 0x7 => if isUndefined w then return .undefined else decodeSingleTransfer? w
  | 0x8 | 0x9 => decodeBlockTransfer? w
  | 0xA | 0xB => decodeBranch? w
  | 0xF => return .softwareInterrupt (← w.bits? 0 23)
  | _ => return .coprocessor

theorem decodeMultiply?_eq (w : Word) : decodeMultiply? w = some (decodeMultiply w) := by
  simp [decodeMultiply?, decodeMultiply]

theorem decodeSwap?_eq (w : Word) : decodeSwap? w = some (decodeSwap w) := by
  simp [decodeSwap?, decodeSwap]

theorem decodeDataProcessing?_eq (w : Word) :
    decodeDataProcessing? w = some (decodeDataProcessing w) := by
  have operation : w.bits? 20 24 = some (w.field 20 5) := by simp
  simp only [decodeDataProcessing?, decodeDataProcessing, operation, Option.bind_eq_bind,
    Option.bind_some]
  generalize w.field 20 5 = operation
  split <;> simp

theorem decodeSingleTransfer?_eq (w : Word) :
    decodeSingleTransfer? w = some (decodeSingleTransfer w) := by
  simp [decodeSingleTransfer?, decodeSingleTransfer]

theorem decodeBlockTransfer?_eq (w : Word) :
    decodeBlockTransfer? w = some (decodeBlockTransfer w) := by
  have list : (w.field 0 16).toUInt16 = w.toUInt16 := by
    rw [Word.field, UInt32.toUInt16_and, UInt32.shiftRight_zero]
    exact UInt16.and_neg_one
  simp [decodeBlockTransfer?, decodeBlockTransfer, list]

theorem decodeBranch?_eq (w : Word) : decodeBranch? w = some (decodeBranch w) := by
  simp [decodeBranch?, decodeBranch]

@[simp] theorem decode?_eq (w : Word) : decode? w = some (decode w) := by
  have operation : w.bits? 24 27 = some (w.field 24 4) := by simp
  simp only [decode?, decode, operation, Option.bind_eq_bind, Option.bind_some,
    decodeMultiply?_eq, decodeSwap?_eq, decodeDataProcessing?_eq, decodeSingleTransfer?_eq,
    decodeBlockTransfer?_eq, decodeBranch?_eq]
  generalize w.field 24 4 = operation
  split <;> simp

end Instruction

end ArmConsole
