import ArmConsole.Instruction.Basic

/-!
Assembly text. The condition stands right after the mnemonic, numbers are decimal, and an
undefined word is `UND` whatever its condition.
-/

namespace ArmConsole

def RegisterNumber.text (r : RegisterNumber) : String := s!"R{r.val}"

/-- Upper-case hexadecimal digits without leading zeros. -/
def hexUpper (n : Nat) : String :=
  .ofList ((Nat.toDigits 16 n).map Char.toUpper)

/-- A number with its sign, which is `+` for zero. -/
def signedText (n : Int) : String := if n < 0 then toString n else s!"+{n}"

def textIf (b : Bool) (text : String) : String := if b then text else ""

namespace StatusRegister

def text : StatusRegister → String
  | current => "CPSR"
  | saved => "SPSR"

end StatusRegister

namespace SecondOperand

/-- An immediate operand is written as the number that it stands for. A shift is written with
the amount that it has, so an amount field of 0 shows as 32, as `RRX` or not at all. -/
def text : SecondOperand → String
  | .immediate base rotation => s!"#{base.rotateRight rotation}"
  | .register rm kind (.register rs) => s!"{rm.text}, {kind.mnemonic} {rs.text}"
  | .register rm kind (.field amount) =>
    if amount = 0 then
      match kind with
      | .lsl => rm.text
      | .ror => s!"{rm.text}, RRX"
      | _ => s!"{rm.text}, {kind.mnemonic} #32"
    else s!"{rm.text}, {kind.mnemonic} #{amount}"

end SecondOperand

namespace TransferOffset

/-- The offset with `sign` in front of the number or register. The amount of a shift is written
as it stands in the instruction. -/
def text (sign : String) : TransferOffset → String
  | .immediate offset => s!"#{sign}{offset}"
  | .register rm kind amount =>
    if kind = .lsl ∧ amount = 0 then s!"{sign}{rm.text}"
    else s!"{sign}{rm.text}, {kind.mnemonic} #{amount}"

end TransferOffset

namespace Instruction

def multiplyText (i : Multiply) (c : String) : String :=
  let s := textIf i.setFlags "S"
  let operands := s!"{i.rd.text}, {i.rm.text}, {i.rs.text}"
  if i.accumulate then s!"MLA{c}{s} {operands}, {i.rn.text}" else s!"MUL{c}{s} {operands}"

def swapText (i : Swap) (c : String) : String :=
  let b := textIf (i.width == .byte) "B"
  s!"SWP{c}{b} {i.rd.text}, {i.source.text}, [{i.base.text}]"

/-- A test or comparison names no destination; with R15 in that field it is marked `P`. -/
def dataProcessingText (i : DataProcessing) (c : String) : String :=
  let mnemonic := i.operation.mnemonic
  let operand := i.operand.text
  if !i.operation.writesResult then
    let p := textIf (i.setFlags && i.rd == .pc) "P"
    s!"{mnemonic}{c}{p} {i.rn.text}, {operand}"
  else
    let s := textIf i.setFlags "S"
    if i.operation.usesFirst then s!"{mnemonic}{c}{s} {i.rd.text}, {i.rn.text}, {operand}"
    else s!"{mnemonic}{c}{s} {i.rd.text}, {operand}"

def statusWriteText (i : StatusWrite) (c : String) : String :=
  let fields := if i.allFields then "all" else "flg"
  s!"MSR{c} {i.target.text}_{fields}, {i.source.text}"

def singleTransferText (i : SingleTransfer) (c : String) : String :=
  let mnemonic := if i.load then "LDR" else "STR"
  let b := textIf (i.width == .byte) "B"
  let offset := i.offset.text (textIf (i.direction == .down) "-")
  match i.indexing with
  | .pre =>
    let mark := textIf i.writeBack "!"
    s!"{mnemonic}{c}{b} {i.rd.text}, [{i.base.text}, {offset}]{mark}"
  | .post =>
    let t := textIf i.writeBack "T"
    s!"{mnemonic}{c}{b}{t} {i.rd.text}, [{i.base.text}], {offset}"

def blockTransferText (i : BlockTransfer) (c : String) : String :=
  let mnemonic := if i.load then "LDM" else "STM"
  let direction := if i.direction == .up then "I" else "D"
  let moment := if i.indexing == .pre then "B" else "A"
  let mark := textIf i.writeBack "!"
  let caret := textIf i.status "^"
  let list := ", ".intercalate (i.registers.map RegisterNumber.text)
  s!"{mnemonic}{c}{direction}{moment} {i.base.text}{mark}, \x7b{list}\x7d{caret}"

def branchText (link : Bool) (offset : Word) (c : String) : String :=
  let l := textIf link "L"
  s!"B{l}{c} {signedText offset.toSigned}"

def text (i : Instruction) (condition : Condition) : String :=
  let c := condition.suffix
  match i with
  | .multiply i => multiplyText i c
  | .swap i => swapText i c
  | .dataProcessing i => dataProcessingText i c
  | .readStatus source rd => s!"MRS{c} {rd.text}, {source.text}"
  | .writeStatus i => statusWriteText i c
  | .singleTransfer i => singleTransferText i c
  | .blockTransfer i => blockTransferText i c
  | .branch link offset => branchText link offset c
  | .softwareInterrupt comment => s!"SWI{c} #0x{hexUpper comment.toNat}"
  | .coprocessor => s!"CDP{c}"
  | .undefined => "UND"

end Instruction

def Opcode.text (o : Opcode) : String := o.instruction.text o.condition

end ArmConsole
