import ArmConsole.Instruction.Basic
import ArmConsole.Processor.Core

/-!
Instructions that concern the processor alone: data processing, status transfers, multiplication
and branches.
-/

namespace ArmConsole

namespace Processor

def secondOperand (p : Processor) (o : SecondOperand) : Shifted :=
  let carry := p.status.carry
  match o with
  | .immediate base rotation =>
    let value := base.rotateRight rotation
    ⟨value, if rotation == 0 then carry else value.bit 31⟩
  | .register rm kind (.field amount) => kind.applyField amount (p.operand rm lookAhead) carry
  | .register rm kind (.register rs) =>
    kind.apply (p.operand rs lookFurtherAhead &&& 0xFF) (p.operand rm lookFurtherAhead) carry

/-- A shift by a register takes an internal cycle, and R15 is read later. -/
def secondOperandCost : SecondOperand → Word
  | .register _ _ (.register _) => internal
  | _ => 0

/-- How far ahead R15 reads beside a second operand. -/
def lookAheadWith : SecondOperand → Word
  | .register _ _ (.register _) => lookFurtherAhead
  | _ => lookAhead

/-- What the S bit of a data processing instruction does. With R15 as the destination it restores
the status word, else it sets flags. -/
def updateStatus (p : Processor) (i : DataProcessing) (r : AluResult) : Processor :=
  if i.rd = .pc then p.restoreStatus
  else if i.operation.isLogical then { p with status := p.status.withLogicalFlags r }
  else { p with status := p.status.withFlags r }

def dataProcessing (p : Processor) (i : DataProcessing) : Processor :=
  let second := p.secondOperand i.operand
  let first := p.operand i.rn (lookAheadWith i.operand)
  let result := i.operation.compute first second p.status.carry
  let p := p.spend (secondOperandCost i.operand)
  let p := if i.operation.writesResult then p.setRegister i.rd result.value else p
  if i.setFlags then p.updateStatus i result else p

/-- The current status word or the saved one. User has none saved and reads the current one. -/
def readStatus (p : Processor) (source : StatusRegister) (rd : RegisterNumber) : Processor :=
  let status :=
    match source with
    | .current => p.status
    | .saved => p.saved?.getD p.status
  p.setRegister rd status.word

/-- What is written to a status word: a rotated number or a register, which is not shifted. -/
def statusSource (p : Processor) : SecondOperand → Word
  | .immediate base rotation => base.rotateRight rotation
  | .register rm _ _ => p.operand rm lookAhead

/-- Writes a status word. User may write the flags of the current one only, and has none saved. -/
def writeStatus (p : Processor) (i : StatusWrite) : Processor :=
  let value := p.statusSource i.source
  match i.target with
  | .current =>
    if i.allFields && p.mode.isPrivileged then p.setStatus value
    else { p with status := p.status.withFlagBits value }
  | .saved =>
    match p.saved? with
    | none => p
    | some saved =>
      let saved := if i.allFields then ⟨value⟩ else saved.withFlagBits value
      { p with bank := p.bank.withSaved p.mode saved }

/-- How many internal cycles a multiplication takes, by the bits set in the multiplier. -/
def multiplyCost (multiplier : Word) : Word :=
  internal * .ofNat (min ((multiplier.popCount + 5) / 2 - 1) 16)

/-- The product, with the accumulator added. With one register as destination and multiplicand
the product is zero. -/
def product (p : Processor) (i : Multiply) : Word :=
  let product :=
    if i.rd = i.rm then 0 else p.operand i.rm lookAhead * p.operand i.rs lookAhead
  if i.accumulate then product + p.operand i.rn lookAhead else product

def multiply (p : Processor) (i : Multiply) : Processor :=
  let result := p.product i
  let cost := multiplyCost (p.operand i.rs lookAhead)
  let p := (p.setRegister i.rd result).spend cost
  if i.setFlags then
    { p with status := (p.status.withNegative result.isNegative).withZero (result == 0) }
  else p

/-- Branches by `offset` from two words past the instruction. -/
def branch (p : Processor) (link : Bool) (offset : Word) : Processor :=
  let pc := p.pc
  let live := if link then p.live.set 14 pc RegisterNumber.link.bound else p.live
  ({ p with live }.withPc (pc + lookAhead + offset)).spend (sequential + nonSequential)

/-- The offset of a single transfer, shifted with the current carry. -/
def transferOffset (p : Processor) : TransferOffset → Word
  | .immediate offset => offset
  | .register rm kind amount =>
    (kind.applyField amount (p.operand rm lookAhead) p.status.carry).value

end Processor

end ArmConsole
