import ArmConsole.Processor.Registers

/-!
The processor without its memory: registers, status, mode and the cost of the instruction at
hand. The program counter is moved past an instruction before that runs, so while it runs R15 is
its address plus 4; as an operand R15 reads further ahead.

Costs are counted in sequential, non-sequential and internal cycles. Fetching costs one
sequential cycle, and each operation adds its own.
-/

namespace ArmConsole

structure Processor where
  live : Registers
  bank : RegisterBank
  status : StatusWord
  /-- The mode whose registers are visible; the mode bits of `status` agree with it. -/
  mode : Mode
  /-- A request for an FIQ that stays until the exception is taken. -/
  fiqLine : Bool
  memoryAbort : Bool
  /-- Whether a write of the current instruction stalled the bus. -/
  stalled : Bool
  /-- What the current instruction has cost so far. -/
  cycles : Word
  deriving DecidableEq

namespace Processor

def nonSequential : Word := 4
def sequential : Word := 1
def internal : Word := 1

def resetVector : Word := 0x03000000

/-- Supervisor mode with both kinds of interrupts disabled, at the reset vector. -/
def initial : Processor where
  live := (Vector.replicate 16 0).set 15 resetVector RegisterNumber.pc.bound
  bank := .zero
  status := ((StatusWord.ofMode .supervisor).withIrqDisabled true).withFiqDisabled true
  mode := .supervisor
  fiqLine := false
  memoryAbort := false
  stalled := false
  cycles := 0

instance : Inhabited Processor := ⟨initial⟩

/-- The cost of the last instruction outlives a reset. -/
def reset (p : Processor) : Processor := { initial with cycles := p.cycles }

@[inline] def pc (p : Processor) : Word := p.live.get RegisterNumber.pc

@[inline] def withRegister (p : Processor) (r : RegisterNumber) (v : Word) : Processor :=
  { p with live := p.live.set r v r.bound }

@[inline] def withPc (p : Processor) (v : Word) : Processor := p.withRegister .pc v

@[inline] def spend (p : Processor) (cycles : Word) : Processor :=
  { p with cycles := p.cycles + cycles }

/-- How far ahead of itself R15 reads as an operand, after it was moved past the instruction. -/
def lookAhead : Word := 4

/-- The same where the processor needs one more cycle before it reads the operand. -/
def lookFurtherAhead : Word := 8

def operand (p : Processor) (r : RegisterNumber) (ahead : Word) : Word :=
  if r = .pc then p.pc + ahead else p.live.get r

/-- Writes a register; a new program counter costs a refill of the pipeline. -/
def setRegister (p : Processor) (r : RegisterNumber) (v : Word) : Processor :=
  let p := p.withRegister r v
  if r = .pc then p.spend (sequential + nonSequential) else p

def setUserRegister (p : Processor) (r : RegisterNumber) (v : Word) : Processor :=
  let ⟨live, bank, status, mode, fiqLine, memoryAbort, stalled, cycles⟩ := p
  let (live, bank) := bank.writeUser live mode r v
  ⟨live, bank, status, mode, fiqLine, memoryAbort, stalled, cycles⟩

/-- Writes User's copy of a register if `user`, else the visible one. -/
def load (p : Processor) (user : Bool) (r : RegisterNumber) (v : Word) : Processor :=
  if user then p.setUserRegister r v else p.setRegister r v

/-- What a store puts out for a register: R15 furthest ahead, else User's copy if `user`. -/
def stored (p : Processor) (user : Bool) (r : RegisterNumber) : Word :=
  if r = .pc then p.pc + lookFurtherAhead
  else if user then p.bank.readUser p.live p.mode r
  else p.live.get r

def saved? (p : Processor) : Option StatusWord := p.bank.saved? p.mode

def switchMode (p : Processor) (mode : Mode) : Processor :=
  let (live, bank) := p.bank.switch p.live p.mode mode
  { p with live, bank, mode, status := p.status.withMode mode }

/-- Replaces the status word. Bits that select no mode are refused: the mode stays and the other
bits change. -/
def setStatus (p : Processor) (value : Word) : Processor :=
  match Mode.ofBits? value with
  | some mode => { p.switchMode mode with status := ⟨value⟩ }
  | none => { p with status := (StatusWord.mk value).withMode p.mode }

/-- Replaces the status word by the saved one, if the mode has one. -/
def restoreStatus (p : Processor) : Processor :=
  match p.saved? with
  | some saved => p.setStatus saved.word
  | none => p

/-! ### Exceptions -/

inductive Exception where
  | undefined | softwareInterrupt | fiq
  deriving DecidableEq, Inhabited

def Exception.vector : Exception → Word
  | undefined => 0x04
  | softwareInterrupt => 0x08
  | fiq => 0x1C

def Exception.mode : Exception → Mode
  | undefined => .undefined
  | softwareInterrupt => .supervisor
  | fiq => .fiq

/-- Enters the mode of an exception: the status word is saved, IRQ and for an FIQ also FIQ are
disabled, and R14 takes the address to return to. -/
def enter (p : Processor) (e : Exception) (returnAddress : Word) : Processor :=
  let old := p.status
  let p := p.switchMode e.mode
  let status := p.status.withIrqDisabled true
  let status := if e = .fiq then status.withFiqDisabled true else status
  let p := { p with bank := p.bank.withSaved e.mode old, status }
  (p.withRegister .link returnAddress).withPc e.vector

/-- Takes an FIQ if one is asked for, by the request line or by `needed`, and FIQs are enabled. -/
def sampleFiq (p : Processor) (needed : Bool) : Processor :=
  if p.status.fiqDisabled then p
  else if p.fiqLine || needed then
    { p with fiqLine := false }.enter .fiq (p.pc + 4)
  else p

def trapUndefined (p : Processor) : Processor :=
  (p.enter .undefined p.pc).spend (sequential + nonSequential + internal)

def trapSoftwareInterrupt (p : Processor) : Processor :=
  (p.enter .softwareInterrupt p.pc).spend (sequential + nonSequential)

end Processor

end ArmConsole
