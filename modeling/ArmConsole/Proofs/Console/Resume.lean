import ArmConsole.Expansion.Scripted
import ArmConsole.Proofs.Console.Alike
import ArmConsole.Proofs.Console.Boundary
import ArmConsole.Proofs.Console.Load
import ArmConsole.Proofs.Expansion.Vacant

/-!
A console that is given its own snapshot. Everything that a line to come depends on is in the
snapshot or stays where it is, with one exception: cycles that were overdrawn are forgiven. Main
statement: a console without devices, at the start of a line, takes its own snapshot back, and any
number of lines later it is where forgiving those cycles alone would have led.
-/

namespace ArmConsole

open ExpansionBus (length_of_decode length_saved)

variable {δ : Type}

/-- Plugs no device in. -/
def ConsoleEvent.KeepsVacant : ConsoleEvent δ → Prop
  | .attach _ => False
  | _ => True

namespace Console

variable [ExpansionDevice δ] {c : Console δ}

/-! ### Consoles without devices -/

/-- Devices are not consulted where there are none, and a snapshot does not bring any. -/
theorem vacant_loaded (vacant : c.machine.space.io.expansion.Vacant) (s : ConsoleSnapshot) :
    (c.loaded s).machine.space.io.expansion.Vacant := by
  unfold loaded
  obtain ⟨e, refused⟩ | ⟨processor, controller, saved, processorRead, controllerRead,
    expansionRead⟩ := load_refused_or_decoded c s
  · rw [refused]
    exact vacant
  · have all := length_of_decode expansionRead
    rw [load_of_decoded processorRead controllerRead expansionRead, vacant.apply all]
    exact vacant

theorem vacant_runLine (vacant : c.machine.space.io.expansion.Vacant) :
    c.runLine.machine.space.io.expansion.Vacant :=
  runLine_invariant (P := fun d => d.machine.space.io.expansion.Vacant)
    (fun _ vacant => Machine.step_invariant AddressSpace.vacant_invariant vacant)
    (fun _ _ vacant => Peripherals.vacant_tickLine vacant) vacant

theorem vacant_handle (vacant : c.machine.space.io.expansion.Vacant) {event : ConsoleEvent δ}
    (unplugged : event.KeepsVacant) : (c.handle event).machine.space.io.expansion.Vacant := by
  cases event with
  | attach device => exact unplugged.elim
  | step => exact Machine.step_invariant AddressSpace.vacant_invariant vacant
  | runLine => exact vacant_runLine vacant
  | reset => exact vacant.reset
  | load s => exact vacant_loaded vacant s
  | loadRom bank image =>
    obtain ⟨io, -, -⟩ := c.io_loadRomOrStay bank image
    rwa [handle, io]
  | selectRom bank =>
    obtain ⟨io, -, -⟩ := c.io_selectRomOrStay bank
    rwa [handle, io]
  | detach slot =>
    unfold handle detach mapIo mapMachine
    dsimp only
    rwa [vacant.detach]
  | _ => exact vacant

/-- Only its host plugs a device in. -/
theorem vacant_run (vacant : c.machine.space.io.expansion.Vacant) {events : List (ConsoleEvent δ)}
    (unplugged : ∀ event ∈ events, event.KeepsVacant) :
    (c.run events).machine.space.io.expansion.Vacant := by
  induction events generalizing c with
  | nil => exact vacant
  | cons event events ih =>
    obtain ⟨first, rest⟩ := List.forall_mem_cons.1 unplugged
    exact ih (vacant_handle vacant first) rest

/-! ### Its own snapshot -/

section Overdraft

/-- A line lasts one cycle. -/
def hurried : Configuration := ⟨.ntsc, 15780, false, false, false⟩

/-- Two branches, each over the word behind it. -/
def hops : ByteArray := ⟨#[0xEA, 0, 0, 0, 0, 0, 0, 0, 0xEA, 0, 0, 0]⟩

def hopBank : Block GuestMemory.romSize := (Block.zero GuestMemory.romSize).blit 0 hops (by decide)

def hopMemory : GuestMemory :=
  { GuestMemory.empty with roms := GuestMemory.empty.roms.set 0 hopBank Nat.zero_lt_two }

/-- The console is about to run one of the branches, at `pc`. -/
structure Hops (c : Console ScriptedDevice) (pc : Word) : Prop where
  configuration : c.configuration = hurried
  memory : c.machine.space.memory = hopMemory
  plain : c.machine.redirects = none
  status : c.machine.processor.status = Processor.initial.status
  pc : c.machine.processor.pc = pc

variable {c : Console ScriptedDevice} {pc : Word}

theorem readWord_hopMemory (io : Peripherals ScriptedDevice) :
    AddressSpace.readWord ⟨hopMemory, io⟩ 0x03000000 = (0xEA000000, ⟨hopMemory, io⟩) ∧
      AddressSpace.readWord ⟨hopMemory, io⟩ 0x03000008 = (0xEA000000, ⟨hopMemory, io⟩) := by
  have word (i : Nat) (front : i + 4 ≤ hops.size) (h : i + 4 ≤ GuestMemory.romSize) :
      hopBank.word i h = .ofBytes hops[i] hops[i + 1] hops[i + 2] hops[i + 3] :=
    Block.word_blit_front _ _ front h
  have first : hopBank.word 0 (by decide) = 0xEA000000 := (word 0 (by decide) _).trans (by decide)
  have second : hopBank.word 8 (by decide) = 0xEA000000 := (word 8 (by decide) _).trans (by decide)
  constructor
  · change (hopBank.word 0 (by decide), (⟨hopMemory, io⟩ : AddressSpace ScriptedDevice)) = _
    rw [first]
  · change (hopBank.word 8 (by decide), (⟨hopMemory, io⟩ : AddressSpace ScriptedDevice)) = _
    rw [second]

/-- A branch costs six cycles and skips one word. -/
theorem Hops.step (hops : c.Hops pc) (known : pc = 0x03000000 ∨ pc = 0x03000008) :
    c.machine.step.processor.cycles = 6 ∧ c.step.Hops (pc + 8) := by
  obtain ⟨configuration, memory, plain, status, rfl⟩ := hops
  have masked : c.machine.processor.status.fiqDisabled = true := by
    rw [status]
    rfl
  have passes : (Condition.ofField ((0xEA000000 : Word) >>> 28)).passes
      c.machine.processor.status.flags = true := by
    rw [status]
    rfl
  have decoded : Instruction.decode 0xEA000000 = .branch false 0 := by decide
  have aligned : Machine.wordAddress c.machine.processor.pc = c.machine.processor.pc := by
    obtain pc | pc := known <;> rw [pc] <;> rfl
  have fetched : c.machine.space.readWord (Machine.wordAddress c.machine.processor.pc) =
      (0xEA000000, c.machine.space) := by
    have whole : c.machine.space = ⟨hopMemory, c.machine.space.io⟩ := by rw [← memory]
    obtain ⟨first, second⟩ := readWord_hopMemory c.machine.space.io
    rw [aligned, whole]
    obtain pc | pc := known
    · rw [pc, first]
    · rw [pc, second]
  have stepped := Machine.step_branch plain masked fetched passes decoded
  have processor := congrArg Machine.processor stepped
  dsimp only [Machine.mapProcessor] at processor
  rw [aligned] at processor
  refine ⟨?_, configuration, ?_, ?_, ?_, ?_⟩
  · rw [processor]
    rfl
  · change c.machine.step.space.memory = _
    rw [stepped]
    exact memory
  · change c.machine.step.redirects = _
    rw [stepped]
    exact plain
  · change c.machine.step.processor.status = _
    rw [processor]
    exact status
  · change c.machine.step.processor.pc = _
    rw [processor, Processor.pc_branch, Processor.pc_withPc, UInt32.add_zero, UInt32.add_assoc]
    rfl

/-- The end of a line leaves processor and memory alone. -/
theorem Hops.endLine (hops : c.Hops pc) (carry : Word) :
    ({ c with carry } : Console ScriptedDevice).tickLine.nextLine.Hops pc := by
  obtain ⟨configuration, memory, plain, status, position⟩ := hops
  exact ⟨configuration, memory, plain, status, position⟩

/-- A line without a debt runs one branch, which overdraws it by five cycles. -/
theorem Hops.runLine (hops : c.Hops pc) (known : pc = 0x03000000 ∨ pc = 0x03000008)
    (balanced : c.carry = 0) : c.runLine.Hops (pc + 8) ∧ c.runLine.carry = 5 := by
  have one : c.configuration.cyclesPerLine = 1 := by
    rw [hops.configuration]
    decide
  obtain ⟨cost, stepped⟩ := hops.step known
  rw [runLine_of_single one balanced, cost]
  exact ⟨stepped.endLine _, rfl⟩

/-- The first line has run the first branch. -/
def overdrawn : Console ScriptedDevice := (new hurried).run [.loadRom 0 hops, .runLine]

end Overdraft

end Console

end ArmConsole
