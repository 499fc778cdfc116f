import ArmConsole.Proofs.Console.Mode
import ArmConsole.Proofs.Controller.Line
import ArmConsole.Proofs.Controller.Snapshot
import ArmConsole.Proofs.System.Interrupts

/-!
Consoles at the start of a line. Main statement: a console that has run whole lines only publishes
the position of its beam and keeps nothing twice that differs, whatever else its host did.
-/

namespace ArmConsole

variable {δ : Type}

/-- Does not stop within a line, as a single instruction does. -/
def ConsoleEvent.KeepsLine : ConsoleEvent δ → Prop
  | .step => False
  | _ => True

/-- Reaches memory and peripherals only, other than by running the guest or by replacing the state
as a whole. -/
def ConsoleEvent.IsAccess : ConsoleEvent δ → Prop
  | .step | .runLine | .reset | .load _ => False
  | _ => True

namespace Console

/-- What holds between any two instructions: the mode and the aggregate interrupt bit are what they
are derived from. -/
structure Tidy (c : Console δ) : Prop where
  coherent : c.machine.processor.Coherent
  synced : c.machine.space.io.controller.interrupts.Synced

/-- What holds at the start of a line: the position that the controller publishes is that of the
beam. -/
structure AtBoundary (c : Console δ) : Prop extends c.Tidy where
  line : c.line = c.machine.space.io.controller.line
  field : c.field = c.machine.space.io.controller.field &&& 1

variable {c d : Console δ}

/-! ### The end of a line -/

section Line

variable [ExpansionDevice δ]

theorem Tidy.step (tidy : c.Tidy) : c.step.Tidy where
  coherent := c.coherent_step tidy.coherent
  synced := Machine.step_invariant AddressSpace.synced_invariant tidy.synced

theorem Tidy.tickLine (tidy : c.Tidy) : c.tickLine.Tidy :=
  ⟨tidy.coherent, (Peripherals.raised_tickLine _).synced tidy.synced⟩

end Line

theorem Tidy.nextLine (tidy : c.Tidy) : c.nextLine.Tidy :=
  ⟨tidy.coherent, (SystemController.raised_updateLine _ _ _).synced tidy.synced⟩

theorem line_nextLine_lt (c : Console δ) : c.nextLine.line.toNat < 2 ^ 11 := by
  have lines : c.configuration.video.linesPerField.toNat < 2 ^ 11 := by
    cases c.configuration.video <;> decide
  change (if c.configuration.video.linesPerField ≤ c.line + 1 then 0 else c.line + 1).toNat < _
  split
  · decide
  next within =>
    rw [UInt32.le_iff_toNat_le] at within
    omega

theorem field_nextLine_lt (few : c.field.toNat < 2) : c.nextLine.field.toNat < 2 := by
  change (if c.configuration.video.linesPerField ≤ c.line + 1 then c.field ^^^ 1
    else c.field).toNat < _
  split
  · rw [UInt32.toNat_xor]
    exact Nat.xor_lt_two_pow (n := 1) few (by decide)
  · exact few

/-- Whatever a guest left in the register, the next position is published. -/
theorem published_nextLine (few : c.field.toNat < 2) :
    let controller := c.nextLine.machine.space.io.controller
    controller.register SystemController.lineCounter =
        SystemController.position c.nextLine.line c.nextLine.field ∧
      controller.line = c.nextLine.line ∧ controller.field = c.nextLine.field := by
  have published : c.nextLine.machine.space.io.controller.register SystemController.lineCounter =
      SystemController.position c.nextLine.line c.nextLine.field :=
    SystemController.register_updateLine ..
  have short := c.line_nextLine_lt
  have few := field_nextLine_lt few
  exact ⟨published, SystemController.line_of_position published short (by omega),
    SystemController.field_of_position published short (by omega)⟩

theorem Tidy.atBoundary_nextLine (tidy : c.Tidy) (few : c.field.toNat < 2) :
    c.nextLine.AtBoundary := by
  obtain ⟨-, line, field⟩ := published_nextLine few
  have few := field_nextLine_lt few
  refine ⟨tidy.nextLine, line.symm, ?_⟩
  rw [field, ← UInt32.toNat_inj, Word.toNat_and_mask (k := 1) _ rfl]
  omega

theorem AtBoundary.field_lt (boundary : c.AtBoundary) : c.field.toNat < 2 := by
  rw [boundary.field]
  exact Word.toNat_and_lt (by decide)

/-! ### Events -/

/-- The position is kept where the beam stays and the registers of the controller do. -/
theorem AtBoundary.of_registers (boundary : c.AtBoundary) (tidy : d.Tidy)
    (registers : d.machine.space.io.controller.registers =
      c.machine.space.io.controller.registers)
    (line : d.line = c.line) (field : d.field = c.field) : d.AtBoundary := by
  refine ⟨tidy, ?_, ?_⟩
  · rw [line, boundary.line, SystemController.line, SystemController.line,
      SystemController.register, SystemController.register, registers]
  · rw [field, boundary.field, SystemController.field, SystemController.field,
      SystemController.register, SystemController.register, registers]

theorem atBoundary_new (configuration : Configuration) :
    (new configuration : Console δ).AtBoundary := by
  have published : SystemController.zero.register SystemController.lineCounter = 0 :=
    SystemController.register_zero _
  have line : SystemController.zero.line = 0 := by
    rw [SystemController.line, published]
    rfl
  have field : SystemController.zero.field &&& 1 = 0 := by
    rw [SystemController.field, published]
    rfl
  exact ⟨⟨Processor.coherent_initial, Interrupts.synced_none⟩, line.symm, field.symm⟩

theorem io_loadRomOrStay (c : Console δ) (bank : Nat) (image : ByteArray) :
    (c.loadRomOrStay bank image).machine.space.io = c.machine.space.io ∧
      (c.loadRomOrStay bank image).line = c.line ∧
      (c.loadRomOrStay bank image).field = c.field := by
  unfold loadRomOrStay loadRom
  cases c.machine.space.memory.loadRom bank image <;> exact ⟨rfl, rfl, rfl⟩

theorem io_selectRomOrStay (c : Console δ) (bank : Nat) :
    (c.selectRomOrStay bank).machine.space.io = c.machine.space.io ∧
      (c.selectRomOrStay bank).line = c.line ∧ (c.selectRomOrStay bank).field = c.field := by
  unfold selectRomOrStay
  cases c.machine.space.memory.selectRom bank <;> exact ⟨rfl, rfl, rfl⟩

variable [ExpansionDevice δ]

theorem controller_attach (c : Console δ) (device : δ) :
    (c.attach device).machine.space.io.controller = c.machine.space.io.controller := by
  unfold Console.attach mapIo mapMachine
  dsimp only
  split <;> rfl

theorem controller_detach (c : Console δ) (slot : Nat) :
    (c.detach slot).machine.space.io.controller = c.machine.space.io.controller := by
  unfold Console.detach mapIo mapMachine
  dsimp only
  split <;> rfl

/-- The host reaches what is in the machine. -/
theorem beam_handle (c : Console δ) {event : ConsoleEvent δ} (access : event.IsAccess) :
    (c.handle event).configuration = c.configuration ∧ (c.handle event).line = c.line ∧
      (c.handle event).field = c.field := by
  cases event with
  | step => exact access.elim
  | runLine => exact access.elim
  | reset => exact access.elim
  | load s => exact access.elim
  | loadRom bank image =>
    obtain ⟨memory, same⟩ := c.loadRomOrStay_eq bank image
    rw [Console.handle, same]
    exact ⟨rfl, rfl, rfl⟩
  | selectRom bank =>
    obtain ⟨memory, same⟩ := c.selectRomOrStay_eq bank
    rw [Console.handle, same]
    exact ⟨rfl, rfl, rfl⟩
  | _ => exact ⟨rfl, rfl, rfl⟩

theorem synced_loaded (synced : c.machine.space.io.controller.interrupts.Synced)
    (s : ConsoleSnapshot) : (c.loaded s).machine.space.io.controller.interrupts.Synced := by
  obtain ⟨expansion, same⟩ | ⟨processor, controller, expansion, -, accepted, same⟩ :=
    c.loaded_cases s
  · rw [same]
    exact synced
  · rw [same]
    exact SystemController.synced_of_decode accepted

theorem Tidy.endLine (tidy : c.Tidy) (carry : Word) :
    ({ c with carry } : Console δ).tickLine.nextLine.Tidy := by
  apply Tidy.nextLine
  apply Tidy.tickLine
  exact ⟨tidy.coherent, tidy.synced⟩

theorem Tidy.runLine (tidy : c.Tidy) : c.runLine.Tidy :=
  runLine_invariant (P := Tidy) (fun _ => Tidy.step) (fun _ carry tidy => tidy.endLine carry) tidy

/-- What a host asks for besides, it raises interrupts at most. -/
theorem raised_handle (c : Console δ) {event : ConsoleEvent δ} (access : event.IsAccess) :
    c.machine.space.io.controller.interrupts.Raised
      (c.handle event).machine.space.io.controller.interrupts := by
  cases event with
  | step => exact access.elim
  | runLine => exact access.elim
  | reset => exact access.elim
  | load s => exact access.elim
  | loadRom bank image =>
    rw [Console.handle, (c.io_loadRomOrStay bank image).1]
    exact .refl
  | selectRom bank =>
    rw [Console.handle, (c.io_selectRomOrStay bank).1]
    exact .refl
  | readInput channel => exact SystemController.raised_readInput _ channel _
  | writeOutput channel value => exact SystemController.raised_writeOutput _ channel value _
  | raise primary secondary => exact .raise primary secondary .refl
  | attach device =>
    rw [Console.handle, controller_attach]
    exact .refl
  | detach slot =>
    rw [Console.handle, controller_detach]
    exact .refl
  | _ => exact .refl

theorem Tidy.handle (tidy : c.Tidy) (event : ConsoleEvent δ) : (c.handle event).Tidy := by
  refine ⟨c.coherent_handle event tidy.coherent, ?_⟩
  have synced := tidy.synced
  cases event with
  | step => exact tidy.step.synced
  | runLine => exact tidy.runLine.synced
  | reset => exact Interrupts.synced_none
  | load s => exact synced_loaded synced s
  | _ =>
    refine (c.raised_handle ?_).synced synced
    trivial

theorem AtBoundary.runLine (boundary : c.AtBoundary) : c.runLine.AtBoundary := by
  have spent := runCycles_invariant (P := fun d => d.Tidy ∧ d.field = c.field)
    (fun d ⟨tidy, field⟩ => ⟨tidy.step, field⟩) ⟨boundary.toTidy, rfl⟩ c.configuration.cyclesPerLine
    (c.configuration.cyclesPerLine.toNat - c.carry.toNat) c.carry
  unfold Console.runLine
  dsimp only
  generalize c.runCycles _ _ _ = ran at spent ⊢
  obtain ⟨⟨coherent, synced⟩, field⟩ := spent
  have tidy : ({ ran.2 with carry := ran.1 - c.configuration.cyclesPerLine } : Console δ).Tidy :=
    ⟨coherent, synced⟩
  apply tidy.tickLine.atBoundary_nextLine
  have few := boundary.field_lt
  rwa [← field] at few

/-- The beam goes where an accepted snapshot says that it is. -/
theorem AtBoundary.loaded (boundary : c.AtBoundary) (s : ConsoleSnapshot) :
    (c.loaded s).AtBoundary := by
  have tidy := boundary.toTidy.handle (.load s)
  change (c.loaded s).Tidy at tidy
  obtain ⟨expansion, same⟩ | ⟨processor, controller, expansion, -, -, same⟩ := c.loaded_cases s
  · rw [same] at tidy ⊢
    exact boundary.of_registers tidy rfl rfl rfl
  · rw [same] at tidy ⊢
    exact ⟨tidy, rfl, rfl⟩

theorem AtBoundary.handle (boundary : c.AtBoundary) {event : ConsoleEvent δ}
    (whole : event.KeepsLine) : (c.handle event).AtBoundary := by
  have tidy := boundary.toTidy.handle event
  cases event with
  | step => exact whole.elim
  | runLine => exact boundary.runLine
  | load s => exact boundary.loaded s
  | reset =>
    obtain ⟨-, line, field⟩ := atBoundary_new (δ := δ) c.configuration
    exact ⟨tidy, line, field⟩
  | loadRom bank image =>
    obtain ⟨io, line, field⟩ := c.io_loadRomOrStay bank image
    exact boundary.of_registers tidy (by rw [Console.handle, io]) line field
  | selectRom bank =>
    obtain ⟨io, line, field⟩ := c.io_selectRomOrStay bank
    exact boundary.of_registers tidy (by rw [Console.handle, io]) line field
  | readInput channel =>
    exact boundary.of_registers tidy (SystemController.registers_readInput ..) rfl rfl
  | writeOutput channel value =>
    exact boundary.of_registers tidy (SystemController.registers_writeOutput ..) rfl rfl
  | attach device =>
    exact boundary.of_registers tidy (by rw [Console.handle, c.controller_attach]) rfl rfl
  | detach slot =>
    exact boundary.of_registers tidy (by rw [Console.handle, c.controller_detach]) rfl rfl
  | _ => exact boundary.of_registers tidy rfl rfl rfl

/-- Whole lines end at the start of a line. -/
theorem AtBoundary.run (boundary : c.AtBoundary) {events : List (ConsoleEvent δ)}
    (whole : ∀ event ∈ events, event.KeepsLine) : (c.run events).AtBoundary := by
  induction events generalizing c with
  | nil => exact boundary
  | cons event events ih =>
    obtain ⟨first, rest⟩ := List.forall_mem_cons.1 whole
    exact ih (boundary.handle first) rest

end Console

end ArmConsole
