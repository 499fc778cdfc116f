import ArmConsole.Proofs.Console.Mirrors
import ArmConsole.Proofs.Console.Resume
import ArmConsole.Proofs.Machine.Services

/-!
What outlives a reset. RAM, ROM and NVRAM are meant to, and so do the memories of the signal
processor; everything else that a guest can see is to be as it was at the start. The registers of
the graphics controller are not. Main statement: two consoles of one configuration, without devices,
with the same memories and the same graphics registers go on alike after a reset for any number of
lines, whatever happened to them before.
-/

namespace ArmConsole

variable {δ : Type}

namespace Console

variable {configuration : Configuration}

/-! ### The equipment of a configuration -/

/-- Of a configuration, and equipped for it. -/
structure Configured (configuration : Configuration) (c : Console δ) : Prop where
  configured : c.configuration = configuration
  armed : c.machine.armed = (new configuration : Console δ).machine.armed

variable {c d : Console δ}

theorem Configured.of_eq (configured : Configured configuration c)
    (same : d.configuration = c.configuration) (armed : d.machine.armed = c.machine.armed) :
    Configured configuration d :=
  ⟨same.trans configured.configured, armed.trans configured.armed⟩

variable [ExpansionDevice δ]

namespace Configured

theorem runLine (configured : Configured configuration c) : Configured configuration c.runLine :=
  runLine_invariant (P := Configured configuration)
    (fun d configured => configured.of_eq rfl d.machine.armed_step)
    (fun _ _ configured => configured.of_eq rfl rfl) configured

theorem reset (configured : Configured configuration c) : Configured configuration c.reset := by
  refine configured.of_eq rfl ?_
  change (c.machine.calls, (c.machine.redirects.map _).map _) = _
  rw [Option.map_map]
  congr 2
  funext l
  exact congrArg RedirectList.mk (List.map_map ..)

theorem loaded (configured : Configured configuration c) (s : ConsoleSnapshot) :
    Configured configuration (c.loaded s) := by
  obtain ⟨expansion, same⟩ | ⟨processor, controller, expansion, -, -, same⟩ := c.loaded_cases s
  · rw [same]
    exact configured.of_eq rfl rfl
  · rw [same]
    exact configured.of_eq rfl rfl

theorem handle (configured : Configured configuration c) (event : ConsoleEvent δ) :
    Configured configuration (c.handle event) := by
  cases event with
  | step => exact configured.of_eq rfl c.machine.armed_step
  | runLine => exact configured.runLine
  | reset => exact configured.reset
  | load s => exact configured.loaded s
  | loadRom bank image =>
    obtain ⟨memory, same⟩ := c.loadRomOrStay_eq bank image
    rw [Console.handle, same]
    exact configured.of_eq rfl rfl
  | selectRom bank =>
    obtain ⟨memory, same⟩ := c.selectRomOrStay_eq bank
    rw [Console.handle, same]
    exact configured.of_eq rfl rfl
  | _ => exact configured.of_eq rfl rfl

/-- Nothing that reaches a console changes its equipment for good. -/
theorem serveAll (configured : Configured configuration c) (events : List (BusEvent δ)) :
    Configured configuration (c.serveAll events) := by
  refine serveAll_invariant (fun c event configured => ?_) configured events
  cases event with
  | host event => exact handle configured event
  | _ => exact configured.of_eq rfl rfl

end Configured

/-! ### What an instruction forgets -/

/-- The console as an instruction starts on it: what the last one cost and whether it stalled the
bus are forgotten. -/
def begun (c : Console δ) : Console δ :=
  c.mapMachine fun m => m.mapProcessor fun p =>
    { p with cycles := Processor.sequential, stalled := false }

theorem step_begun (c : Console δ) : c.begun.step = c.step := rfl

theorem runCycles_begun (c : Console δ) (budget : Word) (fuel : Nat) (spent : Word) :
    (c.begun.runCycles budget fuel spent).1 = (c.runCycles budget fuel spent).1 ∧
      (c.begun.runCycles budget fuel spent).2.begun =
        (c.runCycles budget fuel spent).2.begun := by
  cases fuel with
  | zero => exact ⟨rfl, rfl⟩
  | succ fuel =>
    unfold runCycles
    split
    · rw [step_begun]
      exact ⟨rfl, rfl⟩
    · exact ⟨rfl, rfl⟩

theorem begun_endLine (c : Console δ) (carry : Word) :
    ({ c with carry } : Console δ).tickLine.nextLine.begun =
      ({ c.begun with carry } : Console δ).tickLine.nextLine.begun := rfl

theorem runLine_begun (c : Console δ) : c.begun.runLine.begun = c.runLine.begun := by
  obtain ⟨spent, same⟩ := c.runCycles_begun c.configuration.cyclesPerLine
    (c.configuration.cyclesPerLine.toNat - c.carry.toNat) c.carry
  unfold runLine
  dsimp only
  rw [begun_endLine, begun_endLine (c.runCycles _ _ _).2, ← same, ← spent]
  rfl

theorem runLines_begun (c : Console δ) (count : Nat) :
    (c.begun.runLines count).begun = (c.runLines count).begun := by
  induction count generalizing c with
  | zero => rfl
  | succ count ih =>
    change (c.begun.runLine.runLines count).begun = (c.runLine.runLines count).begun
    rw [← ih c.begun.runLine, runLine_begun, ih]

/-! ### What a reset keeps -/

/-- Equal in what is meant to outlive a reset, and without devices. -/
structure SameContents (c d : Console δ) : Prop where
  memory : c.machine.space.memory.Alike d.machine.space.memory
  instructions : c.machine.space.io.signal.instructions = d.machine.space.io.signal.instructions
  data : c.machine.space.io.signal.data = d.machine.space.io.signal.data
  vacant : c.machine.space.io.expansion.Vacant
  vacant' : d.machine.space.io.expansion.Vacant

theorem SameContents.io_reset (same : c.SameContents d)
    (graphics : c.machine.space.io.graphics = d.machine.space.io.graphics)
    (serial : c.machine.space.io.videoSerial = d.machine.space.io.videoSerial) :
    c.machine.space.io.reset = d.machine.space.io.reset := by
  have expansion (bus : ExpansionBus δ) (vacant : bus.Vacant) : bus.reset = .empty :=
    congrArg (ExpansionBus.mk · 0) vacant.reset.slots_eq
  unfold Peripherals.reset SignalProcessor.reset
  rw [expansion _ same.vacant, expansion _ same.vacant', same.instructions, same.data, graphics,
    serial]

theorem SameContents.begun_reset (same : c.SameContents d) (first : Configured configuration c)
    (second : Configured configuration d)
    (graphics : c.machine.space.io.graphics = d.machine.space.io.graphics)
    (serial : c.machine.space.io.videoSerial = d.machine.space.io.videoSerial) :
    c.reset.begun.Alike d.reset.begun := by
  obtain ⟨calls, redirects⟩ := Prod.ext_iff.1 (first.armed.trans second.armed.symm)
  exact ⟨first.configured.trans second.configured.symm,
    ⟨rfl, same.memory, same.io_reset graphics serial, calls, redirects⟩, rfl, rfl, rfl, rfl⟩

omit [ExpansionDevice δ] in
theorem Alike.begun (alike : c.Alike d) : c.begun.Alike d.begun := by
  obtain ⟨configuration, ⟨processor, memory, io, calls, redirects⟩, line, field, carry, cycles⟩ :=
    alike
  refine ⟨configuration, ⟨?_, memory, io, calls, redirects⟩, line, field, carry, cycles⟩
  exact congrArg (fun p : Processor => { p with cycles := Processor.sequential }) processor

omit [ExpansionDevice δ] in
theorem Alike.eq_of_memory (alike : c.begun.Alike d.begun)
    (memory : c.machine.space.memory = d.machine.space.memory) : c.begun = d.begun := by
  obtain ⟨configuration, ⟨p, ⟨m, io⟩, calls, redirects⟩, line, field, carry, cycles⟩ := c
  obtain ⟨_, ⟨q, ⟨n, _⟩, _, _⟩, _, _, _, _⟩ := d
  obtain ⟨same, ⟨processor, -, rfl, rfl, rfl⟩, rfl, rfl, rfl, rfl⟩ := alike
  obtain rfl : configuration = _ := same
  obtain rfl : m = n := memory
  exact congrArg (fun p => Console.mk configuration ⟨p, ⟨m, io⟩, calls, redirects⟩ line field carry
    cycles) processor

/-- Whatever happened to two consoles of one configuration: with the same contents, and with the
same graphics registers, which a reset does not reach, they are alike after a reset and after any
number of lines. If their shadow pages were the same, they are the same. -/
theorem runLines_reset (configuration : Configuration) (events events' : List (BusEvent δ)) :
    let c := (new configuration).serveAll events
    let d := (new configuration).serveAll events'
    c.SameContents d → c.machine.space.io.graphics = d.machine.space.io.graphics →
    ∀ count, (c.reset.runLines count).begun.Alike (d.reset.runLines count).begun ∧
      (c.machine.space.memory = d.machine.space.memory →
        (c.reset.runLines count).begun = (d.reset.runLines count).begun) := by
  intro c d same graphics count
  have start : Configured configuration (new configuration : Console δ) := ⟨rfl, rfl⟩
  have detached := (mirrored_new (δ := δ) configuration).serveAll
  have alike := same.begun_reset (start.serveAll events) (start.serveAll events') graphics
    ((detached events).serial.trans (detached events').serial.symm)
  -- The cost of the last instruction outlives a reset, but no instruction looks at it.
  rw [← runLines_begun c.reset, ← runLines_begun d.reset]
  refine ⟨(alike.runLines count).begun, fun memory => ?_⟩
  rw [alike.eq_of_memory memory]

/-- Interrupts that were raised, a request that is waiting and a register that was written to are
forgotten. -/
theorem runLines_reset_disturbed :
    let c := (new .standard : Console ScriptedDevice).serveAll
      [.writeWord 0x03400034 300, .host (.raise 1 0), .host .requestFiq]
    c.SameContents (new .standard) ∧
      (c.reset.runLines 2).begun = ((new .standard).reset.runLines 2).begun := by
  intro c
  have same : c.SameContents (new .standard) :=
    ⟨.refl _, rfl, rfl, ExpansionBus.vacant_empty, ExpansionBus.vacant_empty⟩
  exact ⟨same, (runLines_reset .standard _ [] same rfl 2).2 rfl⟩

/-! ### A register that outlives a reset -/

omit [ExpansionDevice δ] in
/-- The graphics registers are not among the contents. -/
theorem SameContents.mapGraphics (c : Console δ) (vacant : c.machine.space.io.expansion.Vacant)
    (f : GraphicsRegisters → GraphicsRegisters) :
    c.SameContents (c.mapIo fun io => { io with graphics := f io.graphics }) :=
  ⟨.refl _, rfl, rfl, vacant, vacant⟩

section Leak

/-- Loads R0 from the graphics register at offset 8. -/
def leak : ByteArray := ⟨#[0xE7, 0x9F, 0x02, 0x2F]⟩

def leakBank : Block GuestMemory.romSize := (Block.zero GuestMemory.romSize).blit 0 leak (by decide)

def leakMemory : GuestMemory :=
  { GuestMemory.empty with roms := GuestMemory.empty.roms.set 0 leakBank Nat.zero_lt_two }

theorem readWord_leakMemory (io : Peripherals ScriptedDevice) :
    AddressSpace.readWord ⟨leakMemory, io⟩ 0x03000000 = (0xE79F022F, ⟨leakMemory, io⟩) := by
  have word : leakBank.word 0 (by decide) = 0xE79F022F :=
    (Block.word_blit_front _ _ (by decide : 0 + 4 ≤ leak.size) (by decide)).trans (by decide)
  change (leakBank.word 0 (by decide), (⟨leakMemory, io⟩ : AddressSpace ScriptedDevice)) = _
  rw [word]

theorem readData_leak (m : Machine ScriptedDevice) :
    m.readData .word 0x03300008 = (m.space.io.graphics.read 8, m) := by
  change (Word.rotateRight (m.space.io.graphics.read 8) 0, m) = _
  rw [Word.rotateRight_zero]

def leakTransfer : SingleTransfer where
  load := true
  width := .word
  writeBack := false
  indexing := .pre
  direction := .up
  rd := .r0
  base := .pc
  offset := .register .pc .lsr 4

/-- At the reset vector the instruction addresses the register. -/
theorem execute_leak {m : Machine ScriptedDevice} (pc : m.processor.pc = 0x03000004)
    (carry : m.processor.status = Processor.initial.status) :
    (m.execute (.singleTransfer leakTransfer)).processor.live.get RegisterNumber.r0 =
      m.space.io.graphics.read 8 := by
  have ahead : m.processor.operand .pc Processor.lookAhead = 0x03000008 := by
    change m.processor.pc + 4 = _
    rw [pc]
    rfl
  have offset : m.processor.transferOffset leakTransfer.offset = 0x00300000 := by
    change (ShiftKind.lsr.applyField 4 (m.processor.operand .pc Processor.lookAhead)
      m.processor.status.carry).value = _
    rw [ahead, carry]
    decide
  have address : m.processor.operand .pc Processor.lookAhead +
      m.processor.transferOffset leakTransfer.offset = 0x03300008 := by
    rw [ahead, offset]
    rfl
  change ((m.readData .word (m.processor.operand .pc Processor.lookAhead +
    m.processor.transferOffset leakTransfer.offset)).2.processor.withRegister .r0
      (m.readData .word (m.processor.operand .pc Processor.lookAhead +
        m.processor.transferOffset leakTransfer.offset)).1).live.get RegisterNumber.r0 = _
  rw [address, readData_leak]
  exact Vector.getElem_set_self _

variable {c : Console ScriptedDevice}

/-- The first instruction after a reset shows the guest what was written before. -/
theorem runLine_reset_leak (configured : c.configuration = hurried)
    (memory : c.machine.space.memory = leakMemory) (plain : c.machine.redirects = none) :
    c.reset.runLine.machine.processor.live.get RegisterNumber.r0 =
      c.machine.space.io.graphics.read 8 := by
  have one : c.reset.configuration.cyclesPerLine = 1 := by
    change c.configuration.cyclesPerLine = 1
    rw [configured]
    decide
  have plain : c.reset.machine.redirects = none := by
    change c.machine.redirects.map _ = none
    rw [plain]
    rfl
  have fetched : c.reset.machine.space.readWord
      (Machine.wordAddress c.reset.machine.processor.pc) =
        (0xE79F022F, c.reset.machine.space) := by
    have start : Machine.wordAddress c.reset.machine.processor.pc = 0x03000000 := by
      change Machine.wordAddress Processor.initial.pc = _
      decide
    have whole : c.reset.machine.space = ⟨leakMemory, c.machine.space.io.reset⟩ := by
      rw [← memory]
      rfl
    rw [start, whole]
    exact readWord_leakMemory _
  have passes : (Condition.ofField ((0xE79F022F : Word) >>> 28)).passes
      c.reset.machine.processor.status.flags = true := by
    change (Condition.ofField ((0xE79F022F : Word) >>> 28)).passes
      Processor.initial.status.flags = true
    decide
  have decoded : Instruction.decode 0xE79F022F = .singleTransfer leakTransfer := by decide
  have stepped := Machine.step_of_fetched plain fetched passes
  rw [decoded] at stepped
  generalize executed : (Machine.execute _ _ : Machine ScriptedDevice) = m at stepped
  have status : m.processor.status = Processor.initial.status := by
    rw [← executed]
    rfl
  rw [Machine.finish_of_masked (by rw [← executed]; rfl) (by rw [status]; rfl)] at stepped
  rw [runLine_of_single one rfl]
  change c.reset.machine.step.processor.live.get RegisterNumber.r0 = _
  rw [stepped, ← executed]
  have pc : Machine.wordAddress Processor.initial.pc + 4 = 0x03000004 := by decide
  exact execute_leak ((Processor.pc_withPc _ _).trans pc) rfl

/-- A console that shows its guest the register after a reset. -/
def leaking : Console ScriptedDevice :=
  (new hurried).mapMachine fun m => m.mapMemory fun _ => leakMemory

theorem serve_loadRom_leak : (new hurried).serve (.host (.loadRom 0 leak)) = leaking :=
  loadRomOrStay_of_fits (new hurried) (by decide : leak.size ≤ GuestMemory.romSize)

/-- The same console when the register has been written to. -/
def marked : Console ScriptedDevice :=
  leaking.mapIo fun io => { io with graphics := io.graphics.write 8 5 }

theorem serve_writeWord_leak : leaking.serve (.writeWord 0x03300008 5) = marked := rfl

/-- Without equal graphics registers, one line is enough. -/
theorem runLines_reset_reveals : ¬∀ (configuration : Configuration)
    (events events' : List (BusEvent ScriptedDevice)),
    let c := (new configuration).serveAll events
    let d := (new configuration).serveAll events'
    c.SameContents d → ∀ count,
      (c.reset.runLines count).machine.processor.live =
        (d.reset.runLines count).machine.processor.live := by
  intro forgotten
  have lines := forgotten hurried [.host (.loadRom 0 leak)]
    [.host (.loadRom 0 leak), .writeWord 0x03300008 5]
  simp only [serveAll, List.foldl_cons, List.foldl_nil, serve_loadRom_leak,
    serve_writeWord_leak] at lines
  have single (c : Console ScriptedDevice) : c.runLines 1 = c.runLine := rfl
  have vacant : leaking.machine.space.io.expansion.Vacant := ExpansionBus.vacant_empty
  have live := lines (.mapGraphics leaking vacant (·.write 8 5)) 1
  rw [single, single] at live
  have before : leaking.reset.runLine.machine.processor.live.get RegisterNumber.r0 = 0 :=
    (runLine_reset_leak rfl rfl rfl).trans (Vector.getElem_replicate _)
  have after : marked.reset.runLine.machine.processor.live.get RegisterNumber.r0 = 5 :=
    (runLine_reset_leak rfl rfl rfl).trans (Vector.getElem_set_self _)
  rw [live, after] at before
  contradiction

end Leak

end Console

end ArmConsole
