import ArmConsole.Console

/-!
Runs of a console: everything that its host can ask for, in any order. Main statement:
`run_invariant` takes what each event preserves to whole runs.
-/

namespace ArmConsole

/-- What a host can ask of a console. -/
inductive ConsoleEvent (δ : Type) where
  | step
  | runLine
  | reset
  | requestFiq
  /-- Restores a snapshot, which may be refused. -/
  | load (s : ConsoleSnapshot)
  | loadRom (bank : Nat) (image : ByteArray)
  | selectRom (bank : Nat)
  | setHighResolution (enabled : Bool)
  | writeRam (address : RamAddress) (value : Word)
  | writeSaved (mode : Mode) (status : StatusWord)
  /-- Moves an element of a stream between memory and a device. -/
  | readInput (channel : Fin 13)
  | writeOutput (channel : Fin 4) (value : HalfWord)
  /-- Makes interrupt sources pending. -/
  | raise (primary secondary : Word)
  | attach (device : δ)
  | detach (slot : Nat)

namespace Console

variable {δ : Type}

/-- What an operation that may fail leaves behind. -/
def loadRomOrStay (c : Console δ) (bank : Nat) (image : ByteArray) : Console δ :=
  match c.loadRom bank image with
  | .ok c => c
  | .error _ => c

def selectRomOrStay (c : Console δ) (bank : Nat) : Console δ :=
  match c.machine.space.memory.selectRom bank with
  | .ok memory => c.mapMachine fun m => m.mapMemory fun _ => memory
  | .error _ => c

theorem loadRomOrStay_cases (c : Console δ) (bank : Nat) (image : ByteArray) :
    c.loadRomOrStay bank image = c ∨
      ∃ memory, c.machine.space.memory.loadRom bank image = .ok memory ∧
        c.loadRomOrStay bank image = c.mapMachine fun m => m.mapMemory fun _ => memory := by
  unfold loadRomOrStay loadRom
  cases c.machine.space.memory.loadRom bank image with
  | ok memory => exact .inr ⟨memory, rfl, rfl⟩
  | error e => exact .inl rfl

theorem selectRomOrStay_cases (c : Console δ) (bank : Nat) :
    c.selectRomOrStay bank = c ∨
      ∃ memory, c.machine.space.memory.selectRom bank = .ok memory ∧
        c.selectRomOrStay bank = c.mapMachine fun m => m.mapMemory fun _ => memory := by
  unfold selectRomOrStay
  cases c.machine.space.memory.selectRom bank with
  | ok memory => exact .inr ⟨memory, rfl, rfl⟩
  | error e => exact .inl rfl

/-- Whether the image is taken or not, memory alone may be another. -/
theorem loadRomOrStay_eq (c : Console δ) (bank : Nat) (image : ByteArray) :
    ∃ memory, c.loadRomOrStay bank image = c.mapMachine fun m => m.mapMemory fun _ => memory := by
  obtain same | ⟨memory, -, same⟩ := c.loadRomOrStay_cases bank image
  · exact ⟨c.machine.space.memory, same⟩
  · exact ⟨memory, same⟩

theorem selectRomOrStay_eq (c : Console δ) (bank : Nat) :
    ∃ memory, c.selectRomOrStay bank = c.mapMachine fun m => m.mapMemory fun _ => memory := by
  obtain same | ⟨memory, -, same⟩ := c.selectRomOrStay_cases bank
  · exact ⟨c.machine.space.memory, same⟩
  · exact ⟨memory, same⟩

/-- An image that fits starts the first bank. -/
theorem loadRomOrStay_of_fits (c : Console δ) {image : ByteArray}
    (fits : image.size ≤ GuestMemory.romSize) :
    c.loadRomOrStay 0 image = c.mapMachine fun m => m.mapMemory fun _ =>
      { c.machine.space.memory with
        roms := c.machine.space.memory.roms.set 0
          ((Block.zero GuestMemory.romSize).blit 0 image (by rwa [Nat.zero_add]))
          Nat.zero_lt_two } := by
  have padded : Block.padded? GuestMemory.romSize image = some _ := dif_pos fits
  unfold loadRomOrStay loadRom GuestMemory.loadRom
  rw [padded]
  rfl

def mapIo (c : Console δ) (f : Peripherals δ → Peripherals δ) : Console δ :=
  c.mapMachine fun m => { m with space := { m.space with io := f m.space.io } }

def readInput (c : Console δ) (channel : Fin 13) : Console δ :=
  c.mapIo fun io =>
    { io with controller := (io.controller.readInput channel c.machine.space.memory).2 }

def writeOutput (c : Console δ) (channel : Fin 4) (value : HalfWord) : Console δ :=
  let (controller, memory) :=
    c.machine.space.io.controller.writeOutput channel value c.machine.space.memory
  (c.mapIo fun io => { io with controller }).mapMachine fun m => m.mapMemory fun _ => memory

variable [ExpansionDevice δ]

/-- The console after an attempt to restore a snapshot. -/
def loaded (c : Console δ) (s : ConsoleSnapshot) : Console δ :=
  match load s c with
  | .ok () after => after
  | .error _ after => after

def attach (c : Console δ) (device : δ) : Console δ :=
  c.mapIo fun io =>
    match io.expansion.attach device with
    | some (_, expansion) => { io with expansion }
    | none => io

def detach (c : Console δ) (slot : Nat) : Console δ :=
  c.mapIo fun io =>
    match io.expansion.detach slot with
    | some (_, expansion) => { io with expansion }
    | none => io

def handle (c : Console δ) : ConsoleEvent δ → Console δ
  | .step => c.step
  | .runLine => c.runLine
  | .reset => c.reset
  | .requestFiq => c.mapMachine fun m => m.mapProcessor fun p => { p with fiqLine := true }
  | .load s => c.loaded s
  | .loadRom bank image => c.loadRomOrStay bank image
  | .selectRom bank => c.selectRomOrStay bank
  | .setHighResolution enabled =>
    c.mapMachine fun m => m.mapMemory fun memory => memory.setHighResolution enabled
  | .writeRam address value =>
    c.mapMachine fun m => m.mapMemory fun memory => memory.writeWord address value
  | .writeSaved mode status =>
    c.mapMachine fun m => m.mapProcessor fun p => { p with bank := p.bank.withSaved mode status }
  | .readInput channel => c.readInput channel
  | .writeOutput channel value => c.writeOutput channel value
  | .raise primary secondary =>
    c.mapIo fun io =>
      { io with
        controller := { io.controller with
          interrupts := io.controller.interrupts.raise primary secondary } }
  | .attach device => c.attach device
  | .detach slot => c.detach slot

def run (c : Console δ) (events : List (ConsoleEvent δ)) : Console δ := events.foldl handle c

/-- What every event preserves holds after a run. -/
theorem run_invariant {P : Console δ → Prop} (preserved : ∀ c event, P c → P (c.handle event))
    {c : Console δ} (start : P c) (events : List (ConsoleEvent δ)) : P (c.run events) := by
  induction events generalizing c with
  | nil => exact start
  | cons event events ih => exact ih (preserved c event start)

/-- What a step preserves holds when the cycles of a line are spent. -/
theorem runCycles_invariant {P : Console δ → Prop} (preserved : ∀ c, P c → P c.step)
    {c : Console δ} (start : P c) (budget : Word) (fuel : Nat) (spent : Word) :
    P (c.runCycles budget fuel spent).2 := by
  induction fuel generalizing c spent with
  | zero => exact start
  | succ fuel ih =>
    unfold runCycles
    split
    · exact ih (preserved c start) _
    · exact start

/-- What a step and the end of a line preserve holds after a line. -/
theorem runLine_invariant {P : Console δ → Prop} (step : ∀ c, P c → P c.step)
    (endLine : ∀ c carry, P c → P ({ c with carry } : Console δ).tickLine.nextLine)
    {c : Console δ} (start : P c) : P c.runLine := by
  have spent := runCycles_invariant step start c.configuration.cyclesPerLine
    (c.configuration.cyclesPerLine.toNat - c.carry.toNat) c.carry
  exact endLine _ _ spent

variable {c : Console δ}

/-- A line of one cycle runs one instruction. -/
theorem runLine_of_single (one : c.configuration.cyclesPerLine = 1) (balanced : c.carry = 0) :
    c.runLine = ({ c.step with carry := c.machine.step.processor.cycles - 1 } :
      Console δ).tickLine.nextLine := by
  have first : c.runCycles 1 ((1 : Word).toNat - (0 : Word).toNat) 0 =
      (0 + c.machine.step.processor.cycles, c.step) := rfl
  unfold runLine
  dsimp only
  rw [one, balanced, first, UInt32.zero_add]

/-! ### Snapshots -/

def restored (c : Console δ) (processor : ProcessorSnapshot) (controller : SystemController)
    (expansion : ExpansionBus δ) : Console δ where
  configuration := c.configuration
  machine :=
    (c.mapIo fun io => { io with expansion, controller }).machine.restoreProcessor processor
  line := controller.line
  field := controller.field &&& 1
  carry := 0
  cycles := c.cycles

/-- A refused snapshot reaches the devices on the expansion bus at most. -/
theorem load_cases (c : Console δ) (s : ConsoleSnapshot) :
    (∃ e expansion, load s c = .error e (c.mapIo fun io => { io with expansion })) ∨
      ∃ processor controller expansion,
        ProcessorSnapshot.decode s.processor = .ok processor ∧
        SystemController.decode s.controller = .ok controller ∧
        load s c = .ok () (c.restored processor controller expansion) := by
  unfold load
  cases decodedProcessor : ProcessorSnapshot.decode s.processor with
  | error e => exact .inl ⟨e, _, rfl⟩
  | ok processor =>
    cases decodedController : SystemController.decode s.controller with
    | error e => exact .inl ⟨e, _, rfl⟩
    | ok controller =>
      cases decodedExpansion : c.machine.space.io.expansion.decode s.expansion with
      | error e => exact .inl ⟨e, _, rfl⟩
      | ok expansion =>
        cases applied : ExpansionBus.apply expansion c.machine.space.io.expansion with
        | error e bus =>
          refine .inl ⟨e, bus, ?_⟩
          simp [bind, Except.bind, pure, Except.pure, applied, mapIo, mapMachine]
        | ok u bus =>
          refine .inr ⟨processor, controller, bus, rfl, rfl, ?_⟩
          simp [bind, Except.bind, pure, Except.pure, applied, mapIo, mapMachine, restored]

theorem loaded_cases (c : Console δ) (s : ConsoleSnapshot) :
    (∃ expansion, c.loaded s = c.mapIo fun io => { io with expansion }) ∨
      ∃ processor controller expansion,
        ProcessorSnapshot.decode s.processor = .ok processor ∧
        SystemController.decode s.controller = .ok controller ∧
        c.loaded s = c.restored processor controller expansion := by
  rw [loaded]
  obtain ⟨e, expansion, refused⟩ | ⟨processor, controller, expansion, first, second, done⟩ :=
    c.load_cases s
  · exact .inl ⟨expansion, by rw [refused]⟩
  · exact .inr ⟨processor, controller, expansion, first, second, by rw [done]⟩

end Console

end ArmConsole
