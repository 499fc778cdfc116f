import ArmConsole.Expansion.Scripted
import ArmConsole.Proofs.Console.Run
import ArmConsole.Proofs.System.Mirrors

/-!
Shadow pages over whole runs. Main statement: in high resolution every shadow page shows VRAM, for
every configuration, whatever the guest did, its host asked for and was written to the bus.
-/

namespace ArmConsole

variable {δ : Type}

/-- What reaches a console: the requests of its host, and writes to the bus besides those of the
processor, which has no halfwords. -/
inductive BusEvent (δ : Type) where
  | host (event : ConsoleEvent δ)
  | writeWord (address value : Word)
  | writeHalfWord (address : Word) (value : HalfWord)
  | writeByte (address : Word) (value : Byte)

namespace Console

def mapSpace (c : Console δ) (f : AddressSpace δ → AddressSpace δ) : Console δ :=
  c.mapMachine fun m => { m with space := f m.space }

/-- The address space keeps its shadow pages up to date. -/
def Mirrored (c : Console δ) : Prop := c.machine.space.Mirrored

theorem mirrored_new (configuration : Configuration) :
    (new configuration : Console δ).Mirrored :=
  ⟨.setHighResolution _ _, rfl⟩

namespace Mirrored

variable {c : Console δ}

theorem loadRomOrStay (mirrored : c.Mirrored) (bank : Nat) (image : ByteArray) :
    (c.loadRomOrStay bank image).Mirrored := by
  obtain same | ⟨memory, loaded, same⟩ := c.loadRomOrStay_cases bank image
  · rwa [same]
  · rw [same]
    exact ⟨mirrored.memory.loadRom loaded, mirrored.serial⟩

theorem selectRomOrStay (mirrored : c.Mirrored) (bank : Nat) :
    (c.selectRomOrStay bank).Mirrored := by
  obtain same | ⟨memory, selected, same⟩ := c.selectRomOrStay_cases bank
  · rwa [same]
  · rw [same]
    exact ⟨mirrored.memory.selectRom selected, mirrored.serial⟩

theorem writeOutput (mirrored : c.Mirrored) (channel : Fin 4) (value : HalfWord) :
    (c.writeOutput channel value).Mirrored := by
  have written : (c.machine.space.io.controller.writeOutput channel value
      c.machine.space.memory).2.Mirrored := by
    unfold SystemController.writeOutput
    dsimp only
    split
    · exact mirrored.memory.writeHalfWord _ value
    · exact mirrored.memory
  exact ⟨written, mirrored.serial⟩

end Mirrored

variable [ExpansionDevice δ]

theorem videoSerial_attach (c : Console δ) (device : δ) :
    (c.attach device).machine.space.io.videoSerial = c.machine.space.io.videoSerial := by
  unfold attach mapIo mapMachine
  dsimp only
  split <;> rfl

theorem videoSerial_detach (c : Console δ) (slot : Nat) :
    (c.detach slot).machine.space.io.videoSerial = c.machine.space.io.videoSerial := by
  unfold detach mapIo mapMachine
  dsimp only
  split <;> rfl

def serve (c : Console δ) : BusEvent δ → Console δ
  | .host event => c.handle event
  | .writeWord address value => c.mapSpace fun s => (s.writeWord address value).2
  | .writeHalfWord address value => c.mapSpace fun s => (s.writeHalfWord address value).2
  | .writeByte address value => c.mapSpace fun s => (s.writeByte address value).2

def serveAll (c : Console δ) (events : List (BusEvent δ)) : Console δ := events.foldl serve c

/-- What every event preserves holds when all are served. -/
theorem serveAll_invariant {P : Console δ → Prop} (preserved : ∀ c event, P c → P (c.serve event))
    {c : Console δ} (start : P c) (events : List (BusEvent δ)) : P (c.serveAll events) := by
  induction events generalizing c with
  | nil => exact start
  | cons event events ih => exact ih (preserved c event start)

namespace Mirrored

variable {c : Console δ}

theorem step (mirrored : c.Mirrored) : c.step.Mirrored :=
  Machine.step_invariant AddressSpace.mirrored_invariant mirrored

theorem runLine (mirrored : c.Mirrored) : c.runLine.Mirrored :=
  runLine_invariant (P := Mirrored) (fun _ => step) (fun _ _ mirrored =>
    ⟨mirrored.memory, (Peripherals.videoSerial_tickLine _).trans mirrored.serial⟩) mirrored

/-- An accepted snapshot brings RAM only, and its shadow pages are made anew. -/
theorem loaded (mirrored : c.Mirrored) (s : ConsoleSnapshot) : (c.loaded s).Mirrored := by
  obtain ⟨expansion, same⟩ | ⟨processor, controller, expansion, -, -, same⟩ := c.loaded_cases s
  · rw [same]
    exact ⟨mirrored.memory, mirrored.serial⟩
  · rw [same]
    exact ⟨.ofImages _ _, mirrored.serial⟩

theorem handle (mirrored : c.Mirrored) (event : ConsoleEvent δ) : (c.handle event).Mirrored := by
  cases event with
  | step => exact mirrored.step
  | runLine => exact mirrored.runLine
  | load s => exact mirrored.loaded s
  | loadRom bank image => exact mirrored.loadRomOrStay bank image
  | selectRom bank => exact mirrored.selectRomOrStay bank
  | setHighResolution enabled => exact ⟨.setHighResolution _ enabled, mirrored.serial⟩
  | writeRam address value => exact ⟨mirrored.memory.writeWord address value, mirrored.serial⟩
  | writeOutput channel value => exact mirrored.writeOutput channel value
  | attach device =>
    exact ⟨mirrored.memory, (c.videoSerial_attach device).trans mirrored.serial⟩
  | detach slot => exact ⟨mirrored.memory, (c.videoSerial_detach slot).trans mirrored.serial⟩
  | _ => exact ⟨mirrored.memory, mirrored.serial⟩

theorem serve (mirrored : c.Mirrored) (event : BusEvent δ) : (c.serve event).Mirrored := by
  cases event with
  | host event => exact mirrored.handle event
  | writeWord address value => exact AddressSpace.Mirrored.writeWord mirrored address value
  | writeHalfWord address value => exact AddressSpace.Mirrored.writeHalfWord mirrored address value
  | writeByte address value => exact AddressSpace.Mirrored.writeByte mirrored address value

theorem serveAll (mirrored : c.Mirrored) (events : List (BusEvent δ)) :
    (c.serveAll events).Mirrored :=
  serveAll_invariant (P := Console.Mirrored) (fun _ event mirrored => mirrored.serve event) mirrored
    events

end Mirrored

/-- In high resolution every shadow page shows VRAM, whatever has happened. -/
theorem shadow?_serveAll (configuration : Configuration) (events : List (BusEvent δ)) :
    let memory := ((new configuration).serveAll events).machine.space.memory
    memory.highResolution = true → ∀ page < 3, memory.shadow? page = some memory.vram := by
  intro memory high page has
  have mirrored := (mirrored_new configuration).serveAll events
  exact mirrored.memory.shadow? high has

/-- A halfword and a byte reach VRAM before and after the resolution is switched. -/
theorem shadow?_serveAll_halfWord :
    let console : Console ScriptedDevice := (new .standard).serveAll
      [.writeHalfWord 0x2FFFFE 0xCAFE, .host (.setHighResolution true), .writeByte 0x200003 0x7E]
    let memory := console.machine.space.memory
    memory.highResolution = true ∧ memory.shadow? 2 = some memory.vram :=
  ⟨rfl, shadow?_serveAll .standard _ rfl 2 (by decide)⟩

end Console

end ArmConsole
