import ArmConsole.Proofs.Controller.RegisterMap
import ArmConsole.Proofs.Latest
import ArmConsole.System.AddressSpace

/-!
The windows of the signal processor's memories. Each memory is seen through two windows: as words,
which are pairs of its halfwords, and as single halfwords. Main statement: after any writes through
the windows, a read through any of them yields the halfwords that were written last to the cells
that it covers, and nothing besides the two memories and the values kept for the windows has changed.
-/

namespace ArmConsole

/-! ### Cells -/

inductive SignalMemory where
  | instructions | data
  deriving DecidableEq

/-- A place for a halfword in one of the two memories. -/
@[ext]
structure SignalCell where
  memory : SignalMemory
  index : Fin 1024
  deriving DecidableEq

namespace SignalCell

theorem pair_lt (i : Fin 512) : 2 * i.val + 1 < 1024 := by omega

/-- The first cell of a pair, which holds the high half of a word. -/
def high (memory : SignalMemory) (i : Fin 512) : SignalCell :=
  ⟨memory, ⟨2 * i, Nat.lt_of_succ_lt (pair_lt i)⟩⟩

def low (memory : SignalMemory) (i : Fin 512) : SignalCell := ⟨memory, ⟨2 * i + 1, pair_lt i⟩⟩

theorem eq_high_iff {c : SignalCell} {memory : SignalMemory} {i : Fin 512} :
    c = high memory i ↔ c.memory = memory ∧ c.index.val = 2 * i := by
  rw [SignalCell.ext_iff, Fin.ext_iff]
  rfl

theorem eq_low_iff {c : SignalCell} {memory : SignalMemory} {i : Fin 512} :
    c = low memory i ↔ c.memory = memory ∧ c.index.val = 2 * i + 1 := by
  rw [SignalCell.ext_iff, Fin.ext_iff]
  rfl

end SignalCell

/-- What is accessed at once: the cells of a pair, or a single one. -/
inductive SignalAccess where
  | pair (memory : SignalMemory) (i : Fin 512)
  | single (c : SignalCell)
  deriving DecidableEq

namespace SignalAccess

def memory : SignalAccess → SignalMemory
  | pair memory _ => memory
  | single c => c.memory

def covers : SignalAccess → SignalCell → Bool
  | pair memory i, c => c = .high memory i ∨ c = .low memory i
  | single own, c => c = own

/-- The half of a word that is left in a cell when the word is written. -/
def half : SignalAccess → Word → SignalCell → HalfWord
  | pair memory i, v, c => if c = .high memory i then v.highHalf else v.lowHalf
  | single _, v, _ => v.lowHalf

/-- What is read where the cells hold `values`. -/
def read (values : SignalCell → HalfWord) : SignalAccess → Word
  | pair memory i => .ofHalves (values (.high memory i)) (values (.low memory i))
  | single c => (values c).toUInt32

theorem memory_of_covers {a : SignalAccess} {c : SignalCell} (covered : a.covers c = true) :
    c.memory = a.memory := by
  cases a with
  | pair memory i =>
    obtain rfl | rfl := of_decide_eq_true covered
    · rfl
    · rfl
  | single own => exact congrArg SignalCell.memory (of_decide_eq_true covered)

end SignalAccess

namespace SignalProcessor

def memory (p : SignalProcessor) : SignalMemory → Vector HalfWord 1024
  | .instructions => p.instructions
  | .data => p.data

def withMemory (p : SignalProcessor) (memory : SignalMemory) (contents : Vector HalfWord 1024) :
    SignalProcessor :=
  match memory with
  | .instructions => { p with instructions := contents }
  | .data => { p with data := contents }

def cell (p : SignalProcessor) (c : SignalCell) : HalfWord := (p.memory c.memory)[c.index]

def store (p : SignalProcessor) (a : SignalAccess) (v : Word) : SignalProcessor :=
  match a with
  | .pair memory i => p.withMemory memory (setPair (p.memory memory) i v (SignalCell.pair_lt i))
  | .single c => p.withMemory c.memory ((p.memory c.memory).set c.index v.lowHalf)

theorem cell_withMemory (p : SignalProcessor) (memory : SignalMemory)
    (contents : Vector HalfWord 1024) (c : SignalCell) :
    (p.withMemory memory contents).cell c =
      if c.memory = memory then contents[c.index] else p.cell c := by
  obtain ⟨own, i⟩ := c
  cases own <;> cases memory <;> rfl

/-- A cell holds what is stored over it, and is left alone else. -/
theorem cell_store (p : SignalProcessor) (a : SignalAccess) (v : Word) (c : SignalCell) :
    (p.store a v).cell c = if a.covers c then a.half v c else p.cell c := by
  cases a with
  | pair memory i =>
    simp only [store, cell_withMemory, SignalAccess.covers, SignalAccess.half,
      decide_eq_true_iff, SignalCell.eq_high_iff, SignalCell.eq_low_iff]
    by_cases same : c.memory = memory
    · subst same
      simp only [setPair, Fin.getElem_fin, Vector.getElem_set, cell]
      grind
    · simp only [same, false_and, or_false, if_false]
  | single own =>
    simp only [store, cell_withMemory, SignalAccess.covers, SignalAccess.half, decide_eq_true_iff,
      SignalCell.ext_iff, Fin.ext_iff]
    by_cases same : c.memory = own.memory
    · simp only [Fin.getElem_fin, Vector.getElem_set, cell, same]
      grind
    · simp only [same, false_and, if_false]

end SignalProcessor

/-! ### Windows -/

inductive SignalWindow where
  | instructionPairs | instructions | dataPairs | data
  deriving DecidableEq

namespace SignalWindow

/-- Where the controller keeps what was last written to a window. -/
def index : SignalWindow → Nat
  | instructionPairs => 0
  | instructions => 1
  | dataPairs => 2
  | data => 3

theorem index_lt (window : SignalWindow) : window.index < 4 := by cases window <;> decide

def number (window : SignalWindow) : Fin 4 := ⟨window.index, window.index_lt⟩

theorem number_inj {a b : SignalWindow} : a.number = b.number ↔ a = b := by
  cases a <;> cases b <;> decide

end SignalWindow

/-- An offset in one of the four windows, which lie behind each other. -/
structure SignalOffset where
  offset : Word
  above : 0x1800 ≤ offset.toNat
  below : offset.toNat < 0x3800

namespace SignalOffset

/-- The window and what is accessed there. Each window has a place every four bytes. -/
def place (o : SignalOffset) : SignalWindow × SignalAccess :=
  if h : o.offset.toNat < 0x2000 then
    (.instructionPairs, .pair .instructions ⟨(o.offset.toNat - 0x1800) / 4, by omega⟩)
  else if h : o.offset.toNat < 0x3000 then
    (.instructions, .single ⟨.instructions, ⟨(o.offset.toNat - 0x2000) / 4, by omega⟩⟩)
  else if h : o.offset.toNat < 0x3400 then
    (.dataPairs, .pair .data ⟨(o.offset.toNat - 0x3000) / 4, by omega⟩)
  else (.data, .single ⟨.data, ⟨(o.offset.toNat - 0x3400) / 4, by have := o.below; omega⟩⟩)

def window (o : SignalOffset) : SignalWindow := o.place.1

def access (o : SignalOffset) : SignalAccess := o.place.2

theorem toNat_aligned (o : SignalOffset) :
    (o.offset &&& 0xFFFC).toNat = o.offset.toNat / 4 * 4 := by
  have below := o.below
  have whole := ControllerRegister.aligned_mod_four o.offset
  have index : (o.offset &&& 0xFFFC).toNat / 2 ^ 2 = o.offset.toNat / 2 ^ 2 % 2 ^ 14 := by
    rw [UInt32.toNat_and, Nat.and_div_two_pow]
    exact Nat.and_two_pow_sub_one_eq_mod _ 14
  omega

/-- The register map agrees. -/
theorem register_cases (o : SignalOffset) :
    (∃ i : Fin 512, ControllerRegister.ofOffset o.offset = .instructionPair i ∧
      o.place = (.instructionPairs, .pair .instructions i)) ∨
    (∃ i : Fin 1024, ControllerRegister.ofOffset o.offset = .instruction i ∧
      o.place = (.instructions, .single ⟨.instructions, i⟩)) ∨
    (∃ i : Fin 256, ControllerRegister.ofOffset o.offset = .dataPair i ∧
      o.place = (.dataPairs, .pair .data (i.castLE (by decide)))) ∨
    ∃ i : Fin 256, ControllerRegister.ofOffset o.offset = .datum i ∧
      o.place = (.data, .single ⟨.data, i.castLE (by decide)⟩) := by
  have above := o.above
  have below := o.below
  unfold ControllerRegister.ofOffset place
  rw [toNat_aligned]
  obtain ⟨i, register, index⟩ | ⟨i, register, index⟩ | ⟨i, register, index⟩ | ⟨i, register, index⟩ :=
    ControllerRegister.ofNat_signal_cases (n := o.offset.toNat / 4 * 4) (by omega) (by omega)
  · have number : (o.offset.toNat - 0x1800) / 4 = i := by omega
    refine .inl ⟨i, register, ?_⟩
    rw [dif_pos (by omega)]
    simp only [number, Fin.eta]
  · have number : (o.offset.toNat - 0x2000) / 4 = i := by omega
    refine .inr (.inl ⟨i, register, ?_⟩)
    rw [dif_neg (by omega), dif_pos (by omega)]
    simp only [number, Fin.eta]
  · have number : (o.offset.toNat - 0x3000) / 4 = i := by omega
    refine .inr (.inr (.inl ⟨i, register, ?_⟩))
    rw [dif_neg (by omega), dif_neg (by omega), dif_pos (by omega)]
    simp only [number]
    rfl
  · have number : (o.offset.toNat - 0x3400) / 4 = i := by omega
    refine .inr (.inr (.inr ⟨i, register, ?_⟩))
    rw [dif_neg (by omega), dif_neg (by omega), dif_neg (by omega)]
    simp only [number]
    rfl

end SignalOffset

section

variable {δ : Type} [ExpansionDevice δ]

theorem Peripherals.peek_signal (io : Peripherals δ) (o : SignalOffset) :
    io.peek o.offset = (o.access.read io.signal.cell, io) := by
  unfold peek SignalOffset.access
  obtain ⟨i, register, place⟩ | ⟨i, register, place⟩ | ⟨i, register, place⟩ | ⟨i, register, place⟩ :=
    o.register_cases
  all_goals
    rw [register, place]
    rfl

namespace AddressSpace

theorem poke_signal (s : AddressSpace δ) (o : SignalOffset) (v : Word) :
    s.poke o.offset v = (false, s.writeSignal o.window.number v fun p => p.store o.access v) := by
  unfold poke SignalOffset.access SignalOffset.window
  obtain ⟨i, register, place⟩ | ⟨i, register, place⟩ | ⟨i, register, place⟩ | ⟨i, register, place⟩ :=
    o.register_cases
  all_goals
    rw [register, place]
    rfl

/-- Writes through the windows, one after the other. -/
def pokeAll (s : AddressSpace δ) (pokes : List (SignalOffset × Word)) : AddressSpace δ :=
  pokes.foldl (fun s poked => (s.poke poked.1.offset poked.2).2) s

/-- With other contents of the signal processor's memories and of what is kept for the windows. -/
def withSignalMemories (s : AddressSpace δ) (instructions data : Vector HalfWord 1024)
    (lastWritten : Vector Word 4) : AddressSpace δ :=
  { s with
    io := { s.io with
      controller := { s.io.controller with lastWritten }
      signal := { s.io.signal with instructions, data } } }

theorem withSignalMemories_poke (s : AddressSpace δ) (o : SignalOffset) (v : Word)
    (instructions data : Vector HalfWord 1024) (lastWritten : Vector Word 4) :
    (s.poke o.offset v).2.withSignalMemories instructions data lastWritten =
      s.withSignalMemories instructions data lastWritten := by
  rw [poke_signal]
  cases o.access with
  | pair memory i => cases memory <;> rfl
  | single c =>
    obtain ⟨memory, i⟩ := c
    cases memory <;> rfl

theorem withSignalMemories_pokeAll (s : AddressSpace δ) (pokes : List (SignalOffset × Word))
    (instructions data : Vector HalfWord 1024) (lastWritten : Vector Word 4) :
    (s.pokeAll pokes).withSignalMemories instructions data lastWritten =
      s.withSignalMemories instructions data lastWritten := by
  induction pokes generalizing s with
  | nil => rfl
  | cons poked pokes ih => exact (ih _).trans (withSignalMemories_poke ..)

/-- What a cell holds after writes through the windows. -/
def latestIn (s : AddressSpace δ) (pokes : List (SignalOffset × Word)) (c : SignalCell) :
    HalfWord :=
  latest (fun poked => poked.1.access.covers c) (fun poked => poked.1.access.half poked.2 c)
    (s.io.signal.cell c) pokes

theorem cell_pokeAll (s : AddressSpace δ) (pokes : List (SignalOffset × Word)) (c : SignalCell) :
    (s.pokeAll pokes).io.signal.cell c = s.latestIn pokes c := by
  refine view_foldl (fun s : AddressSpace δ => s.io.signal.cell c) ?_ s pokes
  intro s poked
  rw [poke_signal]
  exact SignalProcessor.cell_store ..

theorem lastWritten_pokeAll (s : AddressSpace δ) (pokes : List (SignalOffset × Word))
    (window : SignalWindow) :
    (s.pokeAll pokes).io.controller.lastWritten.get window.number =
      latest (fun poked => poked.1.window == window) (fun poked => poked.2)
        (s.io.controller.lastWritten.get window.number) pokes := by
  refine view_foldl (fun s : AddressSpace δ => s.io.controller.lastWritten.get window.number) ?_ s
    pokes
  intro s poked
  rw [poke_signal]
  simp only [beq_iff_eq, ← SignalWindow.number_inj, Fin.ext_iff]
  exact Vector.getElem_set poked.1.window.number.isLt window.number.isLt

/-- A read through a window yields what was written last to each of the cells that it covers,
through whichever window that was. The two memories do not affect each other, nothing besides them
and the values kept for the windows has changed, and no write stalls the bus. -/
theorem signal_windows (s : AddressSpace δ) (pokes : List (SignalOffset × Word)) :
    let t := s.pokeAll pokes
    (∀ o : SignalOffset, t.io.peek o.offset = (o.access.read (s.latestIn pokes), t.io)) ∧
    (∀ window : SignalWindow, t.io.controller.lastWritten.get window.number =
      latest (fun poked => poked.1.window == window) (fun poked => poked.2)
        (s.io.controller.lastWritten.get window.number) pokes) ∧
    (∀ memory, t.io.signal.memory memory =
      (s.pokeAll (pokes.filter (·.1.access.memory == memory))).io.signal.memory memory) ∧
    t = s.withSignalMemories t.io.signal.instructions t.io.signal.data t.io.controller.lastWritten ∧
    ∀ (o : SignalOffset) (v : Word), (t.poke o.offset v).1 = false := by
  intro t
  refine ⟨?read, lastWritten_pokeAll s pokes, ?other, ?rest, ?stall⟩
  case read =>
    intro o
    rw [Peripherals.peek_signal, ← funext (cell_pokeAll s pokes)]
  case other =>
    intro memory
    -- Cell by cell: what is left out covers no cell of this memory.
    refine Vector.ext fun i inside => ?_
    have kept (poked : SignalOffset × Word)
        (covered : poked.1.access.covers ⟨memory, i, inside⟩ = true) :
        (poked.1.access.memory == memory) = true :=
      beq_iff_eq.2 (SignalAccess.memory_of_covers covered).symm
    have filtered := latest_filter kept
      (fun poked => poked.1.access.half poked.2 ⟨memory, i, inside⟩)
      (s.io.signal.cell ⟨memory, i, inside⟩) pokes
    exact ((cell_pokeAll ..).trans filtered.symm).trans (cell_pokeAll ..).symm
  case rest => exact withSignalMemories_pokeAll ..
  case stall =>
    intro o v
    rw [poke_signal]

end AddressSpace

end

end ArmConsole
