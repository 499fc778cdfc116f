import ArmConsole.Proofs.Machine.FlatRam
import ArmConsole.Proofs.Processor.Operands

/-!
Transfers of many registers. A block is a row of words in RAM, which a list of registers is paired
with from the lowest one up. A load fills the registers of the list one after the other; a store
puts the words down one after the other, and no two of them meet. Main statement: what a load or a
store of a block does, as a change of the 31 registers and of the words of RAM.
-/

namespace ArmConsole

namespace Machine

/-! ### Rows of words -/

/-- Word `j` of those from `address` up. -/
def row (address : Word) (j : Nat) : Word := wordAddress (address + 4 * .ofNat j)

theorem row_zero (address : Word) : row address 0 = wordAddress address := by
  rw [row]
  exact congrArg wordAddress (UInt32.add_zero address)

theorem row_succ (address : Word) (j : Nat) : row address (j + 1) = row (address + 4) j := by
  have next : (4 : Word) * .ofNat (j + 1) = 4 + 4 * .ofNat j := by
    rw [UInt32.ofNat_add, UInt32.mul_add, UInt32.add_comm]
    rfl
  rw [row, row, next, ← UInt32.add_assoc]

theorem toNat_row (address : Word) (j : Nat) :
    (row address j).toNat = (address.toNat + 4 * j) % 2 ^ 32 / 4 * 4 := by
  have number : (UInt32.ofNat j).toNat = j % 2 ^ 32 := UInt32.toNat_ofNat'
  have scaled : ((4 : Word) * .ofNat j).toNat = 4 * j % 2 ^ 32 := by
    rw [UInt32.toNat_mul, number]
    change 4 * (j % 2 ^ 32) % 2 ^ 32 = _
    omega
  rw [row, toNat_wordAddress, UInt32.toNat_add, scaled, Nat.add_mod_mod]

/-- The words of a row are different ones, unless the row goes round the whole address space. -/
theorem row_apart (address : Word) {j : Nat} (short : j + 1 < 2 ^ 30) :
    (row address (j + 1)).toNat / 4 ≠ (row address 0).toNat / 4 := by
  have inside := address.toNat_lt
  rw [toNat_row, toNat_row]
  omega

end Machine

namespace BlockTransfer

/-- Where the word of listed register `j` is, counted from the lowest register, when the base holds
`base`. -/
def place (i : BlockTransfer) (base : Word) (j : Nat) : Word :=
  let k : Word := .ofNat i.registers.length
  Machine.wordAddress <|
    match i.direction, i.indexing with
    | .up, .post => base + 4 * .ofNat j
    | .up, .pre => base + 4 + 4 * .ofNat j
    | .down, .post => base - 4 * k + 4 + 4 * .ofNat j
    | .down, .pre => base - 4 * k + 4 * .ofNat j

/-- The base moved by the size of the block. -/
def moved (i : BlockTransfer) (base : Word) : Word :=
  match i.direction with
  | .up => base + 4 * .ofNat i.registers.length
  | .down => base - 4 * .ofNat i.registers.length

/-- The mode whose registers are transferred: User if the S bit does not go with R15. -/
def bank (i : BlockTransfer) (p : Processor) : Mode :=
  if i.status = true ∧ .pc ∉ i.registers then .user else p.mode

/-- The registers when the base has been written back, if it is. -/
def writtenBack (i : BlockTransfer) (p : Processor) : PhysicalRegister → Word :=
  if i.writeBack = true then
    Function.update p.registers (p.mode.sees i.base) (i.moved (p.held i.base))
  else p.registers

/-- Whether all words of the block are in RAM. -/
def InRam (i : BlockTransfer) (p : Processor) : Prop :=
  ∀ j < i.registers.length, (i.place (p.held i.base) j).toNat < GuestMemory.ramSize

instance (i : BlockTransfer) (p : Processor) : Decidable (i.InRam p) :=
  inferInstanceAs (Decidable (∀ j < i.registers.length, _))

variable {δ : Type} [ExpansionDevice δ]

/-- From `m` to `n`, the listed registers have been stored. -/
structure Stored (i : BlockTransfer) (m n : Machine δ) : Prop where
  machine : n = { m with
    processor := n.processor, space := { m.space with memory := n.space.memory } }
  word (j : Nat) (among : j < i.registers.length) :
    (n.space.readWord (i.place (m.processor.held i.base) j)).1 =
      m.processor.reading (i.bank m.processor) 12 i.registers[j]
  memory : GuestMemory.Framed (fun b => ∃ j < i.registers.length,
    b.val / 4 = (i.place (m.processor.held i.base) j).toNat / 4) (fun _ => False) m.space.memory
      n.space.memory
  registers : n.processor.registers = i.writtenBack m.processor
  only : m.processor.OnlyRegisters n.processor

/-- From `m` to `n`, the listed registers have been loaded, and with R15 the saved status word if
the S bit asks for it. -/
structure Loaded (i : BlockTransfer) (m n : Machine δ) : Prop where
  machine : n = { m with processor := n.processor }
  listed (j : Nat) (among : j < i.registers.length) :
    n.processor.registers ((i.bank m.processor).sees i.registers[j]) =
      (m.space.readWord (i.place (m.processor.held i.base) j)).1
  others (q : PhysicalRegister) :
    (∀ r ∈ i.registers, q ≠ (i.bank m.processor).sees r) →
      n.processor.registers q = i.writtenBack m.processor q
  status : (n.processor.mode, n.processor.status) =
    if i.status = true ∧ .pc ∈ i.registers then m.processor.returned
    else (m.processor.mode, m.processor.status)
  kept : m.processor.Kept n.processor

/-! ### What instructions compute -/

theorem place_eq (i : BlockTransfer) (base : Word) (j : Nat) :
    i.place base j = Machine.row (i.lowest base) j := by
  unfold place lowest
  cases i.direction <;> cases i.indexing <;> rfl

theorem finalBase_eq (i : BlockTransfer) (base : Word) : i.finalBase base = i.moved base := by
  unfold finalBase moved
  cases i.direction <;> rfl

theorem bank_eq (i : BlockTransfer) (p : Processor) : i.bank p = p.transferMode i.usesUserBank := by
  rw [bank, Processor.transferMode, usesUserBank]
  simp only [pc_mem_registers_iff, Bool.and_eq_true, Bool.not_eq_true', Bool.not_eq_true]

theorem restoresStatus_iff {i : BlockTransfer} :
    i.restoresStatus = true ↔ i.status = true ∧ .pc ∈ i.registers := by
  rw [restoresStatus, Bool.and_eq_true, pc_mem_registers_iff]

end BlockTransfer

namespace Machine

variable {δ : Type} [ExpansionDevice δ]

/-! ### Loads -/

/-- From `m` to `n`, registers of a mode have taken the words of a row, and nothing else has
changed. -/
structure RowLoaded (mode : Mode) (rs : List RegisterNumber) (address : Word) (m n : Machine δ) :
    Prop where
  machine : n = { m with processor := n.processor }
  only : m.processor.OnlyRegisters n.processor
  listed (j : Nat) (among : j < rs.length) :
    n.processor.registers (mode.sees rs[j]) = (m.space.readWord (row address j)).1
  others (q : PhysicalRegister) :
    (∀ r ∈ rs, q ≠ mode.sees r) → n.processor.registers q = m.processor.registers q

theorem loadRegisters_cons {m : Machine δ} {user : Bool} {address : Word} {r : RegisterNumber}
    {rs : List RegisterNumber} (here : (row address 0).toNat < GuestMemory.ramSize) :
    m.loadRegisters user address (r :: rs) =
      (m.mapProcessor fun p => p.load user r (m.space.readWord (row address 0)).1).loadRegisters
        user (address + 4) rs := by
  rw [loadRegisters, ← row_zero, readWord_of_lt here, m.space.readWord_of_lt here]

theorem rowLoaded_loadRegisters (m : Machine δ) (user : Bool) (address : Word)
    {rs : List RegisterNumber} (nodup : rs.Nodup)
    (inRam : ∀ j < rs.length, (row address j).toNat < GuestMemory.ramSize) :
    m.RowLoaded (m.processor.transferMode user) rs address (m.loadRegisters user address rs) := by
  induction rs generalizing m address with
  | nil => exact ⟨rfl, .refl _, fun j none => absurd none (Nat.not_lt_zero j), fun _ _ => rfl⟩
  | cons r rs ih =>
    obtain ⟨unlisted, nodup⟩ := List.nodup_cons.1 nodup
    let mode := m.processor.transferMode user
    let v := (m.space.readWord (row address 0)).1
    let one := m.mapProcessor fun p => p.load user r v
    have only : m.processor.OnlyRegisters one.processor := m.processor.onlyRegisters_load user r v
    have loaded : one.processor.registers = Function.update m.processor.registers (mode.sees r) v :=
      m.processor.registers_load user r v
    have rest := ih one (address + 4) nodup fun j among => by
      rw [← row_succ]
      exact inRam (j + 1) (Nat.succ_lt_succ among)
    rw [only.transferMode] at rest
    rw [loadRegisters_cons (inRam 0 (Nat.succ_pos _))]
    refine ⟨rest.machine, only.trans rest.only, ?_, ?_⟩
    · intro j among
      cases j with
      | zero =>
        -- No later load reaches the register, for it is listed once.
        have apart : ∀ s ∈ rs, mode.sees r ≠ mode.sees s := by
          intro s among same
          exact unlisted (Mode.eq_of_sees same ▸ among)
        refine (rest.others _ apart).trans ?_
        rw [loaded]
        exact Function.update_self _ _ _
      | succ j =>
        rw [row_succ]
        exact rest.listed j (Nat.lt_of_succ_lt_succ among)
    · intro q outside
      obtain ⟨other, outside⟩ := List.forall_mem_cons.1 outside
      rw [rest.others q outside, loaded, Function.update_of_ne other]

/-! ### Stores -/

/-- From `m` to `n`, the words of a row have taken values, and nothing else has changed. -/
structure RowStored (vs : List Word) (address : Word) (m n : Machine δ) : Prop where
  machine : n = { m with space := { m.space with memory := n.space.memory } }
  word (j : Nat) (among : j < vs.length) : (n.space.readWord (row address j)).1 = vs[j]
  memory : GuestMemory.Framed (fun b => ∃ j < vs.length, b.val / 4 = (row address j).toNat / 4)
    (fun _ => False) m.space.memory n.space.memory

theorem storeValues_cons {m : Machine δ} {address v : Word} {vs : List Word}
    (here : (row address 0).toNat < GuestMemory.ramSize) :
    m.storeValues address (v :: vs) =
      (m.mapMemory fun memory => memory.writeWord ⟨_, here⟩ v).storeValues (address + 4) vs := by
  rw [storeValues, ← row_zero, writeWord_of_lt here]

theorem rowStored_storeValues (m : Machine δ) (address : Word) {vs : List Word}
    (short : vs.length < 2 ^ 30)
    (inRam : ∀ j < vs.length, (row address j).toNat < GuestMemory.ramSize) :
    m.RowStored vs address (m.storeValues address vs) := by
  induction vs generalizing m address with
  | nil => exact ⟨rfl, fun j none => absurd none (Nat.not_lt_zero j), .refl _⟩
  | cons v vs ih =>
    have here : (row address 0).toNat < GuestMemory.ramSize := inRam 0 (Nat.succ_pos _)
    let one := m.mapMemory fun memory => memory.writeWord ⟨_, here⟩ v
    have rest := ih one (address + 4) (Nat.lt_of_succ_lt short) fun j among => by
      rw [← row_succ]
      exact inRam (j + 1) (Nat.succ_lt_succ among)
    rw [storeValues_cons here]
    refine ⟨rest.machine, ?_, ?_⟩
    · intro j among
      cases j with
      | zero =>
        have outside (b : RamAddress) (same : b.val / 4 = (row address 0).toNat / 4) :
            ¬∃ j < vs.length, b.val / 4 = (row (address + 4) j).toNat / 4 := by
          rintro ⟨j, among, met⟩
          rw [← row_succ, same] at met
          have inside : j + 1 < 2 ^ 30 := Nat.lt_of_le_of_lt among (Nat.lt_of_succ_lt short)
          exact row_apart address inside met.symm
        rw [AddressSpace.readWord_of_lt here, rest.memory.readWord outside]
        exact GuestMemory.readWord_writeWord _ rfl v
      | succ j =>
        rw [row_succ]
        exact rest.word j (Nat.lt_of_succ_lt_succ among)
    · refine GuestMemory.Framed.trans (n := one.space.memory) ?_ (rest.memory.mono ?_ (fun _ => id))
      · apply (m.space.memory.framed_writeWord ⟨_, here⟩ v).mono
        · exact fun b same => ⟨0, Nat.succ_pos _, same⟩
        · exact fun _ => id
      · rintro b ⟨j, among, same⟩
        exact ⟨j + 1, Nat.succ_lt_succ among, by rwa [row_succ]⟩

/-! ### Blocks -/

section Block

variable {i : BlockTransfer} (plain : i.base ≠ .pc) (m : Machine δ)

include plain

/-- A load writes the base back, fills the registers and may bring the status word back. -/
theorem execute_of_load (load : i.load = true) : ∃ cost,
    let p := m.processor
    let q := if i.writeBack then p.setRegister i.base (i.moved (p.held i.base)) else p
    m.execute (.blockTransfer i) =
      ({ m with processor := q }.loadRegisters i.usesUserBank (i.lowest (p.held i.base))
        i.registers).mapProcessor fun p =>
          (if i.restoresStatus then p.restoreStatus else p).spend cost := by
  have unfolded : m.execute (.blockTransfer i) = m.blockTransfer i := rfl
  unfold blockTransfer at unfolded
  dsimp only at unfolded
  rw [if_pos load, Processor.operand_of_ne _ plain, i.finalBase_eq] at unfolded
  exact ⟨_, unfolded⟩

/-- A store takes the values, puts them down and writes the base back. -/
theorem execute_of_store (store : i.load = false) : ∃ cost,
    m.execute (.blockTransfer i) =
      (m.storeValues (i.lowest (m.processor.held i.base))
        (i.registers.map (m.processor.stored i.usesUserBank))).mapProcessor fun p =>
          (if i.writeBack then p.setRegister i.base (i.moved (m.processor.held i.base))
          else p).spend cost := by
  have unfolded : m.execute (.blockTransfer i) = m.blockTransfer i := rfl
  unfold blockTransfer at unfolded
  dsimp only at unfolded
  rw [if_neg (by rw [store]; decide), Processor.operand_of_ne _ plain, i.finalBase_eq] at unfolded
  exact ⟨_, unfolded⟩

variable (inRam : i.InRam m.processor)

include inRam

theorem loaded_blockTransfer (load : i.load = true) :
    i.Loaded m (m.execute (.blockTransfer i)) := by
  let p := m.processor
  let start := i.lowest (p.held i.base)
  let q := if i.writeBack then p.setRegister i.base (i.moved (p.held i.base)) else p
  let filled := { m with processor := q }.loadRegisters i.usesUserBank start i.registers
  let r := if i.restoresStatus then filled.processor.restoreStatus else filled.processor
  obtain ⟨cost, performed⟩ := execute_of_load plain m load
  obtain ⟨writtenBack, only⟩ : q.registers = i.writtenBack p ∧ p.OnlyRegisters q :=
    p.setRegister_if _ _ _
  have row : RowLoaded (q.transferMode i.usesUserBank) i.registers start { m with processor := q }
      filled :=
    rowLoaded_loadRegisters { m with processor := q } _ _ i.nodup_registers fun j among => by
      rw [← i.place_eq]
      exact inRam j among
  rw [only.transferMode, ← i.bank_eq] at row
  obtain ⟨registers, kept, state⟩ : r.registers = filled.processor.registers ∧
      filled.processor.Kept r ∧
      (r.mode, r.status) = if i.restoresStatus = true then filled.processor.returned
        else (filled.processor.mode, filled.processor.status) :=
    filled.processor.restoreStatus_if _
  have whole : p.OnlyRegisters filled.processor := only.trans row.only
  rw [performed]
  refine ⟨?_, ?_, ?_, ?_, ?_⟩
  · change { filled with processor := r.spend cost } = { m with processor := r.spend cost }
    rw [row.machine]
  · intro j among
    rw [i.place_eq]
    exact (congrFun registers _).trans (row.listed j among)
  · intro x outside
    rw [← writtenBack]
    exact (congrFun registers _).trans (row.others x outside)
  · simp only [← BlockTransfer.restoresStatus_iff]
    rw [← whole.returned, ← whole.mode, ← whole.status]
    exact state
  · exact whole.toKept.trans (kept.trans (r.onlyRegisters_spend cost).toKept)

theorem stored_blockTransfer (store : i.load = false) :
    i.Stored m (m.execute (.blockTransfer i)) := by
  let p := m.processor
  let start := i.lowest (p.held i.base)
  let values := i.registers.map (p.stored i.usesUserBank)
  let put := m.storeValues start values
  let q := if i.writeBack then put.processor.setRegister i.base (i.moved (p.held i.base))
    else put.processor
  obtain ⟨cost, performed⟩ := execute_of_store plain m store
  have count : values.length = i.registers.length := List.length_map _
  have short : values.length < 2 ^ 30 := by
    have few := i.length_registers_le
    omega
  have row : m.RowStored values start put := rowStored_storeValues _ _ short fun j among => by
    rw [← i.place_eq]
    exact inRam j (count ▸ among)
  have same : put.processor = p := congrArg (fun n => n.processor) row.machine
  obtain ⟨writtenBack, only⟩ : q.registers = i.writtenBack p ∧ p.OnlyRegisters q := by
    simp only [q, same]
    exact p.setRegister_if _ _ _
  rw [performed]
  refine ⟨?_, ?_, ?_, writtenBack, only.trans (q.onlyRegisters_spend cost)⟩
  · change { put with processor := q.spend cost } = { m with
      processor := q.spend cost, space := { m.space with memory := put.space.memory } }
    rw [row.machine]
  · intro j among
    rw [i.place_eq, i.bank_eq, ← p.stored_eq, ← List.getElem_map (p.stored i.usesUserBank)]
    exact row.word j (count ▸ among)
  · simp only [i.place_eq, ← count]
    exact row.memory

end Block

/-- What a transfer of a block in RAM does. The list is paired with the words in ascending order; a
store takes all values before the base is written back, and a load comes after that. -/
theorem execute_blockTransfer (m : Machine δ) (i : BlockTransfer) (plain : i.base ≠ .pc)
    (inRam : i.InRam m.processor) :
    let n := m.execute (.blockTransfer i)
    (i.registers.Pairwise (· < ·) ∧ ∀ r, r ∈ i.registers ↔ i.list.bit (.ofNat r) = true) ∧
    (i.load = false → i.Stored m n) ∧ (i.load = true → i.Loaded m n) := by
  intro n
  refine ⟨⟨i.sorted_registers, fun r => i.mem_registers_iff⟩, ?_, ?_⟩
  · exact stored_blockTransfer plain m inRam
  · exact loaded_blockTransfer plain m inRam

/-- In Supervisor mode, with 7 in User's R14. -/
def stacking : Machine ScriptedDevice where
  processor := (((Processor.initial.switchMode .user).withRegister .link 7).switchMode
    .supervisor).withRegister .r0 0x8000
  space := { memory := .empty, io := .initial }
  calls := none
  redirects := none

/-- `STMDB R0!, {R1, R14}^` stores User's R14. -/
theorem execute_blockTransfer_stacking :
    let n := stacking.execute (.blockTransfer ⟨false, .pre, .down, true, true, .r0, 0x4002⟩)
    (n.space.readWord 0x7FFC).1 = 7 ∧ n.processor.registers (.low 0) = 0x7FF8 := by
  intro n
  obtain ⟨-, stores, -⟩ := execute_blockTransfer stacking
    ⟨false, .pre, .down, true, true, .r0, 0x4002⟩ (by decide) (by decide)
  have stored := stores rfl
  constructor
  · exact (stored.word 1 (by decide)).trans (by decide)
  · rw [stored.registers]
    decide

end Machine

end ArmConsole
