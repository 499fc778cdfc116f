import ArmConsole.Proofs.Instruction.Codec
import ArmConsole.Proofs.Machine.FiqDelivery
import ArmConsole.Proofs.Machine.FlatRam
import ArmConsole.Proofs.Processor.Flags
import ArmConsole.Proofs.Processor.Operands
import ArmConsole.Proofs.System.AddressMap

/-!
Branches and returns. The field of a branch counts words from two words past it, with a sign, and
addresses wrap around. Main statement: `branch_step`, by which a branch leads to the address that
its field says and changes nothing else, each address in reach is said by one field, and what was
called returns behind the call.
-/

namespace ArmConsole

/-! ### Words -/

/-- The word of a branch, with bits 28 to 31, bit 24 and bits 0 to 23 given. -/
def Word.ofBranch (condition : Condition) (link : Bool) (field : BitVec 24) : Word :=
  (condition.toField <<< 28) + 0x0A000000 + ofFlag link 24 + .ofNat field.toNat

/-- `MOV PC, R14`. -/
def Word.callReturn : Word := 0xE1A0F00E

def DataProcessing.callReturn : DataProcessing where
  operation := .mov
  setFlags := false
  rn := .r0
  rd := .pc
  operand := .register .link .lsl (.field 0)

/-- The field of a branch at `a` says `target`. -/
def BranchTo (a : Word) (field : BitVec 24) (target : Word) : Prop :=
  (target.toNat : Int) = (a.toNat + 8 + 4 * field.toInt) % 2 ^ 32

section Words

variable (condition : Condition) (link : Bool) (field : BitVec 24)

theorem toNat_ofBranch : (Word.ofBranch condition link field).toNat =
    condition.toField.toNat * 2 ^ 28 + 5 * 2 ^ 25 + link.toNat * 2 ^ 24 + field.toNat := by
  have narrow : condition.toField.toNat < 16 := by cases condition <;> decide
  have high : (condition.toField <<< 28).toNat = condition.toField.toNat * 2 ^ 28 :=
    Word.toNat_shiftLeft_of_fits (by decide) (by change _ * 2 ^ 28 < _; omega)
  have flag : (Word.ofFlag link 24).toNat = link.toNat * 2 ^ 24 :=
    Word.toNat_ofFlag link (by decide)
  have bit := link.toNat_le
  have bound := field.isLt
  have low : (UInt32.ofNat field.toNat).toNat = field.toNat :=
    UInt32.toNat_ofNat_of_lt' (Nat.lt_trans bound (by decide))
  rw [Word.ofBranch, UInt32.toNat_add, UInt32.toNat_add, UInt32.toNat_add, high, flag, low]
  simp only [UInt32.reduceToNat]
  omega

theorem condition_ofBranch :
    Condition.ofField (Word.ofBranch condition link field >>> 28) = condition := by
  have number := toNat_ofBranch condition link field
  have bit := link.toNat_le
  have bound := field.isLt
  have narrow : condition.toField.toNat < 16 := by cases condition <;> decide
  have high : Word.ofBranch condition link field >>> 28 = condition.toField := by
    rw [← UInt32.toNat_inj, UInt32.toNat_shiftRight, number]
    refine (Nat.shiftRight_eq_div_pow _ 28).trans ?_
    omega
  rw [high, Condition.ofField_toField]

theorem decode_ofBranch : ∃ offset : Word,
    Instruction.decode (Word.ofBranch condition link field) = .branch link offset ∧
      (offset.toNat : Int) = 4 * field.toInt % 2 ^ 32 := by
  have number := toNat_ofBranch condition link field
  have bit := link.toNat_le
  have bound := field.isLt
  generalize Word.ofBranch condition link field = w at number
  have linked : w.bit 24 = link := Word.bit_of_toNat 24 (by decide) (by omega)
  have low : (w.field 0 24).toNat = field.toNat := by
    refine (w.toNat_field 0 24 (by decide)).trans ?_
    omega
  refine ⟨(w.field 0 24).signExtend 24 <<< 2, ?_, ?_⟩
  · rw [Instruction.decode_of_branch (by omega), Instruction.decodeBranch, linked]
  · rw [Word.toNat_signExtend_shiftLeft (by omega), low, BitVec.toInt_eq_toNat_cond]
    split <;> split <;> omega

theorem decode_callReturn : Instruction.decode .callReturn = .dataProcessing .callReturn := rfl

end Words

/-- Each word in reach of a branch is said by one field. -/
theorem existsUnique_branchTo {a target : Word} {d : Int} (aligned : a.toNat % 4 = 0)
    (whole : target.toNat % 4 = 0) (distance : (target.toNat : Int) = (a.toNat + d) % 2 ^ 32)
    (low : -2 ^ 25 + 8 ≤ d) (high : d ≤ 2 ^ 25 + 4) : ∃! field, BranchTo a field target := by
  obtain ⟨count, words⟩ : ∃ count, d - 8 = 4 * count := ⟨(d - 8) / 4, by omega⟩
  have number : (BitVec.ofInt 24 count).toInt = count :=
    BitVec.toInt_ofInt_eq_self (by decide) (by omega) (by omega)
  refine ⟨.ofInt 24 count, ?_, ?_⟩
  · unfold BranchTo
    dsimp only
    omega
  · intro field reaches
    have below := field.toInt_lt
    have above := field.le_toInt
    unfold BranchTo at reaches
    apply BitVec.eq_of_toInt_eq
    rw [number]
    omega

/-! ### Instructions -/

namespace Processor

theorem registers_branch (p : Processor) (link : Bool) (offset : Word) :
    (p.branch link offset).registers = Function.update
      (if link then Function.update p.registers (p.mode.sees .link) p.pc else p.registers) .pc
      (p.pc + lookAhead + offset) := by
  let linked := if link then p.withRegister .link p.pc else p
  have start : p.branch link offset =
      (linked.withPc (p.pc + lookAhead + offset)).spend (sequential + nonSequential) := by
    cases link <;> rfl
  have sees : linked.mode.sees .pc = .pc := Mode.sees_pc _
  rw [start, registers_spend, withPc, registers_withRegister, sees]
  congr 1
  cases link with
  | true => exact p.registers_withRegister .link p.pc
  | false => rfl

theorem dataProcessing_callReturn (p : Processor) :
    p.dataProcessing .callReturn =
      (p.spend 0).setRegister .pc (p.live.get RegisterNumber.link) := rfl

end Processor

/-! ### Steps -/

namespace Machine

open Processor (sequential lookAhead)

section Executing

variable {δ : Type} (m : Machine δ) (a : Word)

/-- The processor that executes what was fetched at `a`. -/
def executing : Processor :=
  { m.processor with cycles := sequential, stalled := false }.withPc (a + 4)

theorem pc_executing : (m.executing a).pc = a + 4 := Processor.pc_withPc _ _

theorem registers_executing :
    (m.executing a).registers = Function.update m.processor.registers .pc (a + 4) := by
  rw [executing, Processor.withPc, Processor.registers_withRegister, Mode.sees_pc]
  rfl

/-- R15 is written twice, and what it was in between is where the link register points. -/
theorem registers_executing_branch (link : Bool) (offset : Word) :
    ((m.executing a).branch link offset).registers = Function.update
      (if link then Function.update m.processor.registers (m.processor.mode.sees .link) (a + 4)
        else m.processor.registers) .pc (a + 4 + lookAhead + offset) := by
  have apart : PhysicalRegister.pc ≠ m.processor.mode.sees .link :=
    (m.processor.mode.sees_ne_pc (by decide)).symm
  have mode : (m.executing a).mode = m.processor.mode := rfl
  rw [Processor.registers_branch, pc_executing, registers_executing, mode]
  cases link with
  | true => rw [if_pos rfl, if_pos rfl, Function.update_comm apart, Function.update_idem]
  | false => rw [if_neg Bool.false_ne_true, if_neg Bool.false_ne_true, Function.update_idem]

end Executing

variable {δ : Type} {m n : Machine δ} {a : Word}

/-- No redirect waits for what the processor has in its registers. -/
def Undirected (m : Machine δ) : Prop :=
  ∀ redirects, m.redirects = some redirects → (redirects.apply m.processor.live).1 = false

theorem redirect_of_undirected (undirected : m.Undirected) : m.redirect = m := by
  obtain ⟨p, space, calls, redirects⟩ := m
  cases redirects with
  | none => rfl
  | some list =>
    have unfired : (list.apply p.live).1 = false := undirected list rfl
    have still : list.apply p.live = (false, list, p.live) := by
      unfold RedirectList.apply at unfired ⊢
      cases fired : RedirectList.fire p.live list.entries with
      | none => rfl
      | some found =>
        rw [fired] at unfired
        cases unfired
    unfold redirect
    dsimp only
    rw [still]

variable [ExpansionDevice δ]

/-- The machine behind a fetch that no redirect turned away. -/
def onward (m : Machine δ) : Machine δ :=
  let address := wordAddress m.processor.pc
  { m with
    processor := m.executing address
    space := (m.space.readWord address).2 }

theorem ready_of_undirected (undirected : m.Undirected) :
    m.ready = ((m.space.readWord (wordAddress m.processor.pc)).1, m.onward) := by
  let started := m.mapProcessor fun p => { p with cycles := sequential, stalled := false }
  have same : started.redirect = started := redirect_of_undirected undirected
  change started.redirect.fetch = _
  rw [same]
  rfl

/-- No FIQ is entered behind the instruction. -/
def Uninterrupted (m : Machine δ) : Prop :=
  m.finished.processor.status.fiqDisabled = true ∨ m.finished.asksFiq = false

theorem step_of_uninterrupted (uninterrupted : m.Uninterrupted) :
    m.step = m.finished.skipIfStalled := by
  obtain masked | quiet := uninterrupted
  · exact step_of_masked masked
  · exact step_of_quiet quiet

section Fetched

variable {i : Instruction} (undirected : m.Undirected)
  (passes : (Condition.ofField ((m.space.readWord (wordAddress m.processor.pc)).1 >>> 28)).passes
    m.processor.status.flags = true)
  (decoded : Instruction.decode (m.space.readWord (wordAddress m.processor.pc)).1 = i)

include undirected passes decoded

theorem finished_of_decode : m.finished = m.onward.execute i := by
  have flags : m.onward.processor.status.flags = m.processor.status.flags := rfl
  rw [finished, ready_of_undirected undirected]
  dsimp only [executeWord]
  rw [flags, if_pos passes, decoded]

theorem step_of_decode (uninterrupted : m.Uninterrupted) :
    m.step = (m.onward.execute i).skipIfStalled := by
  rw [step_of_uninterrupted uninterrupted, finished_of_decode undirected passes decoded]

theorem uninterrupted_of_masked
    (masked : (m.onward.execute i).processor.status.fiqDisabled = true) : m.Uninterrupted :=
  .inl (finished_of_decode undirected passes decoded ▸ masked)

end Fetched

/-- A fetch from memory changes nothing. -/
theorem readWord_of_memory {s : AddressSpace δ}
    (inMemory : Region.ram.Holds a ∨ Region.rom.Holds a) : (s.readWord a).2 = s := by
  unfold AddressSpace.readWord
  cases located : Location.ofAddress a with
  | ram inRam => rfl
  | window w =>
    obtain holds | holds := inMemory <;>
      have found := Region.region?_eq_some_iff.2 holds <;>
      rw [located] at found
    · cases w <;> cases found
    · cases w <;> cases found
      rfl

theorem onward_of_memory (here : wordAddress m.processor.pc = a)
    (inMemory : Region.ram.Holds a ∨ Region.rom.Holds a) :
    m.onward = { m with processor := m.executing a } := by
  rw [onward, here, readWord_of_memory inMemory]

/-! ### Branches and returns -/

/-- Between `m`, which is about to execute a branch at `a`, and `n` it has been executed. -/
structure Branched (m : Machine δ) (a : Word) (link : Bool) (field : BitVec 24)
    (n : Machine δ) : Prop where
  target : BranchTo a field n.processor.pc
  linked : link = true → n.processor.live.get RegisterNumber.link = a + 4
  /-- Of the registers of all modes no others have changed. -/
  registers : n.processor.registers = Function.update
    (if link then Function.update m.processor.registers (m.processor.mode.sees .link) (a + 4)
      else m.processor.registers) .pc n.processor.pc
  status : n.processor.status = m.processor.status
  mode : n.processor.mode = m.processor.mode
  saved : n.processor.bank.saved = m.processor.bank.saved
  fiqLine : n.processor.fiqLine = m.processor.fiqLine
  memoryAbort : n.processor.memoryAbort = m.processor.memoryAbort
  rest : n = { m with processor := n.processor }

omit [ExpansionDevice δ] in
theorem branched_of_step {link : Bool} {field : BitVec 24} {offset : Word}
    (distance : (offset.toNat : Int) = 4 * field.toInt % 2 ^ 32)
    (stepped : n = { m with processor := (m.executing a).branch link offset }) :
    m.Branched a link field n := by
  have registers : n.processor.registers = Function.update
      (if link then Function.update m.processor.registers (m.processor.mode.sees .link) (a + 4)
        else m.processor.registers) .pc (a + 4 + lookAhead + offset) := by
    rw [stepped]
    exact m.registers_executing_branch a link offset
  have target : n.processor.pc = a + 4 + lookAhead + offset := by
    rw [← Processor.registers_pc, registers, Function.update_self]
  have mode : n.processor.mode = m.processor.mode := by rw [stepped]; rfl
  refine ⟨?_, ?_, target ▸ registers, ?_, mode, ?_, ?_, ?_, ?_⟩
  · have ahead : lookAhead.toNat = 4 := rfl
    have behind : (4 : Word).toNat = 4 := rfl
    rw [BranchTo, target, UInt32.toNat_add, UInt32.toNat_add, UInt32.toNat_add, ahead, behind]
    omega
  · rintro rfl
    have apart : m.processor.mode.sees .link ≠ PhysicalRegister.pc :=
      m.processor.mode.sees_ne_pc (by decide)
    rw [← Processor.registers_sees, mode, registers, Function.update_of_ne apart, if_pos rfl,
      Function.update_self]
  all_goals rw [stepped] <;> rfl

theorem branched_step {condition : Condition} {link : Bool} {field : BitVec 24}
    (here : wordAddress m.processor.pc = a) (inMemory : Region.ram.Holds a ∨ Region.rom.Holds a)
    (fetched : (m.space.readWord a).1 = .ofBranch condition link field)
    (passes : condition.passes m.processor.status.flags = true) (undirected : m.Undirected)
    (uninterrupted : m.Uninterrupted) : m.Branched a link field m.step := by
  obtain ⟨offset, decoded, distance⟩ := decode_ofBranch condition link field
  subst here
  apply branched_of_step distance
  rw [← fetched] at decoded
  rw [← condition_ofBranch condition link field, ← fetched] at passes
  rw [step_of_decode undirected passes decoded uninterrupted, onward_of_memory rfl inMemory]
  rfl

/-- Between `m`, which is about to execute a return, and `n` it has been executed. -/
structure Returned (m n : Machine δ) : Prop where
  pc : n.processor.pc = m.processor.live.get RegisterNumber.link
  registers : n.processor.registers = Function.update m.processor.registers .pc n.processor.pc
  status : n.processor.status = m.processor.status

/-- A return may lie anywhere. -/
theorem returned_step
    (fetched : (m.space.readWord (wordAddress m.processor.pc)).1 = .callReturn)
    (undirected : m.Undirected) (uninterrupted : m.Uninterrupted) : m.Returned m.step := by
  have always : Condition.al.passes m.processor.status.flags = true := Condition.passes_flags ..
  have passes : (Condition.ofField
      ((m.space.readWord (wordAddress m.processor.pc)).1 >>> 28)).passes
        m.processor.status.flags = true := by rwa [fetched]
  have decoded : Instruction.decode (m.space.readWord (wordAddress m.processor.pc)).1 =
      .dataProcessing .callReturn := by rw [fetched, decode_callReturn]
  let executing := m.executing (wordAddress m.processor.pc)
  have stepped : m.step.processor =
      (executing.spend 0).setRegister .pc (m.processor.live.get RegisterNumber.link) := by
    have link : executing.live.get RegisterNumber.link =
        m.processor.live.get RegisterNumber.link :=
      Vector.getElem_set_ne RegisterNumber.pc.bound _ (by decide)
    rw [step_of_decode undirected passes decoded uninterrupted, ← link,
      ← Processor.dataProcessing_callReturn]
    rfl
  have registers : m.step.processor.registers = Function.update m.processor.registers .pc
      (m.processor.live.get RegisterNumber.link) := by
    rw [stepped, Processor.registers_setRegister, Mode.sees_pc, Processor.registers_spend,
      registers_executing, Function.update_idem]
  have pc : m.step.processor.pc = m.processor.live.get RegisterNumber.link := by
    rw [← Processor.registers_pc, registers, Function.update_self]
  refine ⟨pc, pc ▸ registers, ?_⟩
  rw [stepped]
  rfl

/-- A branch in memory leads where its field says. One field says each address in reach, and a
call comes back from a return. -/
theorem branch_step {condition : Condition} {link : Bool} {field : BitVec 24}
    (here : wordAddress m.processor.pc = a) (inMemory : Region.ram.Holds a ∨ Region.rom.Holds a)
    (fetched : (m.space.readWord a).1 = .ofBranch condition link field)
    (passes : condition.passes m.processor.status.flags = true) (undirected : m.Undirected)
    (uninterrupted : m.Uninterrupted) :
    m.Branched a link field m.step ∧
    (∀ (target : Word) (d : Int), target.toNat % 4 = 0 →
      (target.toNat : Int) = (a.toNat + d) % 2 ^ 32 → -2 ^ 25 + 8 ≤ d → d ≤ 2 ^ 25 + 4 →
        ∃! field, BranchTo a field target) ∧
    (link = true → (m.step.space.readWord (wordAddress m.step.processor.pc)).1 = .callReturn →
      m.step.Undirected → m.step.Uninterrupted →
        m.step.Returned m.step.step ∧ m.step.step.processor.pc = a + 4) := by
  have branched := branched_step here inMemory fetched passes undirected uninterrupted
  refine ⟨branched, ?_, ?_⟩
  · intro target d whole distance low high
    have aligned : a.toNat % 4 = 0 := by
      rw [← here, toNat_wordAddress]
      omega
    exact existsUnique_branchTo aligned whole distance low high
  · intro linked fetched undirected uninterrupted
    have returned := returned_step fetched undirected uninterrupted
    exact ⟨returned, returned.pc.trans (branched.linked linked)⟩

/-- At 16 a call of what lies at 0, which is a return. -/
def subroutine : Machine ScriptedDevice where
  processor := Processor.initial.withPc 16
  space :=
    { memory := (GuestMemory.empty.writeWord ⟨0, by decide⟩ .callReturn).writeWord ⟨16, by decide⟩
        (.ofBranch .al true (-6))
      io := .initial }
  calls := none
  redirects := none

theorem branch_step_subroutine :
    subroutine.step.processor.pc = 0 ∧ subroutine.step.step.processor.pc = 20 ∧
      ∃! field, BranchTo 16 field 0xFFFFFFF0 := by
  have fetched : (subroutine.space.readWord 16).1 = .ofBranch .al true (-6) := by
    rw [AddressSpace.readWord_of_lt (by decide)]
    exact GuestMemory.readWord_writeWord _ rfl _
  have called : (subroutine.space.readWord 0).1 = .callReturn := by
    rw [AddressSpace.readWord_of_lt (by decide)]
    refine ((GuestMemory.framed_writeWord _ _ _).readWord ?_).trans
      (GuestMemory.readWord_writeWord _ rfl _)
    intro b low high
    exact absurd (low.symm.trans high) (by decide)
  have here : wordAddress subroutine.processor.pc = 16 := rfl
  have passes : Condition.al.passes subroutine.processor.status.flags = true := by decide
  have undirected : subroutine.Undirected := fun _ found => nomatch found
  have uninterrupted : subroutine.Uninterrupted := by
    obtain ⟨offset, decoded, -⟩ := decode_ofBranch .al true (-6)
    rw [← fetched] at decoded
    have masked : subroutine.processor.status.fiqDisabled = true := rfl
    refine uninterrupted_of_masked undirected ?_ decoded masked
    rwa [here, fetched, condition_ofBranch]
  obtain ⟨branched, reach, back⟩ :=
    branch_step here (.inl (by decide)) fetched passes undirected uninterrupted
  have target : subroutine.step.processor.pc = 0 := by
    have number : (subroutine.step.processor.pc.toNat : Int) = 0 := branched.target
    rw [← UInt32.toNat_inj]
    exact Int.natCast_inj.1 number
  have space : subroutine.step.space = subroutine.space := by rw [branched.rest]
  have redirects : subroutine.step.redirects = none := by rw [branched.rest]; rfl
  have fetched : (subroutine.step.space.readWord (wordAddress subroutine.step.processor.pc)).1 =
      .callReturn := by
    rw [space, target]
    exact called
  have undirected : subroutine.step.Undirected := by
    intro list found
    rw [redirects] at found
    cases found
  have uninterrupted : subroutine.step.Uninterrupted := by
    have decoded : Instruction.decode _ = _ := (congrArg _ fetched).trans decode_callReturn
    refine uninterrupted_of_masked undirected ?_ decoded ?_
    · rw [fetched, branched.status]
      rfl
    · change subroutine.step.processor.status.fiqDisabled = true
      rw [branched.status]
      rfl
  exact ⟨target, (back rfl fetched undirected uninterrupted).2,
    reach 0xFFFFFFF0 (-32) (by decide) (by decide) (by decide) (by decide)⟩

end Machine

end ArmConsole
