import ArmConsole.Instruction.Assembly
import ArmConsole.Instruction.Decode
import ArmConsole.Proofs.Arithmetic.Shift

/-!
Shifts in assembly text. A shifted register is written as the register and its shift, which can be
read in one way only. Main statement: the second operand of a data processing instruction is written
as the shift that is carried out. The offset of a single transfer is too, unless its amount field is
0 and the shift is none to the left: the field is then written as it stands, and the text says that
the register is not shifted.
-/

namespace ArmConsole

/-! ### Names -/

/-- A number can be read back from its digits. -/
theorem decimal_injective {m n : Nat} (same : m.repr = n.repr) : m = n := by
  have digits := congrArg String.toList same
  rw [Nat.toList_repr, Nat.toList_repr] at digits
  have read := congrArg (Nat.ofDigitChars 10 · 0) digits
  simp only [Nat.ofDigitChars_ten_toDigits] at read
  exact read

theorem RegisterNumber.text_eq (r : RegisterNumber) : RegisterNumber.text r = "R" ++ r.val.repr :=
  rfl

theorem RegisterNumber.text_injective {r s : RegisterNumber}
    (same : RegisterNumber.text r = RegisterNumber.text s) : r = s := by
  rw [text_eq, text_eq, String.append_right_inj] at same
  exact Fin.ext (decimal_injective same)

/-- All mnemonics have the same length. -/
theorem ShiftKind.mnemonic_append_inj {a b : ShiftKind} {x y : String}
    (same : a.mnemonic ++ x = b.mnemonic ++ y) : a = b ∧ x = y := by
  have length (kind : ShiftKind) : kind.mnemonic.toList.length = 3 := by cases kind <;> rfl
  have letters := congrArg String.toList same
  rw [String.toList_append, String.toList_append] at letters
  obtain ⟨name, rest⟩ := List.append_inj letters ((length a).trans (length b).symm)
  refine ⟨?_, String.toList_inj.1 rest⟩
  revert name
  cases a <;> cases b <;> decide

/-! ### The language of shifts -/

/-- What is written behind a register about its shift. -/
inductive WrittenShift where
  | unshifted
  | throughCarry
  | places (kind : ShiftKind) (n : Nat)
  | register (kind : ShiftKind) (rs : RegisterNumber)
  deriving DecidableEq

namespace WrittenShift

def text : WrittenShift → String
  | unshifted => ""
  | throughCarry => ", RRX"
  | places kind n => ", " ++ (kind.mnemonic ++ (" #" ++ n.repr))
  | register kind rs => ", " ++ (kind.mnemonic ++ (" " ++ rs.text))

/-- What a shift that is written makes of a word: a rotation of 33 bits, a shift by exactly as many
places as are written, or one by the low byte of a register. -/
def value (values : RegisterNumber → Word) (carry : Bool) (w : Word) : WrittenShift → Word
  | unshifted => w
  | throughCarry => .ofBitVec (((ShiftKind.withCarryBit ⟨w, carry⟩).rotateRight 1).setWidth 32)
  | places kind n => (kind.step^[n] ⟨w, carry⟩).value
  | register kind rs => (kind.step^[(values rs).toNat % 256] ⟨w, carry⟩).value

theorem empty_ne_comma (x : String) : "" ≠ ", " ++ x := by
  intro same
  simpa using congrArg String.toList same

theorem rotation_ne_kind (kind : ShiftKind) (x : String) :
    ", RRX" ≠ ", " ++ (kind.mnemonic ++ x) := by
  intro same
  have letters := congrArg String.toList same
  cases kind <;> simp [ShiftKind.mnemonic] at letters

theorem count_ne_register (n : Nat) (rs : RegisterNumber) : " #" ++ n.repr ≠ " " ++ rs.text := by
  intro same
  have letters := congrArg String.toList same
  simp [RegisterNumber.text_eq] at letters

/-- Behind the comma there is the kind of the shift, and then a count or a register. -/
theorem text_injective {a b : WrittenShift} (same : a.text = b.text) : a = b := by
  have behind {k k' : ShiftKind} {x y : String}
      (same : ", " ++ (k.mnemonic ++ x) = ", " ++ (k'.mnemonic ++ y)) : k = k' ∧ x = y :=
    ShiftKind.mnemonic_append_inj ((String.append_right_inj _).1 same)
  match a, b, same with
  | unshifted, unshifted, _ | throughCarry, throughCarry, _ => rfl
  | places k n, places k' n', same =>
    obtain ⟨rfl, count⟩ := behind same
    rw [decimal_injective ((String.append_right_inj _).1 count)]
  | register k rs, register k' rs', same =>
    obtain ⟨rfl, name⟩ := behind same
    rw [RegisterNumber.text_injective ((String.append_right_inj _).1 name)]
  | places k n, register k' rs, same => exact absurd (behind same).2 (count_ne_register n rs)
  | register k rs, places k' n, same => exact absurd (behind same).2.symm (count_ne_register n rs)
  | throughCarry, places .., same | throughCarry, register .., same =>
    exact absurd same (rotation_ne_kind _ _)
  | places .., throughCarry, same | register .., throughCarry, same =>
    exact absurd same.symm (rotation_ne_kind _ _)
  | unshifted, places .., same | unshifted, register .., same =>
    exact absurd same (empty_ne_comma _)
  | places .., unshifted, same | register .., unshifted, same =>
    exact absurd same.symm (empty_ne_comma _)
  | unshifted, throughCarry, same | throughCarry, unshifted, same =>
    exact absurd same (by decide)

/-- The shift that an amount field stands for. -/
def ofField (kind : ShiftKind) (amount : Word) : WrittenShift :=
  match kind.fieldPlaces amount with
  | some 0 => unshifted
  | some n => places kind n
  | none => throughCarry

theorem ofField_of_ne_zero (kind : ShiftKind) {amount : Word} (nonzero : amount ≠ 0) :
    ofField kind amount = places kind amount.toNat := by
  have count : amount.toNat ≠ 0 := fun zero => nonzero (UInt32.toNat_inj.1 zero)
  have field : kind.fieldPlaces amount = some amount.toNat := if_neg nonzero
  obtain ⟨n, succ⟩ := Nat.exists_eq_succ_of_ne_zero count
  unfold ofField
  rw [field, succ]
  rfl

theorem value_ofField (kind : ShiftKind) (amount : Word) (values : RegisterNumber → Word)
    (carry : Bool) (w : Word) :
    (ofField kind amount).value values carry w = (kind.applyField amount w carry).value := by
  unfold ofField
  cases places : kind.fieldPlaces amount with
  | none =>
    obtain ⟨rfl, rfl⟩ := ShiftKind.eq_ror_of_fieldPlaces_none places
    change UInt32.ofBitVec (((ShiftKind.withCarryBit ⟨w, carry⟩).rotateRight 1).setWidth 32) =
      (ShiftKind.rotateThroughCarry w carry).value
    rw [← ShiftKind.rotateThroughCarry_eq, ShiftKind.withCarryBit, BitVec.setWidth_cons]
  | some n =>
    rw [ShiftKind.applyField_eq_iterate places]
    cases n <;> rfl

end WrittenShift

/-- A register as assembly text has it, with its shift. -/
structure WrittenOperand where
  rm : RegisterNumber
  shift : WrittenShift
  deriving DecidableEq

namespace WrittenOperand

def text (o : WrittenOperand) : String := o.rm.text ++ o.shift.text

def value (values : RegisterNumber → Word) (carry : Bool) (o : WrittenOperand) : Word :=
  o.shift.value values carry (values o.rm)

theorem text_places (rm : RegisterNumber) (kind : ShiftKind) (n : Nat) :
    (mk rm (.places kind n)).text = rm.text ++ ", " ++ kind.mnemonic ++ " #" ++ n.repr := by
  simp only [text, WrittenShift.text, String.append_assoc]

theorem text_register (rm : RegisterNumber) (kind : ShiftKind) (rs : RegisterNumber) :
    (mk rm (.register kind rs)).text = rm.text ++ ", " ++ kind.mnemonic ++ " " ++ rs.text := by
  simp only [text, WrittenShift.text, String.append_assoc]

/-- The name of the register ends at the comma. -/
theorem text_injective {a b : WrittenOperand} (same : a.text = b.text) : a = b := by
  have name (r : RegisterNumber) : ∀ c ∈ r.text.toList, (c != ',') = true := by
    intro c among
    rw [r.text_eq, String.toList_append, Nat.toList_repr, List.mem_append] at among
    rw [bne_iff_ne]
    rintro rfl
    obtain letter | digit := among
    · exact absurd letter (by decide)
    · exact absurd (Nat.isDigit_of_mem_toDigits (by decide) (by decide) digit) (by decide)
  have front (o : WrittenOperand) : o.text.toList.takeWhile (· != ',') = o.rm.text.toList := by
    have behind : o.shift.text.toList.takeWhile (· != ',') = [] := by
      cases o.shift <;> simp [WrittenShift.text]
    rw [text, String.toList_append, List.takeWhile_append_of_pos (name o.rm), behind,
      List.append_nil]
  have fronts : a.rm.text.toList = b.rm.text.toList := by rw [← front, ← front, same]
  obtain ⟨rm, shift⟩ := a
  obtain ⟨rm', shift'⟩ := b
  obtain rfl : rm = rm' := RegisterNumber.text_injective (String.toList_inj.1 fronts)
  exact congrArg (mk rm) (WrittenShift.text_injective ((String.append_right_inj _).1 same))

end WrittenOperand

/-- A text is one of a shifted register, and whatever it is read as has that value. -/
def Denotes (text : String) (values : RegisterNumber → Word) (carry : Bool) (v : Word) : Prop :=
  (∃ o : WrittenOperand, o.text = text) ∧
    ∀ o : WrittenOperand, o.text = text → o.value values carry = v

theorem WrittenOperand.denotes_iff (o : WrittenOperand) (values : RegisterNumber → Word)
    (carry : Bool) (v : Word) : Denotes o.text values carry v ↔ o.value values carry = v := by
  refine ⟨fun denotes => denotes.2 o rfl, fun same => ⟨⟨o, rfl⟩, fun other written => ?_⟩⟩
  rw [text_injective written, same]

/-! ### Operands of instructions -/

namespace SecondOperand

theorem text_field (rm : RegisterNumber) (kind : ShiftKind) (amount : Word) :
    text (.register rm kind (.field amount)) =
      (WrittenOperand.mk rm (.ofField kind amount)).text := by
  by_cases zero : amount = 0
  · subst zero
    cases kind with
    | lsl => exact (String.append_empty (s := rm.text)).symm
    | lsr => exact ((WrittenOperand.text_places rm .lsr 32).trans String.append_assoc).symm
    | asr => exact ((WrittenOperand.text_places rm .asr 32).trans String.append_assoc).symm
    | ror => rfl
  · rw [WrittenShift.ofField_of_ne_zero kind zero, WrittenOperand.text_places]
    exact if_neg zero

theorem text_byRegister (rm : RegisterNumber) (kind : ShiftKind) (rs : RegisterNumber) :
    text (.register rm kind (.register rs)) =
      (WrittenOperand.mk rm (.register kind rs)).text :=
  (WrittenOperand.text_register rm kind rs).symm

/-- A second operand is written as the shift that is carried out. -/
theorem denotes (p : Processor) (rm : RegisterNumber) (kind : ShiftKind) (amount : ShiftAmount) :
    let o := SecondOperand.register rm kind amount
    Denotes o.text (fun r => p.operand r (Processor.lookAheadWith o)) p.status.carry
      (p.secondOperand o).value := by
  cases amount with
  | field amount =>
    dsimp only
    rw [text_field, WrittenOperand.denotes_iff]
    exact WrittenShift.value_ofField ..
  | register rs =>
    dsimp only
    have low : (p.operand rs Processor.lookFurtherAhead &&& 0xFF).toNat =
        (p.operand rs Processor.lookFurtherAhead).toNat % 256 := Word.toNat_and_mask _ (k := 8) rfl
    have shifted := kind.apply_eq_iterate (p.operand rs Processor.lookFurtherAhead &&& 0xFF)
      (p.operand rm Processor.lookFurtherAhead) p.status.carry
    rw [low] at shifted
    rw [text_byRegister, WrittenOperand.denotes_iff]
    exact (congrArg Shifted.value shifted).symm

end SecondOperand

namespace TransferOffset

/-- A shifted offset without its sign. The amount field is written as it stands. -/
def written (rm : RegisterNumber) (kind : ShiftKind) (amount : Word) : WrittenOperand :=
  ⟨rm, if kind = .lsl ∧ amount = 0 then .unshifted else .places kind amount.toNat⟩

theorem text_register (sign : String) (rm : RegisterNumber) (kind : ShiftKind) (amount : Word) :
    text sign (.register rm kind amount) = sign ++ (written rm kind amount).text := by
  unfold written
  by_cases plain : kind = .lsl ∧ amount = 0
  · have name : (WrittenOperand.mk rm .unshifted).text = rm.text := String.append_empty
    rw [if_pos plain, name]
    exact if_pos plain
  · rw [if_neg plain, WrittenOperand.text_places]
    simp only [← String.append_assoc]
    exact if_neg plain

theorem denotes_iff (p : Processor) (rm : RegisterNumber) (kind : ShiftKind) (amount : Word) :
    let o := TransferOffset.register rm kind amount
    Denotes (written rm kind amount).text (fun r => p.operand r Processor.lookAhead) p.status.carry
        (p.transferOffset o) ↔
      kind = .lsl ∨ amount ≠ 0 ∨ p.transferOffset o = p.operand rm Processor.lookAhead := by
  intro o
  rw [WrittenOperand.denotes_iff]
  by_cases zero : amount = 0
  · subst zero
    have plain : (written rm kind 0).value (fun r => p.operand r Processor.lookAhead)
        p.status.carry = p.operand rm Processor.lookAhead := by
      unfold written
      split <;> rfl
    rw [plain]
    constructor
    · exact fun same => .inr (.inr same.symm)
    · rintro (rfl | nonzero | same)
      · rfl
      · exact absurd rfl nonzero
      · exact same.symm
  · refine iff_of_true ?_ (.inr (.inl zero))
    have shift : written rm kind amount = ⟨rm, .places kind amount.toNat⟩ := by
      rw [written, if_neg fun plain => zero plain.2]
    rw [shift]
    exact congrArg Shifted.value (ShiftKind.applyField_eq_iterate (if_neg zero) _ _).symm

end TransferOffset

/-! ### Instructions -/

namespace Instruction

theorem dataProcessingText_eq (i : DataProcessing) (c : String) :
    ∃ front, dataProcessingText i c = front ++ ", " ++ i.operand.text := by
  unfold dataProcessingText
  dsimp only
  split
  · exact ⟨_, rfl⟩
  · split <;> exact ⟨_, rfl⟩

/-- What is written behind the offset of a single transfer. -/
def afterOffset (i : SingleTransfer) : String :=
  match i.indexing with
  | .pre => "]" ++ textIf i.writeBack "!"
  | .post => ""

theorem singleTransferText_eq (i : SingleTransfer) (c : String) :
    ∃ front, singleTransferText i c =
      front ++ ", " ++ i.offset.text (textIf (i.direction == .down) "-") ++ afterOffset i := by
  have closed (base offset : String) :
      base ++ "], " ++ offset = base ++ "]" ++ ", " ++ offset ++ "" := by
    have bracket : base ++ "]" ++ ", " = base ++ "], " := String.append_assoc
    rw [String.append_empty, bracket]
  unfold singleTransferText afterOffset
  cases i.indexing with
  | pre => exact ⟨_, String.append_assoc⟩
  | post => exact ⟨_, closed _ _⟩

end Instruction

/-- The shift that the text of an instruction word names is the one that is carried out, except
behind the base of a single transfer where the amount field is 0 and the kind is not LSL: there the
text says that nothing is shifted. Written as in data processing, the offset would be named. -/
theorem Opcode.text_denotes (w : Word) (p : Processor) :
    (∀ i rm kind amount, Instruction.decode w = .dataProcessing i →
      i.operand = .register rm kind amount →
      (∃ front, (decode w).text = front ++ ", " ++ i.operand.text) ∧
        Denotes i.operand.text (fun r => p.operand r (Processor.lookAheadWith i.operand))
          p.status.carry (p.secondOperand i.operand).value) ∧
    ∀ i rm kind amount, Instruction.decode w = .singleTransfer i →
      i.offset = .register rm kind amount →
      let sign := textIf (i.direction == .down) "-"
      let values r := p.operand r Processor.lookAhead
      (∃ front, (decode w).text =
        front ++ ", " ++ sign ++ i.offset.text "" ++ Instruction.afterOffset i) ∧
      (Denotes (i.offset.text "") values p.status.carry (p.transferOffset i.offset) ↔
        kind = .lsl ∨ amount ≠ 0 ∨ p.transferOffset i.offset = values rm) ∧
      Denotes (SecondOperand.register rm kind (.field amount)).text values p.status.carry
        (p.transferOffset i.offset) := by
  have decoded_text {i} (decoded : Instruction.decode w = i) :
      (decode w).text = i.text (decode w).condition := by
    rw [← decoded]
    rfl
  refine ⟨?data, ?transfer⟩
  case data =>
    intro i rm kind amount decoded operand
    refine ⟨?_, operand ▸ SecondOperand.denotes p rm kind amount⟩
    rw [decoded_text decoded]
    exact Instruction.dataProcessingText_eq i _
  case transfer =>
    intro i rm kind amount decoded offset sign values
    have unsigned : i.offset.text "" = (TransferOffset.written rm kind amount).text := by
      rw [offset, TransferOffset.text_register, String.empty_append]
    refine ⟨?text, ?own, ?sibling⟩
    case text =>
      obtain ⟨front, text⟩ := Instruction.singleTransferText_eq i (decode w).condition.suffix
      have signed : front ++ ", " ++ sign ++ i.offset.text "" =
          front ++ ", " ++ i.offset.text sign := by
        rw [unsigned, offset, TransferOffset.text_register, String.append_assoc]
      refine ⟨front, ?_⟩
      rw [decoded_text decoded, signed]
      exact text
    case own =>
      rw [unsigned, offset]
      exact TransferOffset.denotes_iff p rm kind amount
    case sibling =>
      rw [offset]
      exact SecondOperand.denotes p rm kind (.field amount)

/-- `MOV R0, R2, LSR #32` and `LDR R0, [R1, -R2, LSL #2]`. -/
theorem Opcode.text_denotes_shifted :
    let p := Processor.initial.withRegister 2 1
    let values r := p.operand r Processor.lookAhead
    (∃ front, (decode 0xE1A00022).text = front ++ ", " ++ "R2, LSR #32") ∧
      Denotes "R2, LSR #32" values p.status.carry 0 ∧
      (∃ front, (decode 0xE7110102).text = front ++ ", " ++ "-" ++ "R2, LSL #2" ++ "]") ∧
      Denotes "R2, LSL #2" values p.status.carry 4 := by
  intro p values
  obtain ⟨data, move⟩ := (Opcode.text_denotes 0xE1A00022 p).1 _ 2 .lsr (.field 0) rfl rfl
  obtain ⟨transfer, -, load⟩ := (Opcode.text_denotes 0xE7110102 p).2 _ 2 .lsl 2 rfl rfl
  exact ⟨data, move, transfer, load⟩

/-- `LDR R0, [R1, R2, LSR #32]` is written as if R2 were not shifted. -/
theorem Opcode.text_denotes_unless_transfer :
    (decode 0xE7910022).text = "LDR R0, [R1, R2, LSR #0]" ∧
    ¬∀ (w : Word) (p : Processor),
      (∀ i rm kind amount, Instruction.decode w = .dataProcessing i →
        i.operand = .register rm kind amount →
        Denotes i.operand.text (fun r => p.operand r (Processor.lookAheadWith i.operand))
          p.status.carry (p.secondOperand i.operand).value) ∧
      ∀ i rm kind amount, Instruction.decode w = .singleTransfer i →
        i.offset = .register rm kind amount →
        Denotes (i.offset.text "") (fun r => p.operand r Processor.lookAhead) p.status.carry
          (p.transferOffset i.offset) := by
  refine ⟨by decide +kernel, fun denotes => ?_⟩
  have named := (denotes 0xE7910022 (Processor.initial.withRegister 2 1)).2 _ 2 .lsr 0 rfl rfl
  exact absurd (named.2 ⟨2, .places .lsr 0⟩ rfl) (by decide)

end ArmConsole
