import ArmConsole.Proofs.Instruction.Fields

/-!
Decoding after encoding. The classes of instructions share patterns and are told apart by tests in
a fixed order, so for each class it is shown that no earlier test claims the words of its
well-formed members. Main statement: an instruction is what its word decodes to exactly if it is
well-formed, behind every condition, and every word decodes to a well-formed instruction.
-/

namespace ArmConsole

open Word

/-! ### Codes -/

theorem AluOperation.toNat_toField_lt (op : AluOperation) : op.toField.toNat < 16 := by
  cases op <;> decide

theorem AluOperation.toField_ofField {w : Word} (narrow : w.toNat < 16) :
    (ofField w).toField = w := by
  have codes : ∀ n < 16, (ofField (.ofNat n)).toField = .ofNat n := by decide
  have same : w = .ofNat w.toNat := UInt32.toNat_inj.1 (toNat_ofNat (by omega)).symm
  rw [same]
  exact codes _ narrow

/-- The tests and comparisons have the codes 8 to 11. -/
theorem AluOperation.writesResult_iff (op : AluOperation) :
    op.writesResult = true ↔ op.toField.toNat / 4 ≠ 2 := by
  cases op <;> decide

theorem ShiftKind.toNat_toField_lt (kind : ShiftKind) : kind.toField.toNat < 4 := by
  cases kind <;> decide

theorem Condition.toNat_toField_lt (c : Condition) : c.toField.toNat < 16 := by
  cases c <;> decide

/-! ### Flags with a name -/

@[simp] theorem Width.ite_eq_byte (width : Width) :
    (if width == .byte then .byte else .word) = width := by cases width <;> rfl

@[simp] theorem Indexing.ite_eq_pre (indexing : Indexing) :
    (if indexing == .pre then .pre else .post) = indexing := by cases indexing <;> rfl

@[simp] theorem Direction.ite_eq_up (direction : Direction) :
    (if direction == .up then .up else .down) = direction := by cases direction <;> rfl

@[simp] theorem StatusRegister.ite_eq_saved (target : StatusRegister) :
    (if target == .saved then .saved else .current) = target := by cases target <;> rfl

/-! ### Operands -/

namespace SecondOperand

theorem toNat_encode_immediate {base rotation : Word}
    (wellFormed : (immediate base rotation).WellFormed) :
    (immediate base rotation).encode.toNat = 2 ^ 25 + rotation.toNat / 2 * 2 ^ 8 + base.toNat := by
  obtain ⟨narrow, few, -⟩ := wellFormed
  simp only [UInt32.lt_iff_toNat_lt, UInt32.le_iff_toNat_le, UInt32.reduceToNat] at narrow few
  simp (disch := decide) only [encode, UInt32.toNat_add, toNat_ofFlag, UInt32.toNat_shiftLeft,
    Nat.reduceMod, UInt32.toNat_div, Nat.shiftLeft_eq, UInt32.reduceToNat, Bool.toNat_true]
  omega

theorem toNat_encode_field (rm : RegisterNumber) (kind : ShiftKind) {amount : Word}
    (wellFormed : (register rm kind (.field amount)).WellFormed) :
    (register rm kind (.field amount)).encode.toNat =
      amount.toNat * 2 ^ 7 + kind.toField.toNat * 2 ^ 5 + rm.val := by
  have code := kind.toNat_toField_lt
  have few : amount < 32 := wellFormed
  simp only [UInt32.lt_iff_toNat_lt, UInt32.reduceToNat] at few
  simp (disch := decide) only [encode, UInt32.toNat_add, toNat_ofRegister, UInt32.toNat_shiftLeft,
    Nat.reduceMod, Nat.shiftLeft_eq, UInt32.reduceToNat]
  omega

theorem toNat_encode_register (rm : RegisterNumber) (kind : ShiftKind) (rs : RegisterNumber) :
    (register rm kind (.register rs)).encode.toNat =
      rs.val * 2 ^ 8 + kind.toField.toNat * 2 ^ 5 + 2 ^ 4 + rm.val := by
  have code := kind.toNat_toField_lt
  simp (disch := decide) only [encode, UInt32.toNat_add, toNat_ofFlag, toNat_ofRegister,
    UInt32.toNat_shiftLeft, Nat.reduceMod, Nat.shiftLeft_eq, UInt32.reduceToNat, Bool.toNat_true]
  omega

/-- An operand takes bit 25 and the lowest twelve bits. Of the bits that make a multiplication or
a swap of a word, a shift leaves one out. -/
theorem encode_cases {o : SecondOperand} (wellFormed : o.WellFormed) :
    ∃ flag rest, o.encode.toNat = flag * 2 ^ 25 + rest ∧ flag < 2 ∧ rest < 2 ^ 12 ∧
      (flag = 0 → rest / 2 ^ 4 % 2 ^ 4 ≠ 9) := by
  cases o with
  | immediate base rotation =>
    refine ⟨1, rotation.toNat / 2 * 2 ^ 8 + base.toNat, ?_, by decide, ?_, nofun⟩
    · rw [toNat_encode_immediate wellFormed]
      omega
    · obtain ⟨narrow, few, -⟩ := wellFormed
      simp only [UInt32.lt_iff_toNat_lt, UInt32.le_iff_toNat_le, UInt32.reduceToNat] at narrow few
      omega
  | register rm kind amount =>
    have code := kind.toNat_toField_lt
    cases amount with
    | field amount =>
      have number := toNat_encode_field rm kind wellFormed
      have few : amount < 32 := wellFormed
      simp only [UInt32.lt_iff_toNat_lt, UInt32.reduceToNat] at few
      exact ⟨0, _, by rw [Nat.zero_mul, Nat.zero_add], by decide, by omega, by omega⟩
    | register rs =>
      have number := toNat_encode_register rm kind rs
      exact ⟨0, _, by rw [Nat.zero_mul, Nat.zero_add], by decide, by omega, by omega⟩

/-- A word with an operand's bits in their places decodes to it. -/
theorem decode_of_bits {o : SecondOperand} {w : Word} (wellFormed : o.WellFormed)
    (bits : w.toNat / 2 ^ 25 % 2 * 2 ^ 25 + w.toNat % 2 ^ 12 = o.encode.toNat) : decode w = o := by
  cases o with
  | immediate base rotation =>
    rw [toNat_encode_immediate wellFormed] at bits
    obtain ⟨narrow, few, even⟩ := wellFormed
    simp only [← UInt32.toNat_inj, UInt32.lt_iff_toNat_lt, UInt32.le_iff_toNat_le,
      UInt32.toNat_mod, UInt32.reduceToNat] at narrow few even
    have flag : w.bit 25 = true := bit_of_toNat 25 (by decide) (by rw [Bool.toNat_true]; omega)
    have number : w.field 0 8 = base := field_of_toNat 0 8 (by decide) (by omega)
    have half : (w.field 8 4).toNat = w.toNat / 2 ^ 8 % 2 ^ 4 := w.toNat_field 8 4 (by decide)
    have two : (2 : Word).toNat = 2 := rfl
    have turns : w.field 8 4 * 2 = rotation := by
      rw [← UInt32.toNat_inj, UInt32.toNat_mul, half, two]
      omega
    rw [decode, if_pos flag, number, turns]
  | register rm kind amount =>
    have code := kind.toNat_toField_lt
    cases amount with
    | field amount =>
      rw [toNat_encode_field rm kind wellFormed] at bits
      have few : amount < 32 := wellFormed
      simp only [UInt32.lt_iff_toNat_lt, UInt32.reduceToNat] at few
      have flag : w.bit 25 = false := bit_of_toNat 25 (by decide) (by rw [Bool.toNat_false]; omega)
      have source : w.bit 4 = false := bit_of_toNat 4 (by decide) (by rw [Bool.toNat_false]; omega)
      have first : w.registerField 0 = rm := registerField_of_val 0 (by decide) (by omega)
      have shift : w.field 5 2 = kind.toField := field_of_toNat 5 2 (by decide) (by omega)
      have places : w.field 7 5 = amount := field_of_toNat 7 5 (by decide) (by omega)
      rw [decode, flag, source, first, shift, places, ShiftKind.ofField_toField]
      rfl
    | register rs =>
      rw [toNat_encode_register] at bits
      have flag : w.bit 25 = false := bit_of_toNat 25 (by decide) (by rw [Bool.toNat_false]; omega)
      have source : w.bit 4 = true := bit_of_toNat 4 (by decide) (by rw [Bool.toNat_true]; omega)
      have first : w.registerField 0 = rm := registerField_of_val 0 (by decide) (by omega)
      have shift : w.field 5 2 = kind.toField := field_of_toNat 5 2 (by decide) (by omega)
      have places : w.registerField 8 = rs := registerField_of_val 8 (by decide) (by omega)
      rw [decode, flag, source, first, shift, places, ShiftKind.ofField_toField]
      rfl

end SecondOperand

namespace TransferOffset

theorem toNat_encode_immediate (offset : Word) :
    (immediate offset).encode.toNat = offset.toNat := rfl

theorem toNat_encode_register (rm : RegisterNumber) (kind : ShiftKind) {amount : Word}
    (wellFormed : (register rm kind amount).WellFormed) :
    (register rm kind amount).encode.toNat =
      2 ^ 25 + amount.toNat * 2 ^ 7 + kind.toField.toNat * 2 ^ 5 + rm.val := by
  have code := kind.toNat_toField_lt
  have few : amount < 32 := wellFormed
  simp only [UInt32.lt_iff_toNat_lt, UInt32.reduceToNat] at few
  simp (disch := decide) only [encode, UInt32.toNat_add, toNat_ofFlag, toNat_ofRegister,
    UInt32.toNat_shiftLeft, Nat.reduceMod, Nat.shiftLeft_eq, UInt32.reduceToNat, Bool.toNat_true]
  omega

/-- An offset takes bit 25 and the lowest twelve bits, and a shifted register leaves out the bit
that makes an undefined word. -/
theorem encode_cases {o : TransferOffset} (wellFormed : o.WellFormed) :
    ∃ flag rest, o.encode.toNat = flag * 2 ^ 25 + rest ∧ flag < 2 ∧ rest < 2 ^ 12 ∧
      (flag = 1 → rest / 2 ^ 4 % 2 ^ 1 = 0) := by
  cases o with
  | immediate offset =>
    have narrow : offset < 4096 := wellFormed
    simp only [UInt32.lt_iff_toNat_lt, UInt32.reduceToNat] at narrow
    exact ⟨0, offset.toNat, by rw [Nat.zero_mul, Nat.zero_add]; rfl, by decide, narrow, nofun⟩
  | register rm kind amount =>
    have code := kind.toNat_toField_lt
    have number := toNat_encode_register rm kind wellFormed
    have few : amount < 32 := wellFormed
    simp only [UInt32.lt_iff_toNat_lt, UInt32.reduceToNat] at few
    refine ⟨1, amount.toNat * 2 ^ 7 + kind.toField.toNat * 2 ^ 5 + rm.val, ?_, by decide, ?_, ?_⟩
    · omega
    · omega
    · omega

/-- A word with an offset's bits in their places decodes to it. -/
theorem decode_of_bits {o : TransferOffset} {w : Word} (wellFormed : o.WellFormed)
    (bits : w.toNat / 2 ^ 25 % 2 * 2 ^ 25 + w.toNat % 2 ^ 12 = o.encode.toNat) : decode w = o := by
  cases o with
  | immediate offset =>
    rw [toNat_encode_immediate] at bits
    have narrow : offset < 4096 := wellFormed
    simp only [UInt32.lt_iff_toNat_lt, UInt32.reduceToNat] at narrow
    have flag : w.bit 25 = false := bit_of_toNat 25 (by decide) (by rw [Bool.toNat_false]; omega)
    have number : w.field 0 12 = offset := field_of_toNat 0 12 (by decide) (by omega)
    rw [decode, flag, number]
    rfl
  | register rm kind amount =>
    rw [toNat_encode_register rm kind wellFormed] at bits
    have code := kind.toNat_toField_lt
    have few : amount < 32 := wellFormed
    simp only [UInt32.lt_iff_toNat_lt, UInt32.reduceToNat] at few
    have flag : w.bit 25 = true := bit_of_toNat 25 (by decide) (by rw [Bool.toNat_true]; omega)
    have first : w.registerField 0 = rm := registerField_of_val 0 (by decide) (by omega)
    have shift : w.field 5 2 = kind.toField := field_of_toNat 5 2 (by decide) (by omega)
    have places : w.field 7 5 = amount := field_of_toNat 7 5 (by decide) (by omega)
    rw [decode, if_pos flag, first, shift, places, ShiftKind.ofField_toField]

end TransferOffset

/-! ### Classes -/

namespace Instruction

variable {w : Word}

/-- What is neither a multiplication nor a swap and has bits 26 and 27 clear is data processing. -/
theorem decode_of_data (low : w.toNat / 2 ^ 26 % 2 ^ 2 = 0)
    (noProduct : ¬(w.toNat / 2 ^ 22 % 2 ^ 6 = 0 ∧ w.toNat / 2 ^ 4 % 2 ^ 4 = 9))
    (noSwap : ¬(w.toNat / 2 ^ 23 % 2 ^ 5 = 2 ∧ w.toNat / 2 ^ 20 % 2 ^ 2 = 0 ∧
      w.toNat / 2 ^ 4 % 2 ^ 8 = 9)) : decode w = decodeDataProcessing w := by
  rw [← isMultiply_iff, Bool.not_eq_true] at noProduct
  rw [← isSwap_iff, Bool.not_eq_true] at noSwap
  have number : (w.field 24 4).toNat = w.toNat / 2 ^ 24 % 2 ^ 4 := w.toNat_field 24 4 (by decide)
  have cases : w.field 24 4 = 0 ∨ w.field 24 4 = 1 ∨ w.field 24 4 = 2 ∨ w.field 24 4 = 3 := by
    simp only [← UInt32.toNat_inj, UInt32.reduceToNat]
    omega
  unfold decode
  rcases cases with code | code | code | code
  · rw [code, noProduct]
    rfl
  · rw [code, noSwap]
    rfl
  · rw [code]
    rfl
  · rw [code]
    rfl

theorem decode_of_transfer (low : w.toNat / 2 ^ 26 % 2 ^ 2 = 1) (defined : isUndefined w = false) :
    decode w = decodeSingleTransfer w := by
  have number : (w.field 24 4).toNat = w.toNat / 2 ^ 24 % 2 ^ 4 := w.toNat_field 24 4 (by decide)
  have cases : w.field 24 4 = 4 ∨ w.field 24 4 = 5 ∨ w.field 24 4 = 6 ∨ w.field 24 4 = 7 := by
    simp only [← UInt32.toNat_inj, UInt32.reduceToNat]
    omega
  unfold decode
  rcases cases with code | code | code | code <;> rw [code, defined] <;> rfl

theorem decode_of_block (class4 : w.toNat / 2 ^ 25 % 2 ^ 3 = 4) :
    decode w = decodeBlockTransfer w := by
  have number : (w.field 24 4).toNat = w.toNat / 2 ^ 24 % 2 ^ 4 := w.toNat_field 24 4 (by decide)
  have cases : w.field 24 4 = 8 ∨ w.field 24 4 = 9 := by
    simp only [← UInt32.toNat_inj, UInt32.reduceToNat]
    omega
  unfold decode
  rcases cases with code | code <;> rw [code] <;> rfl

theorem decode_of_branch (class5 : w.toNat / 2 ^ 25 % 2 ^ 3 = 5) : decode w = decodeBranch w := by
  have number : (w.field 24 4).toNat = w.toNat / 2 ^ 24 % 2 ^ 4 := w.toNat_field 24 4 (by decide)
  have cases : w.field 24 4 = 10 ∨ w.field 24 4 = 11 := by
    simp only [← UInt32.toNat_inj, UInt32.reduceToNat]
    omega
  unfold decode
  rcases cases with code | code <;> rw [code] <;> rfl

/-! ### Instruction by instruction -/

theorem toNat_encodeMultiply (i : Multiply) :
    (encodeMultiply i).toNat = i.accumulate.toNat * 2 ^ 21 + i.setFlags.toNat * 2 ^ 20 +
      i.rd.val * 2 ^ 16 + i.rn.val * 2 ^ 12 + i.rs.val * 2 ^ 8 + 9 * 2 ^ 4 + i.rm.val := by
  have flag0 := i.accumulate.toNat_le
  have flag1 := i.setFlags.toNat_le
  simp (disch := decide) only [encodeMultiply, UInt32.toNat_add, toNat_ofFlag, toNat_ofRegister,
    UInt32.reduceToNat]
  omega

theorem decode_multiply {i : Multiply} (carried : w.toNat % 2 ^ 28 = (encodeMultiply i).toNat) :
    decode w = .multiply i := by
  rw [toNat_encodeMultiply] at carried
  have flag0 := i.accumulate.toNat_le
  have flag1 := i.setFlags.toNat_le
  have code : w.field 24 4 = 0 := field_of_toNat 24 4 (by decide) (by rw [UInt32.toNat_zero]; omega)
  have test : isMultiply w = true := isMultiply_iff.2 ⟨by omega, by omega⟩
  have accumulate : w.bit 21 = i.accumulate := bit_of_toNat 21 (by decide) (by omega)
  have setFlags : w.bit 20 = i.setFlags := bit_of_toNat 20 (by decide) (by omega)
  have rd : w.registerField 16 = i.rd := registerField_of_val 16 (by decide) (by omega)
  have rn : w.registerField 12 = i.rn := registerField_of_val 12 (by decide) (by omega)
  have rs : w.registerField 8 = i.rs := registerField_of_val 8 (by decide) (by omega)
  have rm : w.registerField 0 = i.rm := registerField_of_val 0 (by decide) (by omega)
  have decoded : decodeMultiply w = .multiply i := by
    rw [decodeMultiply, accumulate, setFlags, rd, rn, rs, rm]
  rw [← decoded, decode, code]
  exact if_pos test

theorem toNat_encodeSwap (i : Swap) :
    (encodeSwap i).toNat = 2 ^ 24 + (i.width == .byte).toNat * 2 ^ 22 + i.base.val * 2 ^ 16 +
      i.rd.val * 2 ^ 12 + 9 * 2 ^ 4 + i.source.val := by
  have flag := (i.width == .byte).toNat_le
  simp (disch := decide) only [encodeSwap, UInt32.toNat_add, toNat_ofFlag, toNat_ofRegister,
    UInt32.reduceToNat]
  omega

theorem decode_swap {i : Swap} (carried : w.toNat % 2 ^ 28 = (encodeSwap i).toNat) :
    decode w = .swap i := by
  rw [toNat_encodeSwap] at carried
  have flag := (i.width == .byte).toNat_le
  have code : w.field 24 4 = 1 := field_of_toNat 24 4 (by decide) (by rw [UInt32.toNat_one]; omega)
  have test : isSwap w = true := isSwap_iff.2 ⟨by omega, by omega, by omega⟩
  have byte : w.bit 22 = (i.width == .byte) := bit_of_toNat 22 (by decide) (by omega)
  have base : w.registerField 16 = i.base := registerField_of_val 16 (by decide) (by omega)
  have rd : w.registerField 12 = i.rd := registerField_of_val 12 (by decide) (by omega)
  have source : w.registerField 0 = i.source := registerField_of_val 0 (by decide) (by omega)
  have decoded : decodeSwap w = .swap i := by
    rw [decodeSwap, byte, base, rd, source, Width.ite_eq_byte]
  rw [← decoded, decode, code]
  exact if_pos test

/-- A test that sets no flags belongs to the status transfers. -/
theorem decodeDataProcessing_of_not_status (other : w.toNat / 2 ^ 20 % 2 ^ 5 ∉ [16, 18, 20, 22]) :
    decodeDataProcessing w = .dataProcessing
      { operation := .ofField (w.field 21 4), setFlags := w.bit 20, rn := w.registerField 16
        rd := w.registerField 12, operand := .decode w } := by
  have number : (w.field 20 5).toNat = w.toNat / 2 ^ 20 % 2 ^ 5 := w.toNat_field 20 5 (by decide)
  rw [← number] at other
  unfold decodeDataProcessing
  split
  next code => simp [code] at other
  next code => simp [code] at other
  next code => simp [code] at other
  next code => simp [code] at other
  next => rfl

theorem toNat_encodeDataProcessing {i : DataProcessing} (wellFormed : i.operand.WellFormed) :
    (encodeDataProcessing i).toNat = i.operation.toField.toNat * 2 ^ 21 +
      i.setFlags.toNat * 2 ^ 20 + i.rn.val * 2 ^ 16 + i.rd.val * 2 ^ 12 +
      i.operand.encode.toNat := by
  have code := i.operation.toNat_toField_lt
  have flag0 := i.setFlags.toNat_le
  obtain ⟨flag, rest, number, short, narrow, -⟩ := SecondOperand.encode_cases wellFormed
  simp (disch := decide) only [encodeDataProcessing, UInt32.toNat_add, toNat_ofFlag,
    toNat_ofRegister, UInt32.toNat_shiftLeft, Nat.reduceMod, Nat.shiftLeft_eq, UInt32.reduceToNat]
  omega

theorem decode_dataProcessing {i : DataProcessing} (wellFormed : (dataProcessing i).WellFormed)
    (carried : w.toNat % 2 ^ 28 = (encodeDataProcessing i).toNat) :
    decode w = .dataProcessing i := by
  obtain ⟨fits, effect⟩ := wellFormed
  rw [toNat_encodeDataProcessing fits] at carried
  have code := i.operation.toNat_toField_lt
  have flag0 := i.setFlags.toNat_le
  obtain ⟨flag, rest, number, short, narrow, apart⟩ := SecondOperand.encode_cases fits
  have other : w.toNat / 2 ^ 20 % 2 ^ 5 ∉ [16, 18, 20, 22] := by
    rw [AluOperation.writesResult_iff] at effect
    have set : i.setFlags = true ↔ i.setFlags.toNat = 1 := by cases i.setFlags <;> decide
    rw [set] at effect
    simp only [List.mem_cons, List.not_mem_nil, or_false]
    omega
  have operation : w.field 21 4 = i.operation.toField := field_of_toNat 21 4 (by decide) (by omega)
  have operand : SecondOperand.decode w = i.operand := SecondOperand.decode_of_bits fits (by omega)
  have setFlags : w.bit 20 = i.setFlags := bit_of_toNat 20 (by decide) (by omega)
  have rn : w.registerField 16 = i.rn := registerField_of_val 16 (by decide) (by omega)
  have rd : w.registerField 12 = i.rd := registerField_of_val 12 (by decide) (by omega)
  rw [decode_of_data (by omega) (by omega) (by omega), decodeDataProcessing_of_not_status other,
    operation, operand, setFlags, rn, rd, AluOperation.ofField_toField]

theorem decodeDataProcessing_of_read (source : StatusRegister)
    (code : w.toNat / 2 ^ 20 % 2 ^ 5 = 16 + (source == .saved).toNat * 4) :
    decodeDataProcessing w = .readStatus source (w.registerField 12) := by
  cases source with
  | current =>
    have pattern : w.field 20 5 = 16 := field_of_toNat 20 5 (by decide) code
    rw [decodeDataProcessing, pattern]
    rfl
  | saved =>
    have pattern : w.field 20 5 = 20 := field_of_toNat 20 5 (by decide) code
    rw [decodeDataProcessing, pattern]
    rfl

theorem toNat_encodeReadStatus (source : StatusRegister) (rd : RegisterNumber) :
    (encodeReadStatus source rd).toNat =
      2 ^ 24 + (source == .saved).toNat * 2 ^ 22 + 15 * 2 ^ 16 + rd.val * 2 ^ 12 := by
  have flag := (source == .saved).toNat_le
  simp (disch := decide) only [encodeReadStatus, UInt32.toNat_add, toNat_ofFlag, toNat_ofRegister,
    UInt32.reduceToNat]
  omega

theorem decode_readStatus {source : StatusRegister} {rd : RegisterNumber}
    (carried : w.toNat % 2 ^ 28 = (encodeReadStatus source rd).toNat) :
    decode w = .readStatus source rd := by
  rw [toNat_encodeReadStatus] at carried
  have flag := (source == .saved).toNat_le
  have code : w.toNat / 2 ^ 20 % 2 ^ 5 = 16 + (source == .saved).toNat * 4 := by omega
  have destination : w.registerField 12 = rd := registerField_of_val 12 (by decide) (by omega)
  rw [decode_of_data (by omega) (by omega) (by omega), decodeDataProcessing_of_read source code,
    destination]

theorem decodeDataProcessing_of_write (target : StatusRegister)
    (code : w.toNat / 2 ^ 20 % 2 ^ 5 = 18 + (target == .saved).toNat * 4) :
    decodeDataProcessing w =
      .writeStatus { target, allFields := w.bit 16, source := .decode w } := by
  have bound := (target == .saved).toNat_le
  have flag : w.bit 22 = (target == .saved) := bit_of_toNat 22 (by decide) (by omega)
  have patterns : w.field 20 5 = 18 ∨ w.field 20 5 = 22 := by
    cases target with
    | current => exact .inl (field_of_toNat 20 5 (by decide) code)
    | saved => exact .inr (field_of_toNat 20 5 (by decide) code)
  rw [decodeDataProcessing, flag, StatusRegister.ite_eq_saved]
  rcases patterns with pattern | pattern <;> rw [pattern] <;> rfl

theorem toNat_encodeWriteStatus {i : StatusWrite} (wellFormed : i.source.WellFormed) :
    (encodeWriteStatus i).toNat = 9 * 2 ^ 21 + (i.target == .saved).toNat * 2 ^ 22 +
      4 * 2 ^ 17 + i.allFields.toNat * 2 ^ 16 + 15 * 2 ^ 12 + i.source.encode.toNat := by
  have flag0 := (i.target == .saved).toNat_le
  have flag1 := i.allFields.toNat_le
  obtain ⟨flag, rest, number, short, narrow, -⟩ := SecondOperand.encode_cases wellFormed
  simp (disch := decide) only [encodeWriteStatus, UInt32.toNat_add, toNat_ofFlag,
    UInt32.reduceToNat]
  omega

theorem decode_writeStatus {i : StatusWrite} (wellFormed : i.source.WellFormed)
    (carried : w.toNat % 2 ^ 28 = (encodeWriteStatus i).toNat) : decode w = .writeStatus i := by
  rw [toNat_encodeWriteStatus wellFormed] at carried
  have flag0 := (i.target == .saved).toNat_le
  have flag1 := i.allFields.toNat_le
  obtain ⟨flag, rest, number, short, narrow, apart⟩ := SecondOperand.encode_cases wellFormed
  have code : w.toNat / 2 ^ 20 % 2 ^ 5 = 18 + (i.target == .saved).toNat * 4 := by omega
  have allFields : w.bit 16 = i.allFields := bit_of_toNat 16 (by decide) (by omega)
  have source : SecondOperand.decode w = i.source :=
    SecondOperand.decode_of_bits wellFormed (by omega)
  rw [decode_of_data (by omega) (by omega) (by omega), decodeDataProcessing_of_write i.target code,
    allFields, source]

theorem toNat_encodeSingleTransfer {i : SingleTransfer} (wellFormed : i.offset.WellFormed) :
    (encodeSingleTransfer i).toNat = 2 ^ 26 + (i.indexing == .pre).toNat * 2 ^ 24 +
      (i.direction == .up).toNat * 2 ^ 23 + (i.width == .byte).toNat * 2 ^ 22 +
      i.writeBack.toNat * 2 ^ 21 + i.load.toNat * 2 ^ 20 + i.base.val * 2 ^ 16 +
      i.rd.val * 2 ^ 12 + i.offset.encode.toNat := by
  have flag0 := (i.indexing == .pre).toNat_le
  have flag1 := (i.direction == .up).toNat_le
  have flag2 := (i.width == .byte).toNat_le
  have flag3 := i.writeBack.toNat_le
  have flag4 := i.load.toNat_le
  obtain ⟨flag, rest, number, short, narrow, -⟩ := TransferOffset.encode_cases wellFormed
  simp (disch := decide) only [encodeSingleTransfer, UInt32.toNat_add, toNat_ofFlag,
    toNat_ofRegister, UInt32.reduceToNat]
  omega

theorem decode_singleTransfer {i : SingleTransfer} (wellFormed : i.offset.WellFormed)
    (carried : w.toNat % 2 ^ 28 = (encodeSingleTransfer i).toNat) :
    decode w = .singleTransfer i := by
  rw [toNat_encodeSingleTransfer wellFormed] at carried
  have flag0 := (i.indexing == .pre).toNat_le
  have flag1 := (i.direction == .up).toNat_le
  have flag2 := (i.width == .byte).toNat_le
  have flag3 := i.writeBack.toNat_le
  have flag4 := i.load.toNat_le
  obtain ⟨flag, rest, number, short, narrow, apart⟩ := TransferOffset.encode_cases wellFormed
  have defined : isUndefined w = false := by
    rw [← Bool.not_eq_true, isUndefined_iff]
    omega
  have pre : w.bit 24 = (i.indexing == .pre) := bit_of_toNat 24 (by decide) (by omega)
  have up : w.bit 23 = (i.direction == .up) := bit_of_toNat 23 (by decide) (by omega)
  have byte : w.bit 22 = (i.width == .byte) := bit_of_toNat 22 (by decide) (by omega)
  have writeBack : w.bit 21 = i.writeBack := bit_of_toNat 21 (by decide) (by omega)
  have load : w.bit 20 = i.load := bit_of_toNat 20 (by decide) (by omega)
  have base : w.registerField 16 = i.base := registerField_of_val 16 (by decide) (by omega)
  have rd : w.registerField 12 = i.rd := registerField_of_val 12 (by decide) (by omega)
  have offset : TransferOffset.decode w = i.offset :=
    TransferOffset.decode_of_bits wellFormed (by omega)
  rw [decode_of_transfer (by omega) defined, decodeSingleTransfer, pre, up, byte, writeBack, load,
    base, rd, offset, Indexing.ite_eq_pre, Direction.ite_eq_up, Width.ite_eq_byte]

theorem toNat_encodeBlockTransfer (i : BlockTransfer) :
    (encodeBlockTransfer i).toNat = 2 ^ 27 + (i.indexing == .pre).toNat * 2 ^ 24 +
      (i.direction == .up).toNat * 2 ^ 23 + i.status.toNat * 2 ^ 22 + i.writeBack.toNat * 2 ^ 21 +
      i.load.toNat * 2 ^ 20 + i.base.val * 2 ^ 16 + i.list.toNat := by
  have flag0 := (i.indexing == .pre).toNat_le
  have flag1 := (i.direction == .up).toNat_le
  have flag2 := i.status.toNat_le
  have flag3 := i.writeBack.toNat_le
  have flag4 := i.load.toNat_le
  have list := i.list.toNat_lt
  simp (disch := decide) only [encodeBlockTransfer, UInt32.toNat_add, toNat_ofFlag,
    toNat_ofRegister, UInt16.toNat_toUInt32, UInt32.reduceToNat]
  omega

theorem decode_blockTransfer {i : BlockTransfer}
    (carried : w.toNat % 2 ^ 28 = (encodeBlockTransfer i).toNat) :
    decode w = .blockTransfer i := by
  rw [toNat_encodeBlockTransfer] at carried
  have flag0 := (i.indexing == .pre).toNat_le
  have flag1 := (i.direction == .up).toNat_le
  have flag2 := i.status.toNat_le
  have flag3 := i.writeBack.toNat_le
  have flag4 := i.load.toNat_le
  have narrow := i.list.toNat_lt
  have pre : w.bit 24 = (i.indexing == .pre) := bit_of_toNat 24 (by decide) (by omega)
  have up : w.bit 23 = (i.direction == .up) := bit_of_toNat 23 (by decide) (by omega)
  have status : w.bit 22 = i.status := bit_of_toNat 22 (by decide) (by omega)
  have writeBack : w.bit 21 = i.writeBack := bit_of_toNat 21 (by decide) (by omega)
  have load : w.bit 20 = i.load := bit_of_toNat 20 (by decide) (by omega)
  have base : w.registerField 16 = i.base := registerField_of_val 16 (by decide) (by omega)
  have list : w.toUInt16 = i.list := by
    rw [← UInt16.toNat_inj, UInt32.toNat_toUInt16]
    omega
  rw [decode_of_block (by omega), decodeBlockTransfer, pre, up, status, writeBack, load, base, list,
    Indexing.ite_eq_pre, Direction.ite_eq_up]

theorem toNat_encodeBranch (link : Bool) (offset : Word) :
    (encodeBranch link offset).toNat =
      5 * 2 ^ 25 + link.toNat * 2 ^ 24 + offset.toNat / 2 ^ 2 % 2 ^ 24 := by
  have flag := link.toNat_le
  have number : (offset.field 2 24).toNat = offset.toNat / 2 ^ 2 % 2 ^ 24 :=
    offset.toNat_field 2 24 (by decide)
  simp (disch := decide) only [encodeBranch, UInt32.toNat_add, toNat_ofFlag, UInt32.reduceToNat]
  omega

theorem decode_branch {link : Bool} {offset : Word} (wellFormed : (branch link offset).WellFormed)
    (carried : w.toNat % 2 ^ 28 = (encodeBranch link offset).toNat) :
    decode w = .branch link offset := by
  rw [toNat_encodeBranch] at carried
  have flag := link.toNat_le
  have number : (w.field 0 24).toNat = offset.toNat / 2 ^ 2 % 2 ^ 24 := by
    have digits : (w.field 0 24).toNat = w.toNat / 2 ^ 0 % 2 ^ 24 := w.toNat_field 0 24 (by decide)
    omega
  have linked : w.bit 24 = link := bit_of_toNat 24 (by decide) (by omega)
  have distance : (w.field 0 24).signExtend 24 <<< 2 = offset := by
    obtain ⟨aligned, low, high⟩ := wellFormed
    have bound := offset.toNat_lt
    simp only [← UInt32.toNat_inj, UInt32.toNat_mod, UInt32.reduceToNat] at aligned
    rw [toSigned_eq] at low high
    rw [← UInt32.toNat_inj, toNat_signExtend_shiftLeft (by omega), number]
    split at low <;> split <;> omega
  rw [decode_of_branch (by omega), decodeBranch, linked, distance]

theorem decode_softwareInterrupt {comment : Word} (narrow : comment < 0x1000000)
    (carried : w.toNat % 2 ^ 28 = (0x0F000000 + comment : Word).toNat) :
    decode w = .softwareInterrupt comment := by
  simp only [UInt32.lt_iff_toNat_lt, UInt32.reduceToNat] at narrow
  simp only [UInt32.toNat_add, UInt32.reduceToNat] at carried
  have code : w.field 24 4 = 15 := by
    apply field_of_toNat 24 4 (by decide)
    simp only [UInt32.reduceToNat]
    omega
  have number : w.field 0 24 = comment := field_of_toNat 0 24 (by decide) (by omega)
  rw [decode, code, number]
  rfl

theorem decode_coprocessor (carried : w.toNat % 2 ^ 28 = (0x0C000000 : Word).toNat) :
    decode w = .coprocessor := by
  simp only [UInt32.reduceToNat] at carried
  have code : w.field 24 4 = 12 := by
    apply field_of_toNat 24 4 (by decide)
    simp only [UInt32.reduceToNat]
    omega
  rw [decode, code]
  rfl

theorem decode_undefined (carried : w.toNat % 2 ^ 28 = (0x06000010 : Word).toNat) :
    decode w = .undefined := by
  simp only [UInt32.reduceToNat] at carried
  have code : w.field 24 4 = 6 := by
    apply field_of_toNat 24 4 (by decide)
    simp only [UInt32.reduceToNat]
    omega
  have test : isUndefined w = true := isUndefined_iff.2 ⟨by omega, by omega⟩
  rw [decode, code]
  exact if_pos test

/-! ### All instructions -/

/-- A well-formed instruction leaves the bits of the condition to the condition. -/
theorem toNat_encode_lt {i : Instruction} (wellFormed : i.WellFormed) :
    i.encode.toNat < 2 ^ 28 := by
  cases i with
  | multiply i =>
    have number := toNat_encodeMultiply i
    have flag0 := i.accumulate.toNat_le
    have flag1 := i.setFlags.toNat_le
    rw [encode]
    omega
  | swap i =>
    have number := toNat_encodeSwap i
    have flag := (i.width == .byte).toNat_le
    rw [encode]
    omega
  | dataProcessing i =>
    have number := toNat_encodeDataProcessing wellFormed.1
    have code := i.operation.toNat_toField_lt
    have flag0 := i.setFlags.toNat_le
    obtain ⟨flag, rest, operand, short, narrow, -⟩ := SecondOperand.encode_cases wellFormed.1
    rw [encode]
    omega
  | readStatus source rd =>
    have number := toNat_encodeReadStatus source rd
    have flag := (source == .saved).toNat_le
    rw [encode]
    omega
  | writeStatus i =>
    have number := toNat_encodeWriteStatus wellFormed
    have flag0 := (i.target == .saved).toNat_le
    have flag1 := i.allFields.toNat_le
    obtain ⟨flag, rest, operand, short, narrow, -⟩ := SecondOperand.encode_cases wellFormed
    rw [encode]
    omega
  | singleTransfer i =>
    have number := toNat_encodeSingleTransfer wellFormed
    have flag0 := (i.indexing == .pre).toNat_le
    have flag1 := (i.direction == .up).toNat_le
    have flag2 := (i.width == .byte).toNat_le
    have flag3 := i.writeBack.toNat_le
    have flag4 := i.load.toNat_le
    obtain ⟨flag, rest, offset, short, narrow, -⟩ := TransferOffset.encode_cases wellFormed
    rw [encode]
    omega
  | blockTransfer i =>
    have number := toNat_encodeBlockTransfer i
    have flag0 := (i.indexing == .pre).toNat_le
    have flag1 := (i.direction == .up).toNat_le
    have flag2 := i.status.toNat_le
    have flag3 := i.writeBack.toNat_le
    have flag4 := i.load.toNat_le
    have list := i.list.toNat_lt
    rw [encode]
    omega
  | branch link offset =>
    have number := toNat_encodeBranch link offset
    have flag := link.toNat_le
    rw [encode]
    omega
  | softwareInterrupt comment =>
    have narrow : comment < 0x1000000 := wellFormed
    simp only [UInt32.lt_iff_toNat_lt, UInt32.reduceToNat] at narrow
    simp only [encode, UInt32.toNat_add, UInt32.reduceToNat]
    omega
  | coprocessor => decide
  | undefined => decide

theorem decode_of_carried {i : Instruction} (wellFormed : i.WellFormed)
    (carried : w.toNat % 2 ^ 28 = i.encode.toNat) : decode w = i := by
  cases i with
  | multiply i => exact decode_multiply carried
  | swap i => exact decode_swap carried
  | dataProcessing i => exact decode_dataProcessing wellFormed carried
  | readStatus source rd => exact decode_readStatus carried
  | writeStatus i => exact decode_writeStatus wellFormed carried
  | singleTransfer i => exact decode_singleTransfer wellFormed carried
  | blockTransfer i => exact decode_blockTransfer carried
  | branch link offset => exact decode_branch wellFormed carried
  | softwareInterrupt comment => exact decode_softwareInterrupt wellFormed carried
  | coprocessor => exact decode_coprocessor carried
  | undefined => exact decode_undefined carried

end Instruction

/-! ### Every word -/

theorem SecondOperand.wellFormed_decode (w : Word) : (decode w).WellFormed := by
  rw [decode]
  split
  · have base : (w.field 0 8).toNat = w.toNat / 2 ^ 0 % 2 ^ 8 := w.toNat_field 0 8 (by decide)
    have half : (w.field 8 4).toNat = w.toNat / 2 ^ 8 % 2 ^ 4 := w.toNat_field 8 4 (by decide)
    simp only [WellFormed, ← UInt32.toNat_inj, UInt32.lt_iff_toNat_lt, UInt32.le_iff_toNat_le,
      UInt32.toNat_mod, UInt32.toNat_mul, UInt32.reduceToNat]
    omega
  · split
    · trivial
    · have amount : (w.field 7 5).toNat = w.toNat / 2 ^ 7 % 2 ^ 5 := w.toNat_field 7 5 (by decide)
      simp only [WellFormed, UInt32.lt_iff_toNat_lt, UInt32.reduceToNat]
      omega

theorem TransferOffset.wellFormed_decode (w : Word) : (decode w).WellFormed := by
  rw [decode]
  split
  · have amount : (w.field 7 5).toNat = w.toNat / 2 ^ 7 % 2 ^ 5 := w.toNat_field 7 5 (by decide)
    simp only [WellFormed, UInt32.lt_iff_toNat_lt, UInt32.reduceToNat]
    omega
  · have offset : (w.field 0 12).toNat = w.toNat / 2 ^ 0 % 2 ^ 12 := w.toNat_field 0 12 (by decide)
    simp only [WellFormed, UInt32.lt_iff_toNat_lt, UInt32.reduceToNat]
    omega

namespace Instruction

variable {w : Word}

theorem wellFormed_decodeDataProcessing (w : Word) : (decodeDataProcessing w).WellFormed := by
  by_cases status : w.toNat / 2 ^ 20 % 2 ^ 5 ∈ [16, 18, 20, 22]
  · simp only [List.mem_cons, List.not_mem_nil, or_false] at status
    rcases status with code | code | code | code
    · rw [decodeDataProcessing_of_read .current code]
      trivial
    · rw [decodeDataProcessing_of_write .current code]
      exact SecondOperand.wellFormed_decode w
    · rw [decodeDataProcessing_of_read .saved code]
      trivial
    · rw [decodeDataProcessing_of_write .saved code]
      exact SecondOperand.wellFormed_decode w
  · rw [decodeDataProcessing_of_not_status status]
    refine ⟨SecondOperand.wellFormed_decode w, ?_⟩
    have operation : (w.field 21 4).toNat = w.toNat / 2 ^ 21 % 2 ^ 4 :=
      w.toNat_field 21 4 (by decide)
    have code : (AluOperation.ofField (w.field 21 4)).toField = w.field 21 4 :=
      AluOperation.toField_ofField (by omega)
    rw [AluOperation.writesResult_iff, code, operation]
    by_cases set : w.toNat / 2 ^ 20 % 2 = 1
    · exact .inr (bit_of_toNat 20 (by decide) set)
    · simp only [List.mem_cons, List.not_mem_nil, or_false] at status
      left
      omega

theorem wellFormed_decodeBranch (w : Word) : (decodeBranch w).WellFormed := by
  have number : (w.field 0 24).toNat = w.toNat / 2 ^ 0 % 2 ^ 24 := w.toNat_field 0 24 (by decide)
  have distance := toNat_signExtend_shiftLeft (w := w.field 0 24) (by omega)
  simp only [decodeBranch, WellFormed, toSigned_eq, ← UInt32.toNat_inj, UInt32.toNat_mod,
    UInt32.reduceToNat]
  generalize (w.field 0 24).signExtend 24 <<< 2 = offset at *
  split at distance <;> split <;> omega

theorem wellFormed_ite {c : Prop} [Decidable c] {i j : Instruction} (first : i.WellFormed)
    (second : j.WellFormed) : (if c then i else j).WellFormed := by
  split
  · exact first
  · exact second

/-- No word decodes to an instruction that has no word. -/
theorem wellFormed_decode (w : Word) : (decode w).WellFormed := by
  have data := wellFormed_decodeDataProcessing w
  have transfer : (decodeSingleTransfer w).WellFormed := TransferOffset.wellFormed_decode w
  have target := wellFormed_decodeBranch w
  have comment : (softwareInterrupt (w.field 0 24)).WellFormed := by
    have number : (w.field 0 24).toNat = w.toNat / 2 ^ 0 % 2 ^ 24 := w.toNat_field 0 24 (by decide)
    simp only [WellFormed, UInt32.lt_iff_toNat_lt, UInt32.reduceToNat]
    omega
  unfold decode
  split
  next => exact wellFormed_ite trivial data
  next => exact wellFormed_ite trivial data
  next => exact data
  next => exact data
  next => exact wellFormed_ite trivial transfer
  next => exact wellFormed_ite trivial transfer
  next => exact wellFormed_ite trivial transfer
  next => exact wellFormed_ite trivial transfer
  next => trivial
  next => trivial
  next => exact target
  next => exact target
  next => exact comment
  next => trivial

end Instruction

/-- The condition takes the four bits above a well-formed instruction. -/
theorem Opcode.toNat_encode {o : Opcode} (wellFormed : o.instruction.WellFormed) :
    o.encode.toNat = o.condition.toField.toNat * 2 ^ 28 + o.instruction.encode.toNat := by
  have code := o.condition.toNat_toField_lt
  have narrow := Instruction.toNat_encode_lt wellFormed
  simp only [encode, UInt32.toNat_add, UInt32.toNat_shiftLeft, Nat.shiftLeft_eq, UInt32.reduceToNat,
    Nat.reduceMod]
  omega

theorem Opcode.decode_encode_of_wellFormed {o : Opcode} (wellFormed : o.instruction.WellFormed) :
    decode o.encode = o := by
  have number := toNat_encode wellFormed
  have code := o.condition.toNat_toField_lt
  have narrow := Instruction.toNat_encode_lt wellFormed
  have condition : o.encode >>> 28 = o.condition.toField := by
    rw [← UInt32.toNat_inj, UInt32.toNat_shiftRight, Nat.shiftRight_eq_div_pow, number]
    simp only [UInt32.reduceToNat, Nat.reduceMod]
    omega
  have instruction : Instruction.decode o.encode = o.instruction :=
    Instruction.decode_of_carried wellFormed (by omega)
  rw [decode, condition, instruction, Condition.ofField_toField]

/-- A word says which instruction it is: exactly the well-formed instructions survive being
written and read, behind every condition, and whatever word is read, what is read is well-formed. -/
theorem Opcode.decode_encode :
    (∀ o : Opcode, decode o.encode = o ↔ o.instruction.WellFormed) ∧
      ∀ w : Word, (decode w).instruction.WellFormed := by
  refine ⟨fun o => ⟨fun same => ?_, decode_encode_of_wellFormed⟩, Instruction.wellFormed_decode⟩
  rw [← same]
  exact Instruction.wellFormed_decode o.encode

/-- A test that sets no flags has no word of its own: its pattern reads the status word. -/
example :
    Opcode.decode (Opcode.encode ⟨.al, .dataProcessing
      { operation := .tst, setFlags := false, rn := 15, rd := 3, operand := .immediate 0 0 }⟩) =
        ⟨.al, .readStatus .current 3⟩ := by
  decide

end ArmConsole
