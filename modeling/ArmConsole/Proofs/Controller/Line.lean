import ArmConsole.Proofs.Controller.Channels
import ArmConsole.Proofs.Controller.Pending

/-!
The position of the beam in the controller. One register holds field and line, and both can be read
off it as long as the line has eleven bits. A compare register that holds the line raises its
source.
-/

namespace ArmConsole

namespace SystemController

theorem register_withRegister (c : SystemController) (offset value : Word) :
    (c.withRegister offset value).register offset = value :=
  Vector.getElem_set_self (slot offset).isLt

theorem register_compareLine (c : SystemController) (line compare source offset : Word) :
    (c.compareLine line compare source).register offset = c.register offset := by
  unfold compareLine
  split <;> rfl

/-- Channels have registers of their own. -/
theorem registers_readInput (c : SystemController) (channel : Fin 13) (memory : GuestMemory) :
    (c.readInput channel memory).2.registers = c.registers :=
  (c.inputAccess_readInput channel memory).alone.registers

theorem registers_writeOutput (c : SystemController) (channel : Fin 4) (value : HalfWord)
    (memory : GuestMemory) : (c.writeOutput channel value memory).1.registers = c.registers :=
  (c.outputAccess_writeOutput channel value memory).alone.registers

/-- Field and line as they are published. -/
def position (line field : Word) : Word := (field <<< 11) ||| (line &&& 0x7FF)

theorem register_updateLine (c : SystemController) (line field : Word) :
    (c.updateLine line field).register lineCounter = position line field := by
  unfold updateLine
  dsimp only
  rw [register_compareLine, register_compareLine, register_withRegister]
  rfl

theorem toNat_position {line field : Word} (short : line.toNat < 2 ^ 11)
    (few : field.toNat < 2 ^ 21) :
    (position line field).toNat = field.toNat * 2 ^ 11 + line.toNat := by
  have masked : (line &&& 0x7FF).toNat = line.toNat := by
    rw [Word.toNat_and_mask (k := 11) _ rfl, Nat.mod_eq_of_lt short]
  have shifted : (field <<< 11).toNat = field.toNat <<< 11 := by
    have places : (11 : Word).toNat % 32 = 11 := rfl
    rw [UInt32.toNat_shiftLeft, places, Nat.shiftLeft_eq]
    omega
  rw [position, UInt32.toNat_or, masked, shifted, ← Nat.shiftLeft_add_eq_or_of_lt short,
    Nat.shiftLeft_eq]

theorem line_of_position {c : SystemController} {line field : Word}
    (published : c.register lineCounter = position line field) (short : line.toNat < 2 ^ 11)
    (few : field.toNat < 2 ^ 21) : c.line = line := by
  rw [SystemController.line, published, ← UInt32.toNat_inj, Word.toNat_and_mask (k := 11) _ rfl,
    toNat_position short few]
  omega

theorem field_of_position {c : SystemController} {line field : Word}
    (published : c.register lineCounter = position line field) (short : line.toNat < 2 ^ 11)
    (few : field.toNat < 2 ^ 21) : c.field = field := by
  have places : (11 : Word).toNat % 32 = 11 := rfl
  rw [SystemController.field, published, ← UInt32.toNat_inj, UInt32.toNat_shiftRight, places,
    toNat_position short few, Nat.shiftRight_eq_div_pow]
  omega

theorem register_zero (offset : Word) : zero.register offset = 0 :=
  Vector.getElem_replicate (slot offset).isLt

/-! ### Compare lines -/

theorem register_withRegister_of_ne (c : SystemController) {offset other : Word}
    (apart : slot offset ≠ slot other) (value : Word) :
    (c.withRegister offset value).register other = c.register other :=
  Vector.getElem_set_ne (slot offset).isLt (slot other).isLt fun same => apart (Fin.ext same)

theorem register_updateLine_of_ne (c : SystemController) {offset : Word}
    (apart : slot lineCounter ≠ slot offset) (line field : Word) :
    (c.updateLine line field).register offset = c.register offset := by
  unfold updateLine
  dsimp only
  rw [register_compareLine, register_compareLine, register_withRegister_of_ne c apart]

variable {c : SystemController} {line compare source : Word}

theorem isPending_compareLine {other : InterruptSource} (pending : c.interrupts.isPending other) :
    (c.compareLine line compare source).interrupts.isPending other := by
  unfold compareLine
  split
  · exact Interrupts.isPending_raise pending source 0
  · exact pending

theorem isPending_compareLine_of_reached {n : Fin 31}
    (own : source.bit (InterruptSource.primary n).bit = true)
    (reached : c.register compare &&& 0x7FF = line) :
    (c.compareLine line compare source).interrupts.isPending (.primary n) := by
  rw [compareLine, if_pos (beq_iff_eq.2 reached.symm)]
  exact Interrupts.isPending_raise_of_bit own 0

theorem isPending_updateLine_first {field : Word}
    (reached : (c.updateLine line field).register firstCompare &&& 0x7FF = line) :
    (c.updateLine line field).interrupts.isPending (.primary 0) := by
  have apart : slot lineCounter ≠ slot firstCompare := by decide
  rw [register_updateLine_of_ne c apart, ← register_withRegister_of_ne c apart] at reached
  exact isPending_compareLine (isPending_compareLine_of_reached rfl reached)

theorem isPending_updateLine_second {field : Word}
    (reached : (c.updateLine line field).register secondCompare &&& 0x7FF = line) :
    (c.updateLine line field).interrupts.isPending (.primary 1) := by
  have apart : slot lineCounter ≠ slot secondCompare := by decide
  rw [register_updateLine_of_ne c apart, ← register_withRegister_of_ne c apart,
    ← register_compareLine _ line firstCompare Interrupts.firstLine] at reached
  exact isPending_compareLine_of_reached rfl reached

end SystemController

end ArmConsole
