import ArmConsole.Processor.StatusWord
import ArmConsole.Proofs.Word

/-!
What the operations on a status word leave alone. Setting flags keeps the 28 bits below them, and
the bits that select the mode change with the mode only.
-/

namespace ArmConsole

namespace Mode

theorem ofBits?_eq_some_iff {w : Word} {mode : Mode} :
    ofBits? w = some mode ↔ w &&& 0x1F = mode.bits := by
  constructor
  · intro h
    unfold ofBits? at h
    split at h
    case h_7 => contradiction
    all_goals
      cases h
      assumption
  · intro h
    unfold ofBits?
    rw [h]
    cases mode <;> rfl

/-- Different modes have different bits. -/
theorem bits_inj {a b : Mode} : a.bits = b.bits ↔ a = b := by
  constructor
  · intro same
    have found := ofBits?_bits a
    rw [same, ofBits?_bits] at found
    exact (Option.some.inj found).symm
  · exact congrArg bits

end Mode

namespace StatusWord

/-- The 28 bits below the flags: the mode, the two masks and bits without a meaning. -/
def systemBits (s : StatusWord) : Word := s.word &&& 0x0FFFFFFF

/-- The bits that select the mode. -/
def modeBits (s : StatusWord) : Word := s.word &&& modeMask

theorem mode?_eq_some_iff {s : StatusWord} {mode : Mode} :
    s.mode? = some mode ↔ s.modeBits = mode.bits :=
  Mode.ofBits?_eq_some_iff

/-! ### Flags -/

@[simp] theorem systemBits_withNegative (s : StatusWord) (b : Bool) :
    (s.withNegative b).systemBits = s.systemBits := Word.withBit_and (by decide) b

@[simp] theorem systemBits_withZero (s : StatusWord) (b : Bool) :
    (s.withZero b).systemBits = s.systemBits := Word.withBit_and (by decide) b

@[simp] theorem systemBits_withCarry (s : StatusWord) (b : Bool) :
    (s.withCarry b).systemBits = s.systemBits := Word.withBit_and (by decide) b

@[simp] theorem systemBits_withOverflow (s : StatusWord) (b : Bool) :
    (s.withOverflow b).systemBits = s.systemBits := Word.withBit_and (by decide) b

@[simp] theorem systemBits_withFlags (s : StatusWord) (r : AluResult) :
    (s.withFlags r).systemBits = s.systemBits := by
  simp only [withFlags, systemBits_withNegative, systemBits_withZero, systemBits_withCarry,
    systemBits_withOverflow]

@[simp] theorem systemBits_withLogicalFlags (s : StatusWord) (r : AluResult) :
    (s.withLogicalFlags r).systemBits = s.systemBits := by
  simp only [withLogicalFlags, systemBits_withNegative, systemBits_withZero, systemBits_withCarry]

@[simp] theorem systemBits_withFlagBits (s : StatusWord) (value : Word) :
    (s.withFlagBits value).systemBits = s.systemBits := by
  have apart : value &&& flagMask &&& 0x0FFFFFFF = 0 := by
    rw [UInt32.and_assoc]
    exact UInt32.and_zero
  have kept : (s.word &&& ~~~flagMask ||| value &&& flagMask) &&& 0x0FFFFFFF =
      s.word &&& ~~~flagMask &&& 0x0FFFFFFF := Word.or_and_of_disjoint apart
  exact kept.trans (Word.and_and_of_covered (by decide))

/-! ### Mode and masks -/

theorem modeBits_of_systemBits {s t : StatusWord} (same : s.systemBits = t.systemBits) :
    s.modeBits = t.modeBits := by
  have inside (u : StatusWord) : u.systemBits &&& modeMask = u.modeBits :=
    Word.and_and_of_covered (by decide)
  rw [← inside s, same, inside t]

@[simp] theorem modeBits_withIrqDisabled (s : StatusWord) (b : Bool) :
    (s.withIrqDisabled b).modeBits = s.modeBits := Word.withBit_and (by decide) b

@[simp] theorem modeBits_withFiqDisabled (s : StatusWord) (b : Bool) :
    (s.withFiqDisabled b).modeBits = s.modeBits := Word.withBit_and (by decide) b

@[simp] theorem modeBits_withMode (s : StatusWord) (mode : Mode) :
    (s.withMode mode).modeBits = mode.bits := by
  have distributed : (s.withMode mode).modeBits =
      (s.word &&& ~~~modeMask &&& modeMask) ||| (mode.bits &&& modeMask) :=
    Word.or_and_distrib _ _ _
  have cleared : s.word &&& ~~~modeMask &&& modeMask = 0 := by
    rw [UInt32.and_assoc]
    exact UInt32.and_zero
  have inside : mode.bits &&& modeMask = mode.bits := by cases mode <;> rfl
  rw [distributed, cleared, inside, UInt32.zero_or]

@[simp] theorem irqDisabled_withIrqDisabled (s : StatusWord) (b : Bool) :
    (s.withIrqDisabled b).irqDisabled = b :=
  Word.bit_withBit s.word (by decide) (by decide) b

@[simp] theorem irqDisabled_withFiqDisabled (s : StatusWord) (b : Bool) :
    (s.withFiqDisabled b).irqDisabled = s.irqDisabled :=
  Word.bit_withBit s.word (by decide) (by decide) b

@[simp] theorem fiqDisabled_withFiqDisabled (s : StatusWord) (b : Bool) :
    (s.withFiqDisabled b).fiqDisabled = b :=
  Word.bit_withBit s.word (by decide) (by decide) b

end StatusWord

end ArmConsole
