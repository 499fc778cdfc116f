import ArmConsole.Proofs.Processor.Change

/-!
Exceptions. An entry disables IRQ, selects the mode of the exception and goes to its vector,
whatever the processor was before.
-/

namespace ArmConsole

namespace Processor

@[simp] theorem mode_enter (p : Processor) (e : Exception) (returnAddress : Word) :
    (p.enter e returnAddress).mode = e.mode := rfl

@[simp] theorem stalled_enter (p : Processor) (e : Exception) (returnAddress : Word) :
    (p.enter e returnAddress).stalled = p.stalled := rfl

@[simp] theorem stalled_spend (p : Processor) (cycles : Word) :
    (p.spend cycles).stalled = p.stalled := rfl

@[simp] theorem pc_enter (p : Processor) (e : Exception) (returnAddress : Word) :
    (p.enter e returnAddress).pc = e.vector :=
  Vector.getElem_set_self (by decide)

theorem status_enter (p : Processor) (e : Exception) (returnAddress : Word) :
    (p.enter e returnAddress).status =
      if e = .fiq then
        ((p.status.withMode e.mode).withIrqDisabled true).withFiqDisabled true
      else (p.status.withMode e.mode).withIrqDisabled true := rfl

theorem irqDisabled_enter (p : Processor) (e : Exception) (returnAddress : Word) :
    (p.enter e returnAddress).status.irqDisabled = true := by
  rw [status_enter]
  split
  · rw [StatusWord.irqDisabled_withFiqDisabled, StatusWord.irqDisabled_withIrqDisabled]
  · rw [StatusWord.irqDisabled_withIrqDisabled]

theorem fiqDisabled_enter (p : Processor) (returnAddress : Word) :
    (p.enter .fiq returnAddress).status.fiqDisabled = true := by
  rw [status_enter, if_pos rfl, StatusWord.fiqDisabled_withFiqDisabled]

theorem coherent_enter (p : Processor) (e : Exception) (returnAddress : Word) :
    (p.enter e returnAddress).Coherent := by
  rw [Coherent, status_enter, mode_enter]
  split
  · rw [StatusWord.modeBits_withFiqDisabled, StatusWord.modeBits_withIrqDisabled,
      StatusWord.modeBits_withMode]
  · rw [StatusWord.modeBits_withIrqDisabled, StatusWord.modeBits_withMode]

/-! ### Requests -/

section Sampling

variable {p : Processor} {needed : Bool}

theorem sampleFiq_of_masked (masked : p.status.fiqDisabled = true) : p.sampleFiq needed = p :=
  if_pos masked

theorem sampleFiq_of_quiet (quiet : (p.fiqLine || needed) = false) : p.sampleFiq needed = p := by
  unfold sampleFiq
  rw [quiet]
  exact ite_self p

theorem sampleFiq_of_asked (enabled : p.status.fiqDisabled = false)
    (asked : (p.fiqLine || needed) = true) :
    p.sampleFiq needed = { p with fiqLine := false }.enter .fiq (p.pc + 4) := by
  rw [sampleFiq, enabled, if_neg Bool.false_ne_true, if_pos asked]

end Sampling

/-- A request is taken, which makes an FIQ of it, or nothing happens. -/
theorem sampleFiq_cases (p : Processor) (needed : Bool) :
    p.sampleFiq needed = p ∨
      p.sampleFiq needed = { p with fiqLine := false }.enter .fiq (p.pc + 4) := by
  unfold sampleFiq
  split
  · exact .inl rfl
  · split
    · exact .inr rfl
    · exact .inl rfl

theorem Coherent.sampleFiq {p : Processor} (coherent : p.Coherent) (needed : Bool) :
    (p.sampleFiq needed).Coherent := by
  obtain stays | taken := p.sampleFiq_cases needed
  · rw [stays]
    exact coherent
  · rw [taken]
    exact coherent_enter _ _ _

end Processor

end ArmConsole
