import ArmConsole.Machine.Execute

/-!
Runs of two machines side by side. If two address spaces answer every access alike and stay related
by it, two machines that differ in their address spaces only go the same way. Main statements:
`Related.step` for a relation between spaces, and `step_invariant` for a property of one space that
every access keeps.
-/

namespace ArmConsole

/-- Equal answers and related states. -/
def Agree {α σ : Type} (R : σ → σ → Prop) (x y : α × σ) : Prop := x.1 = y.1 ∧ R x.2 y.2

variable {δ : Type} [ExpansionDevice δ]

/-- Related spaces cannot be told apart by what a machine does with them. -/
structure AddressSpace.Simulation (R : AddressSpace δ → AddressSpace δ → Prop) : Prop where
  readWord {s t : AddressSpace δ} (address : Word) :
    R s t → Agree R (s.readWord address) (t.readWord address)
  readByte {s t : AddressSpace δ} (address : Word) :
    R s t → Agree R (s.readByte address) (t.readByte address)
  writeWord {s t : AddressSpace δ} (address value : Word) :
    R s t → Agree R (s.writeWord address value) (t.writeWord address value)
  writeByte {s t : AddressSpace δ} (address : Word) (value : Byte) :
    R s t → Agree R (s.writeByte address value) (t.writeByte address value)
  answer {s t : AddressSpace δ} (call : MathCall) (a : MathCall.Arguments) :
    R s t → (call.run s.memory a).1 = (call.run t.memory a).1 ∧
      R { s with memory := (call.run s.memory a).2 } { t with memory := (call.run t.memory a).2 }
  fiqNeeded {s t : AddressSpace δ} :
    R s t → s.io.controller.interrupts.fiqNeeded = t.io.controller.interrupts.fiqNeeded

namespace Machine

open Processor (lookAhead sequential)

variable {R : AddressSpace δ → AddressSpace δ → Prop} {m n : Machine δ}

/-- Equal but for the address space, which is related. -/
inductive Related (R : AddressSpace δ → AddressSpace δ → Prop) : Machine δ → Machine δ → Prop
  | intro {s t : AddressSpace δ} (p : Processor) (calls : Option CallTable)
      (redirects : Option RedirectList) :
      R s t → Related R ⟨p, s, calls, redirects⟩ ⟨p, t, calls, redirects⟩

namespace Related

omit [ExpansionDevice δ] in
theorem processor (related : Related R m n) : m.processor = n.processor := by
  cases related
  rfl

omit [ExpansionDevice δ] in
theorem calls (related : Related R m n) : m.calls = n.calls := by
  cases related
  rfl

omit [ExpansionDevice δ] in
theorem redirects (related : Related R m n) : m.redirects = n.redirects := by
  cases related
  rfl

omit [ExpansionDevice δ] in
theorem space (related : Related R m n) : R m.space n.space := by
  cases related
  assumption

omit [ExpansionDevice δ] in
theorem mapProcessor (related : Related R m n) (f : Processor → Processor) :
    Related R (m.mapProcessor f) (n.mapProcessor f) := by
  cases related with
  | intro p calls redirects same => exact .intro (f p) calls redirects same

section Accesses

variable (simulation : AddressSpace.Simulation R)

include simulation

theorem readWord (related : Related R m n) (address : Word) :
    Agree (Related R) (m.readWord address) (n.readWord address) := by
  cases related with
  | intro p calls redirects same =>
    obtain ⟨answer, rest⟩ := simulation.readWord address same
    exact ⟨answer, .intro p calls redirects rest⟩

theorem readByte (related : Related R m n) (address : Word) :
    Agree (Related R) (m.readByte address) (n.readByte address) := by
  cases related with
  | intro p calls redirects same =>
    obtain ⟨answer, rest⟩ := simulation.readByte address same
    exact ⟨answer, .intro p calls redirects rest⟩

theorem writeWord (related : Related R m n) (address value : Word) :
    Related R (m.writeWord address value) (n.writeWord address value) := by
  cases related with
  | @intro s t p calls redirects same =>
    obtain ⟨stalled, rest⟩ := simulation.writeWord address value same
    change Related R ⟨{ p with stalled := p.stalled || (s.writeWord address value).1 }, _, _, _⟩ _
    rw [stalled]
    exact .intro _ calls redirects rest

theorem writeByte (related : Related R m n) (address : Word) (value : Byte) :
    Related R (m.writeByte address value) (n.writeByte address value) := by
  cases related with
  | @intro s t p calls redirects same =>
    obtain ⟨stalled, rest⟩ := simulation.writeByte address value same
    change Related R ⟨{ p with stalled := p.stalled || (s.writeByte address value).1 }, _, _, _⟩ _
    rw [stalled]
    exact .intro _ calls redirects rest

theorem readData (related : Related R m n) (width : Width) (address : Word) :
    Agree (Related R) (m.readData width address) (n.readData width address) := by
  cases width with
  | byte =>
    obtain ⟨answer, rest⟩ := related.readByte simulation address
    exact ⟨congrArg UInt8.toUInt32 answer, rest⟩
  | word =>
    obtain ⟨answer, rest⟩ := related.readWord simulation (wordAddress address)
    exact ⟨congrArg (rotateToByte · address) answer, rest⟩

theorem writeData (related : Related R m n) (width : Width) (address value : Word) :
    Related R (m.writeData width address value) (n.writeData width address value) := by
  cases width with
  | byte => exact related.writeByte simulation address value.toUInt8
  | word => exact related.writeWord simulation (wordAddress address) value

/-! ### Instructions -/

theorem swap (related : Related R m n) (i : Swap) : Related R (m.swap i) (n.swap i) := by
  unfold Machine.swap
  dsimp only
  rw [related.processor]
  obtain ⟨old, read⟩ := related.readData simulation i.width (n.processor.operand i.base lookAhead)
  rw [old]
  exact (read.writeData simulation _ _ _).mapProcessor _

theorem singleTransfer (related : Related R m n) (i : SingleTransfer) :
    Related R (m.singleTransfer i) (n.singleTransfer i) := by
  unfold Machine.singleTransfer
  dsimp only
  rw [related.processor]
  generalize (if i.indexing = .pre then _ else _ : Word) = address
  split
  · obtain ⟨value, read⟩ := related.readData simulation i.width address
    rw [value]
    exact read.mapProcessor _
  · exact (related.writeData simulation _ _ _).mapProcessor _

theorem loadRegisters (related : Related R m n) (user : Bool) (address : Word)
    (registers : List RegisterNumber) :
    Related R (m.loadRegisters user address registers)
      (n.loadRegisters user address registers) := by
  induction registers generalizing m n address with
  | nil => exact related
  | cons r rs ih =>
    unfold Machine.loadRegisters
    obtain ⟨value, read⟩ := related.readWord simulation (wordAddress address)
    dsimp only
    rw [value]
    exact ih (read.mapProcessor _) _

theorem storeValues (related : Related R m n) (address : Word) (values : List Word) :
    Related R (m.storeValues address values) (n.storeValues address values) := by
  induction values generalizing m n address with
  | nil => exact related
  | cons v vs ih => exact ih (related.writeWord simulation _ v) _

theorem blockTransfer (related : Related R m n) (i : BlockTransfer) :
    Related R (m.blockTransfer i) (n.blockTransfer i) := by
  unfold Machine.blockTransfer
  dsimp only
  rw [related.processor]
  split
  · exact ((related.mapProcessor _).loadRegisters simulation _ _ _).mapProcessor _
  · exact (related.storeValues simulation _ _).mapProcessor _

theorem callNatively (related : Related R m n) (call : MathCall) :
    Related R (m.callNatively call) (n.callNatively call) := by
  cases related with
  | @intro s t p calls redirects same =>
    obtain ⟨result, rest⟩ := simulation.answer call p.arguments same
    unfold Machine.callNatively
    dsimp only
    rw [result]
    exact .intro _ calls redirects rest

theorem softwareInterrupt (related : Related R m n) (comment : Word) :
    Related R (m.softwareInterrupt comment) (n.softwareInterrupt comment) := by
  unfold Machine.softwareInterrupt
  rw [related.calls]
  split
  · exact related.callNatively simulation _
  · exact related.mapProcessor _

theorem execute (related : Related R m n) (i : Instruction) :
    Related R (m.execute i) (n.execute i) := by
  cases i with
  | dataProcessing i => exact related.mapProcessor fun p => p.dataProcessing i
  | readStatus source rd => exact related.mapProcessor fun p => p.readStatus source rd
  | writeStatus i => exact related.mapProcessor fun p => p.writeStatus i
  | multiply i => exact related.mapProcessor fun p => p.multiply i
  | swap i => exact related.swap simulation i
  | singleTransfer i => exact related.singleTransfer simulation i
  | blockTransfer i => exact related.blockTransfer simulation i
  | branch link offset => exact related.mapProcessor fun p => p.branch link offset
  | softwareInterrupt comment => exact related.softwareInterrupt simulation comment
  | coprocessor => exact related.mapProcessor Processor.trapUndefined
  | undefined => exact related.mapProcessor Processor.trapUndefined

theorem executeWord (related : Related R m n) (w : Word) :
    Related R (m.executeWord w) (n.executeWord w) := by
  unfold Machine.executeWord
  rw [related.processor]
  split
  · exact related.execute simulation _
  · exact related

/-! ### Step -/

omit simulation in
omit [ExpansionDevice δ] in
theorem redirect (related : Related R m n) : Related R m.redirect n.redirect := by
  cases related with
  | intro p calls redirects same => cases redirects <;> exact .intro _ calls _ same

theorem fetch (related : Related R m n) : Agree (Related R) m.fetch n.fetch := by
  unfold Machine.fetch
  dsimp only
  rw [related.processor]
  obtain ⟨word, read⟩ := related.readWord simulation (wordAddress n.processor.pc)
  exact ⟨word, read.mapProcessor fun p => p.withPc (wordAddress n.processor.pc + 4)⟩

theorem sampleFiq (related : Related R m n) : Related R m.sampleFiq n.sampleFiq := by
  unfold Machine.sampleFiq
  dsimp only
  rw [simulation.fiqNeeded related.space]
  exact related.mapProcessor _

/-- Machines that cannot be told apart take the same step. -/
theorem step (related : Related R m n) : Related R m.step n.step := by
  have started := (related.mapProcessor fun p => { p with cycles := sequential, stalled := false })
  obtain ⟨word, ready⟩ := started.redirect.fetch simulation
  unfold Machine.step
  dsimp only
  rw [word]
  exact ((ready.executeWord simulation _).mapProcessor _).sampleFiq simulation

end Accesses

end Related

end Machine

/-! ### Properties of one space -/

namespace AddressSpace

/-- A property that every access keeps. -/
structure Invariant (P : AddressSpace δ → Prop) : Prop where
  readWord {s : AddressSpace δ} (address : Word) : P s → P (s.readWord address).2
  readByte {s : AddressSpace δ} (address : Word) : P s → P (s.readByte address).2
  writeWord {s : AddressSpace δ} (address value : Word) : P s → P (s.writeWord address value).2
  writeByte {s : AddressSpace δ} (address : Word) (value : Byte) :
    P s → P (s.writeByte address value).2
  answer {s : AddressSpace δ} (call : MathCall) (a : MathCall.Arguments) :
    P s → P { s with memory := (call.run s.memory a).2 }

/-- A property is kept if a space that has it stays related to itself. -/
theorem Invariant.simulation {P : AddressSpace δ → Prop} (invariant : Invariant P) :
    Simulation fun s t => s = t ∧ P s where
  readWord := by
    rintro s _ address ⟨rfl, holds⟩
    exact ⟨rfl, rfl, invariant.readWord address holds⟩
  readByte := by
    rintro s _ address ⟨rfl, holds⟩
    exact ⟨rfl, rfl, invariant.readByte address holds⟩
  writeWord := by
    rintro s _ address value ⟨rfl, holds⟩
    exact ⟨rfl, rfl, invariant.writeWord address value holds⟩
  writeByte := by
    rintro s _ address value ⟨rfl, holds⟩
    exact ⟨rfl, rfl, invariant.writeByte address value holds⟩
  answer := by
    rintro s _ call a ⟨rfl, holds⟩
    exact ⟨rfl, rfl, invariant.answer call a holds⟩
  fiqNeeded := by
    rintro s _ ⟨rfl, -⟩
    rfl

/-- A property of the peripherals is kept by all accesses if it is kept outside of RAM. -/
theorem invariant_of_io {P : Peripherals δ → Prop}
    (read : ∀ (s : AddressSpace δ) w, P s.io → P (s.readWindow w).2.io)
    (write : ∀ (s : AddressSpace δ) w value, P s.io → P (s.writeWindow w value).2.io) :
    Invariant fun s : AddressSpace δ => P s.io where
  readWord := by
    intro s address holds
    unfold readWord
    split
    · exact holds
    · exact read s _ holds
  readByte := by
    intro s address holds
    unfold readByte
    split
    · exact holds
    · exact holds
    · exact read s _ holds
  writeWord := by
    intro s address value holds
    unfold writeWord
    split
    · exact holds
    · exact write s _ _ holds
  writeByte := by
    intro s address value holds
    unfold writeByte
    split
    · exact holds
    · exact write s _ _ holds
  answer _ _ holds := holds

end AddressSpace

theorem Machine.step_invariant {P : AddressSpace δ → Prop} (invariant : AddressSpace.Invariant P)
    {m : Machine δ} (holds : P m.space) : P m.step.space := by
  have related : Related (fun s t => s = t ∧ P s) m m :=
    .intro m.processor m.calls m.redirects ⟨rfl, holds⟩
  exact (related.step invariant.simulation).space.2

end ArmConsole
