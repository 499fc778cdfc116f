import ArmConsole.Proofs.Expansion.Snapshot

/-!
The byte stream of the device that the select register shows. A bus from which bytes have been taken
differs from the one before in that device alone, and the byte that it yields next is the next one
of the stream.
-/

namespace ArmConsole

variable {δ : Type} [ExpansionDevice δ]

namespace ExpansionDevice

/-- A device from which `count` bytes have been taken. -/
def drained (device : δ) : Nat → δ
  | 0 => device
  | count + 1 => (data (drained device count)).2

/-- Byte `n` of what a device has to say. -/
def streamByte (device : δ) (n : Nat) : Byte := (data (drained device n)).1

theorem data_drained (device : δ) (n : Nat) :
    data (drained device n) = (streamByte device n, drained device (n + 1)) := rfl

end ExpansionDevice

namespace ExpansionBus

open ExpansionDevice (drained streamByte data_drained)

/-- Byte `n` of the stream of the device in slot `select`. Without a device it is zero. -/
def stream (bus : ExpansionBus δ) (n : Nat) : Byte :=
  match bus.slots[bus.select.toNat]? with
  | some (some device) => streamByte device n
  | _ => 0

/-- The bus when `count` bytes have been taken from the device in slot `select`. -/
def drain (bus : ExpansionBus δ) (count : Nat) : ExpansionBus δ where
  slots := .ofFn fun i =>
    if i.val = bus.select.toNat then (bus.slot i).map (drained · count) else bus.slot i
  select := bus.select

theorem slot_drain (bus : ExpansionBus δ) (count : Nat) (i : Fin 15) :
    (bus.drain count).slot i =
      if i.val = bus.select.toNat then (bus.slot i).map (drained · count) else bus.slot i :=
  Vector.getElem_ofFn i.isLt

omit [ExpansionDevice δ] in
theorem eq_of_slots {bus other : ExpansionBus δ} (slots : ∀ i, bus.slot i = other.slot i)
    (select : bus.select = other.select) : bus = other := by
  obtain ⟨devices, select'⟩ := bus
  cases select
  congr 1
  apply Vector.ext
  intro i inside
  exact slots ⟨i, inside⟩

theorem drain_zero (bus : ExpansionBus δ) : bus.drain 0 = bus := by
  apply eq_of_slots
  · intro i
    have same : (bus.slot i).map (drained · 0) = bus.slot i := Option.map_id'
    rw [slot_drain, same, ite_self]
  · rfl

/-! ### One byte -/

section Asking

omit [ExpansionDevice δ]

variable {α : Type} [Inhabited α] {bus : ExpansionBus δ}

theorem ask_of_eq (bus : ExpansionBus δ) {i : Fin 15} (shown : i.val = bus.select.toNat)
    (f : δ → Byte × δ) : bus.ask f = bus.askSlot i f := by
  have inside : bus.select.toNat < 15 := shown ▸ i.isLt
  have here : ⟨bus.select.toNat, inside⟩ = i := Fin.ext shown.symm
  unfold ask selected?
  rw [dif_pos inside, here]

theorem ask_of_not_lt (bus : ExpansionBus δ) (beyond : ¬bus.select.toNat < 15)
    (f : δ → Byte × δ) : bus.ask f = (0, bus) := by
  unfold ask selected?
  rw [dif_neg beyond]

theorem askSlot_of_none {i : Fin 15} (vacant : bus.slot i = none) (f : δ → α × δ) :
    bus.askSlot i f = (default, bus) := by
  unfold askSlot
  rw [vacant]

theorem askSlot_of_some {i : Fin 15} {device : δ} (plugged : bus.slot i = some device)
    (f : δ → α × δ) :
    bus.askSlot i f = ((f device).1, bus.withSlot i (some (f device).2)) := by
  unfold askSlot
  rw [plugged]

end Asking

variable {bus : ExpansionBus δ}

/-- Without a device there is nothing to take. -/
theorem drain_of_vacant (vacant : ∀ i : Fin 15, i.val = bus.select.toNat → bus.slot i = none)
    (count : Nat) : bus.drain count = bus := by
  apply eq_of_slots
  · intro i
    rw [slot_drain]
    split
    next same =>
      rw [vacant i same]
      rfl
    next => rfl
  · rfl

/-- Taking bytes changes the device in slot `select` and nothing else. -/
theorem drain_withSlot {i : Fin 15} {device : δ} (shown : i.val = bus.select.toNat)
    (plugged : bus.slot i = some device) (taken count : Nat) :
    (bus.drain taken).withSlot i (some (drained device count)) = bus.drain count := by
  apply eq_of_slots
  · intro j
    rw [slot_drain]
    split
    next same =>
      have here : j = i := Fin.ext (same.trans shown.symm)
      rw [here, plugged]
      exact Vector.getElem_set_self i.isLt
    next other =>
      have apart : i.val ≠ j.val := fun same => other (same ▸ shown)
      have kept := bus.slot_drain taken j
      rw [if_neg other] at kept
      exact (Vector.getElem_set_ne i.isLt j.isLt apart).trans kept
  · rfl

/-- Data is read byte by byte along the stream. -/
theorem data_drain (bus : ExpansionBus δ) (n : Nat) :
    (bus.drain n).data = (bus.stream n, bus.drain (n + 1)) := by
  by_cases inside : bus.select.toNat < 15
  · let here : Fin 15 := ⟨bus.select.toNat, inside⟩
    have found : bus.slots[bus.select.toNat]? = some (bus.slot here) :=
      Vector.getElem?_eq_getElem inside
    have shown : (bus.drain n).slot here = (bus.slot here).map (drained · n) :=
      (bus.slot_drain n here).trans (if_pos rfl)
    rw [data, (bus.drain n).ask_of_eq (i := here) rfl, stream, found]
    cases plugged : bus.slot here with
    | none =>
      rw [plugged] at shown
      have vacant (i : Fin 15) (same : i.val = bus.select.toNat) : bus.slot i = none :=
        Fin.ext (b := here) same ▸ plugged
      rw [askSlot_of_none shown, drain_of_vacant vacant, drain_of_vacant vacant]
      rfl
    | some device =>
      rw [plugged] at shown
      rw [askSlot_of_some shown, data_drained, drain_withSlot rfl plugged]
  · have beyond : bus.slots[bus.select.toNat]? = none :=
      Vector.getElem?_eq_none (Nat.le_of_not_lt inside)
    have vacant (i : Fin 15) (same : i.val = bus.select.toNat) : bus.slot i = none :=
      absurd (same ▸ i.isLt) inside
    rw [data, (bus.drain n).ask_of_not_lt inside, stream, beyond,
      drain_of_vacant vacant, drain_of_vacant vacant]

end ExpansionBus

end ArmConsole
