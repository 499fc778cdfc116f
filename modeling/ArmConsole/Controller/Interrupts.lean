import ArmConsole.Word

/-!
Interrupt registers. There are 32 primary and 32 secondary sources, each with a pending and an
enable bit. Bit 31 of primary pending says whether any secondary source is pending; every
operation that can change a pending bit recomputes it.
-/

namespace ArmConsole

structure Interrupts where
  primaryPending : Word
  primaryEnable : Word
  secondaryPending : Word
  secondaryEnable : Word
  deriving DecidableEq

namespace Interrupts

def none : Interrupts := ⟨0, 0, 0, 0⟩

instance : Inhabited Interrupts := ⟨none⟩

/-! ### Primary sources -/

/-- The beam reached the first or the second compare line. -/
def firstLine : Word := (1 : Word) <<< 0
def secondLine : Word := (1 : Word) <<< 1

/-- A device on the expansion bus asks for attention. -/
def expansion : Word := (1 : Word) <<< 2

/-- A transfer from the expansion bus is complete. -/
def transferDone : Word := (1 : Word) <<< 29

/-- An output channel used up its buffer. -/
def outputChannel (c : Fin 4) : Word := (1 : Word) <<< (.ofNat (12 + c))

/-- An input channel used up its buffer. -/
def inputChannel (c : Fin 13) : Word := (1 : Word) <<< (.ofNat (16 + c))

/-- An odd timer went below zero. -/
def timer (t : Fin 16) : Word := (1 : Word) <<< (.ofNat (10 - t / 2))

/-- Stands for all secondary sources. -/
def aggregate : Word := (1 : Word) <<< 31

/-! ### Operations -/

def sync (i : Interrupts) : Interrupts :=
  if i.secondaryPending == 0 then { i with primaryPending := i.primaryPending &&& ~~~aggregate }
  else { i with primaryPending := i.primaryPending ||| aggregate }

def setPrimaryPending (i : Interrupts) (bits : Word) : Interrupts :=
  sync { i with primaryPending := i.primaryPending ||| bits }

def clearPrimaryPending (i : Interrupts) (bits : Word) : Interrupts :=
  sync { i with primaryPending := i.primaryPending &&& ~~~bits }

def setSecondaryPending (i : Interrupts) (bits : Word) : Interrupts :=
  sync { i with secondaryPending := i.secondaryPending ||| bits }

def clearSecondaryPending (i : Interrupts) (bits : Word) : Interrupts :=
  sync { i with secondaryPending := i.secondaryPending &&& ~~~bits }

def setPrimaryEnable (i : Interrupts) (bits : Word) : Interrupts :=
  { i with primaryEnable := i.primaryEnable ||| bits }

def clearPrimaryEnable (i : Interrupts) (bits : Word) : Interrupts :=
  { i with primaryEnable := i.primaryEnable &&& ~~~bits }

def setSecondaryEnable (i : Interrupts) (bits : Word) : Interrupts :=
  { i with secondaryEnable := i.secondaryEnable ||| bits }

def clearSecondaryEnable (i : Interrupts) (bits : Word) : Interrupts :=
  { i with secondaryEnable := i.secondaryEnable &&& ~~~bits }

def raise (i : Interrupts) (primary secondary : Word) : Interrupts :=
  sync { i with
    primaryPending := i.primaryPending ||| primary
    secondaryPending := i.secondaryPending ||| secondary }

/-- Whether a pending source is enabled, so that the processor is asked for an FIQ. -/
def fiqNeeded (i : Interrupts) : Bool :=
  i.primaryPending &&& i.primaryEnable != 0 || i.secondaryPending &&& i.secondaryEnable != 0

end Interrupts

end ArmConsole
