import ArmConsole.Controller.Interrupts

/-!
Timers. Sixteen 16-bit counters go down by one at a tick. Four control bits belong to a timer,
timer 0 having the lowest: bit 0 lets it count, bit 1 reloads it from its backup when it goes
below zero, bit 2 makes it count only when the timer before it goes below zero. Bit 3 is kept
and does nothing. Two timers of which the second cascades form one 32-bit counter.
-/

namespace ArmConsole

structure Timers where
  counter : Vector HalfWord 16
  backup : Vector HalfWord 16
  control : UInt64
  deriving DecidableEq

namespace Timers

def zero : Timers := ⟨.replicate 16 0, .replicate 16 0, 0⟩

instance : Inhabited Timers := ⟨zero⟩

def shift (t : Fin 16) : UInt64 := .ofNat (4 * t)

def flags (timers : Timers) (t : Fin 16) : UInt64 := (timers.control >>> shift t) &&& 0xF

def counts (timers : Timers) (t : Fin 16) : Bool := timers.flags t &&& 1 != 0
def reloads (timers : Timers) (t : Fin 16) : Bool := timers.flags t &&& 2 != 0
def cascades (timers : Timers) (t : Fin 16) : Bool := timers.flags t &&& 4 != 0

/-- Half of the control bits in its place: those of timers 8 to 15 if `high`. -/
def controlBits (high : Bool) (bits : Word) : UInt64 :=
  bits.toUInt64 <<< (if high then 32 else 0)

def setControl (timers : Timers) (high : Bool) (bits : Word) : Timers :=
  { timers with control := timers.control ||| controlBits high bits }

def clearControl (timers : Timers) (high : Bool) (bits : Word) : Timers :=
  { timers with control := timers.control &&& ~~~controlBits high bits }

def controlWord (timers : Timers) (high : Bool) : Word :=
  (timers.control >>> (if high then 32 else 0)).toUInt32

def withCounter (timers : Timers) (t : Fin 16) (v : HalfWord) : Timers :=
  { timers with counter := timers.counter.set t v }

def withBackup (timers : Timers) (t : Fin 16) (v : HalfWord) : Timers :=
  { timers with backup := timers.backup.set t v }

/-- A tick that has reached some timer. -/
structure Progress where
  timers : Timers
  /-- Whether the timer before went below zero. -/
  carry : Bool
  /-- The interrupts of the timers so far. -/
  raised : Word

/-- What a timer does that has gone below zero: it starts again from its backup, or holds. -/
def expire (timers : Timers) (t : Fin 16) : Timers :=
  if timers.reloads t then timers.withCounter t timers.backup[t]
  else
    let timers := timers.withCounter t 0xFFFF
    { timers with control := timers.control &&& ~~~((1 : UInt64) <<< shift t) }

/-- Takes a tick past timer `t`. -/
def advance (p : Progress) (t : Fin 16) : Progress :=
  if !p.timers.counts t then { p with carry := false }
  else if p.timers.cascades t && !p.carry then { p with carry := false }
  else if p.timers.counter[t] == 0 then
    { timers := p.timers.expire t
      carry := true
      raised := if t.val % 2 = 1 then p.raised ||| Interrupts.timer t else p.raised }
  else
    { p with timers := p.timers.withCounter t (p.timers.counter[t] - 1), carry := false }

/-- Takes a tick past all timers, in order; yields the interrupts that they raise. The first
timer counts in any case. -/
def tick (timers : Timers) : Word × Timers :=
  let p := Fin.foldl 16 advance ⟨timers, true, 0⟩
  (p.raised, p.timers)

end Timers

end ArmConsole
