import ArmConsole.Word

/-!
The register map of the system controller, a window of 64 KB. An offset names a register with a
function, a halfword or pair of halfwords in the signal processor's memories, or a plain word of
the register file. A memory of the signal processor can be reached in words, which are pairs of
its halfwords, or in single halfwords.

| offset | register |
|---|---|
| 0x0000 | revision |
| 0x0040, 0x0044 | primary pending, set and clear; 0x0048, 0x004C enable |
| 0x0060, 0x0064 | secondary pending, set and clear; 0x0068, 0x006C enable |
| 0x0100 + 8 t | counter of timer t, and 4 further its backup |
| 0x0200, 0x0204 | control of timers 0 to 7, set and clear; 0x0208, 0x020C of 8 to 15 |
| 0x0304, 0x0308 | transfer enable, set and clear |
| 0x0400 + 16 c | input channel c, four registers |
| 0x0500 + 16 c | output channel c, four registers |
| 0x0580 to 0x05BF | expansion bus |
| 0x17D0, 0x17E8, 0x17FC | semaphore, reset and run of the signal processor |
| 0x1800 to 0x1FFF | instruction memory in pairs |
| 0x2000 to 0x2FFF | instruction memory |
| 0x3000 to 0x33FF | data memory in pairs |
| 0x3400 to 0x37FF | data memory |
-/

namespace ArmConsole

/-- Of two neighbouring registers, the one that sets bits or the one that clears them. -/
inductive BitAccess where
  | set | clear
  deriving DecidableEq, Inhabited

inductive ControllerRegister where
  | instructionPair (i : Fin 512)
  | instruction (i : Fin 1024)
  | dataPair (i : Fin 256)
  | datum (i : Fin 256)
  | revision
  | primaryPending (access : BitAccess)
  | primaryEnable (access : BitAccess)
  | secondaryPending (access : BitAccess)
  | secondaryEnable (access : BitAccess)
  | timerCounter (t : Fin 16)
  | timerBackup (t : Fin 16)
  | timerControl (high : Bool) (access : BitAccess)
  | transferEnable (access : BitAccess)
  | inputChannel (c : Fin 13)
  | outputChannel (c : Fin 4)
  | expansion
  | semaphore
  | processorReset
  | processorRun
  | plain
  deriving DecidableEq, Inhabited

namespace ControllerRegister

def ofNat (offset : Nat) : ControllerRegister :=
  if offset < 0x100 then
    match offset / 4 with
    | 0x00 => revision
    | 0x10 => primaryPending .set
    | 0x11 => primaryPending .clear
    | 0x12 => primaryEnable .set
    | 0x13 => primaryEnable .clear
    | 0x18 => secondaryPending .set
    | 0x19 => secondaryPending .clear
    | 0x1A => secondaryEnable .set
    | 0x1B => secondaryEnable .clear
    | _ => plain
  else if h : offset < 0x180 then
    let t : Fin 16 := ⟨(offset - 0x100) / 8, by omega⟩
    if offset / 4 % 2 = 0 then timerCounter t else timerBackup t
  else if offset < 0x400 then
    match offset / 4 with
    | 0x80 => timerControl false .set
    | 0x81 => timerControl false .clear
    | 0x82 => timerControl true .set
    | 0x83 => timerControl true .clear
    | 0xC1 => transferEnable .set
    | 0xC2 => transferEnable .clear
    | _ => plain
  else if h : offset < 0x4D0 then inputChannel ⟨(offset - 0x400) / 16, by omega⟩
  else if offset < 0x500 then plain
  else if h : offset < 0x540 then outputChannel ⟨(offset - 0x500) / 16, by omega⟩
  else if offset < 0x580 then plain
  else if offset < 0x5C0 then expansion
  else if offset < 0x1800 then
    match offset / 4 with
    | 0x5F4 => semaphore
    | 0x5FA => processorReset
    | 0x5FF => processorRun
    | _ => plain
  else if h : offset < 0x2000 then instructionPair ⟨(offset - 0x1800) / 4, by omega⟩
  else if h : offset < 0x3000 then instruction ⟨(offset - 0x2000) / 4, by omega⟩
  else if h : offset < 0x3400 then dataPair ⟨(offset - 0x3000) / 4, by omega⟩
  else if h : offset < 0x3800 then datum ⟨(offset - 0x3400) / 4, by omega⟩
  else plain

/-- The window repeats every 64 KB. -/
def ofOffset (offset : Word) : ControllerRegister := ofNat (offset &&& 0xFFFC).toNat

end ControllerRegister

end ArmConsole
