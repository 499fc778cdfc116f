import ArmConsole.Device.VideoSerial

/-!
An engine to put behind a serial interface that is being looked at. It stores the mask of every
write in VRAM, and what has been done at the interface can be read as text.
-/

namespace ArmConsole

/-- Stores the mask as the word of VRAM that holds the byte at the offset, modulo the size of
VRAM. -/
def SerialEngine.probe : SerialEngine where
  write _ offset mask vram :=
    have : (offset &&& 0xFFFFC).toNat < 0xFFFFD := Word.toNat_and_lt (by decide)
    have := GuestMemory.size_lowBytes 4 mask
    have := GuestMemory.layout
    vram.blit (offset &&& 0xFFFFC).toNat (GuestMemory.lowBytes 4 mask) (by omega)

def SerialAccess.text : SerialAccess → String
  | source offset => s!"source {offset}"
  | write offset mask _ => s!"write {offset} {mask}"

end ArmConsole
