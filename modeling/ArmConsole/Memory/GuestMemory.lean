import ArmConsole.Memory.Block

/-!
Guest memory: working RAM, two ROM banks and NVRAM. RAM is 2 MB of DRAM followed by 1 MB of
VRAM. In high resolution three shadow pages, stored behind RAM, hold copies of VRAM: every write
to VRAM through this interface reaches all three. Main statement: an address in RAM, its aligned
word and the copies of that word lie inside the store, so no access needs a check at run time.
-/

namespace ArmConsole

namespace GuestMemory

abbrev vramStart : Nat := 0x200000

/-- The size of VRAM and of each of its shadow pages. -/
abbrev vramSize : Nat := 0x100000

/-- The end of RAM as the processor sees it. -/
abbrev ramSize : Nat := 0x300000

/-- RAM and the three shadow pages behind it. -/
abbrev storeSize : Nat := 0x600000

abbrev romSize : Nat := 0x100000

/-- NVRAM has one byte for each word of its window. -/
abbrev nvramSize : Nat := 0x8000

/-- The sizes as numbers, for arithmetic on addresses. -/
theorem layout :
    vramStart = 0x200000 ∧ vramSize = 0x100000 ∧ ramSize = 0x300000 ∧ storeSize = 0x600000 ∧
      romSize = 0x100000 :=
  ⟨rfl, rfl, rfl, rfl, rfl⟩

end GuestMemory

abbrev RamAddress := Fin GuestMemory.ramSize

structure GuestMemory where
  /-- DRAM, VRAM and the shadow pages. -/
  store : Block GuestMemory.storeSize
  roms : Vector (Block GuestMemory.romSize) 2
  /-- The bank that the ROM window shows. -/
  romBank : Fin 2
  nvram : Block GuestMemory.nvramSize
  highResolution : Bool

/-- Why a ROM image or bank is refused. -/
inductive RomError where
  | tooLarge (size : Nat)
  | noSuchBank (bank : Nat)
  deriving DecidableEq, Inhabited

def RomError.message : RomError → String
  | tooLarge size => s!"ROM image is {size} bytes, bank holds at most {GuestMemory.romSize}"
  | noSuchBank bank => s!"no ROM bank {bank}, only 0 and 1 exist"

namespace RamAddress

def wordStart (a : RamAddress) : Nat := a.val / 4 * 4

def halfStart (a : RamAddress) : Nat := a.val / 2 * 2

theorem wordStart_le (a : RamAddress) : a.wordStart + 4 ≤ GuestMemory.ramSize := by
  have := a.isLt
  have := GuestMemory.layout
  unfold wordStart
  omega

theorem halfStart_le (a : RamAddress) : a.halfStart + 2 ≤ GuestMemory.ramSize := by
  have := a.isLt
  have := GuestMemory.layout
  unfold halfStart
  omega

end RamAddress

namespace GuestMemory

def empty : GuestMemory where
  store := .zero storeSize
  roms := .replicate 2 (.zero romSize)
  romBank := 0
  nvram := .zero nvramSize
  highResolution := false

instance : Inhabited GuestMemory := ⟨empty⟩

/-! ### ROM -/

/-- Puts an image at the start of a bank and zeros behind it. The size is checked first. -/
def loadRom (m : GuestMemory) (bank : Nat) (image : ByteArray) : Except RomError GuestMemory :=
  match Block.padded? romSize image with
  | none => .error (.tooLarge image.size)
  | some rom =>
    if h : bank < 2 then .ok { m with roms := m.roms.set bank rom }
    else .error (.noSuchBank bank)

def selectRom (m : GuestMemory) (bank : Nat) : Except RomError GuestMemory :=
  if h : bank < 2 then .ok { m with romBank := ⟨bank, h⟩ } else .error (.noSuchBank bank)

/-- The byte of a bank that an address in the ROM window shows. -/
def romOffset (address : Word) : Fin romSize :=
  ⟨(address &&& 0xFFFFF).toNat, Word.toNat_and_lt (by decide)⟩

/-- The word of the selected bank that holds the byte at `offset`. -/
def readRom (m : GuestMemory) (offset : Fin romSize) : Word :=
  have : offset.val / 4 * 4 + 4 ≤ romSize := by
    have := offset.isLt
    have := layout
    omega
  m.roms[m.romBank].word (offset.val / 4 * 4) this

/-! ### RAM -/

/-- Replaces one byte of RAM. If `shadowed`, a byte of VRAM is replaced in the shadows too. -/
def storeByte (store : Block storeSize) (shadowed : Bool) (a : RamAddress) (v : Byte) :
    Block storeSize :=
  have := a.isLt
  have := layout
  let store := store.set a.val v (by omega)
  if shadowed && vramStart ≤ a.val then
    ((store.set (a.val + vramSize) v (by omega)).set (a.val + 2 * vramSize) v
      (by omega)).set (a.val + 3 * vramSize) v (by omega)
  else store

def storeHalfWord (store : Block storeSize) (shadowed : Bool) (a : RamAddress) (v : HalfWord) :
    Block storeSize :=
  have h := a.halfStart_le
  let store := storeByte store shadowed ⟨a.halfStart, by omega⟩ v.byte0
  storeByte store shadowed ⟨a.halfStart + 1, by omega⟩ v.byte1

def storeWord (store : Block storeSize) (shadowed : Bool) (a : RamAddress) (v : Word) :
    Block storeSize :=
  have h := a.wordStart_le
  let store := storeByte store shadowed ⟨a.wordStart, by omega⟩ v.byte0
  let store := storeByte store shadowed ⟨a.wordStart + 1, by omega⟩ v.byte1
  let store := storeByte store shadowed ⟨a.wordStart + 2, by omega⟩ v.byte2
  storeByte store shadowed ⟨a.wordStart + 3, by omega⟩ v.byte3

def readByte (m : GuestMemory) (a : RamAddress) : Byte :=
  have : a.val < storeSize := Nat.lt_of_lt_of_le a.isLt (by decide)
  m.store[a.val]

def readHalfWord (m : GuestMemory) (a : RamAddress) : HalfWord :=
  m.store.halfWord a.halfStart (Nat.le_trans a.halfStart_le (by decide))

def readWord (m : GuestMemory) (a : RamAddress) : Word :=
  m.store.word a.wordStart (Nat.le_trans a.wordStart_le (by decide))

def writeByte (m : GuestMemory) (a : RamAddress) (v : Byte) : GuestMemory :=
  { m with store := storeByte m.store m.highResolution a v }

def writeHalfWord (m : GuestMemory) (a : RamAddress) (v : HalfWord) : GuestMemory :=
  { m with store := storeHalfWord m.store m.highResolution a v }

def writeWord (m : GuestMemory) (a : RamAddress) (v : Word) : GuestMemory :=
  { m with store := storeWord m.store m.highResolution a v }

/-- RAM as the processor sees it. -/
def ram (m : GuestMemory) : ByteArray := m.store.slice 0 ramSize

/-- What every shadow page has to hold: VRAM in high resolution, zeros otherwise. -/
def shadowPage (store : Block storeSize) (shadowed : Bool) : ByteArray :=
  if shadowed then store.slice vramStart vramSize else Block.zeroBytes vramSize

theorem size_shadowPage (store : Block storeSize) (shadowed : Bool) :
    (shadowPage store shadowed).size = vramSize := by
  unfold shadowPage
  split
  · exact Block.size_slice _ (by decide)
  · exact Block.size_zeroBytes _

def fillShadows (store : Block storeSize) (shadowed : Bool) : Block storeSize :=
  let page := shadowPage store shadowed
  have : page.size = vramSize := size_shadowPage store shadowed
  have := layout
  ((store.blit ramSize page (by omega)).blit (ramSize + vramSize) page (by omega)).blit
    (ramSize + 2 * vramSize) page (by omega)

/-- Makes the shadow pages anew from VRAM and the resolution. -/
def rederiveShadows (m : GuestMemory) : GuestMemory :=
  { m with store := fillShadows m.store m.highResolution }

/-- Switching high resolution on fills the shadows; switching it off leaves them as they are. -/
def setHighResolution (m : GuestMemory) (enabled : Bool) : GuestMemory :=
  let m := { m with highResolution := enabled }
  if enabled then m.rederiveShadows else m

/-- Shadow page `page`, for `page < 3`. -/
def shadow? (m : GuestMemory) (page : Nat) : Option ByteArray :=
  if page < 3 then some (m.store.slice (ramSize + page * vramSize) vramSize) else none

/-- The low `count` bytes of `value`, most significant first. -/
def lowBytes (count : Nat) (value : Word) : ByteArray :=
  ⟨.ofFn fun i : Fin count => (value >>> (.ofNat (8 * (count - 1 - i)))).toUInt8⟩

theorem size_lowBytes (count : Nat) (value : Word) : (lowBytes count value).size = count :=
  Array.size_ofFn

/-- Replaces bytes of VRAM without touching the shadows, if they fit. -/
def blitVram? (m : GuestMemory) (offset : Nat) (data : ByteArray) : Option GuestMemory :=
  if h : offset + data.size ≤ vramSize then
    some { m with store := m.store.blit (vramStart + offset) data (by have := layout; omega) }
  else none

/-- VRAM as the video hardware sees it. -/
def vram (m : GuestMemory) : ByteArray := m.store.slice vramStart vramSize

def vramBlock (m : GuestMemory) : Block vramSize := ⟨m.vram, m.store.size_slice (by decide)⟩

/-- Replaces all of VRAM without touching the shadows. -/
def withVram (m : GuestMemory) (vram : Block vramSize) : GuestMemory :=
  have : vram.bytes.size = vramSize := vram.size_bytes
  have := layout
  { m with store := m.store.blit vramStart vram.bytes (by omega) }

/-! ### The store without a memory map

Shadow pages can be looked at and written directly. Such an access may miss the store. -/

/-- The big-endian number in the `count` bytes that hold `address`. -/
def peekStore? (m : GuestMemory) (count : Nat) (address : Word) : Option Word :=
  let start := address.toNat / count * count
  if start + count ≤ storeSize then
    some ((m.store.slice start count).data.foldl (fun w b => (w <<< 8) ||| b.toUInt32) 0)
  else none

/-- Replaces bytes of the store, if they fit. -/
def blitStore? (store : Block storeSize) (start : Nat) (data : ByteArray) :
    Option (Block storeSize) :=
  if h : start + data.size ≤ storeSize then some (store.blit start data h) else none

/-- Replaces the `count` bytes that hold `address`, and in high resolution from VRAM up also the
bytes one, two and three pages behind them. -/
def pokeStore? (m : GuestMemory) (count : Nat) (address value : Word) : Option GuestMemory :=
  match m with
  | ⟨store, roms, romBank, nvram, highResolution⟩ =>
    let start := address.toNat / count * count
    let data := lowBytes count value
    let pages := if highResolution && vramStart ≤ start then [0, 1, 2, 3] else [0]
    (pages.foldlM (fun store page => blitStore? store (start + page * vramSize) data) store).map
      fun store => ⟨store, roms, romBank, nvram, highResolution⟩

/-! ### NVRAM -/

/-- The byte of NVRAM that an address in its window shows. -/
def nvramSlot (address : Word) : Fin nvramSize :=
  ⟨((address >>> 2) &&& 0x7FFF).toNat, Word.toNat_and_lt (by decide)⟩

def readNvram (m : GuestMemory) (slot : Fin nvramSize) : Byte := m.nvram[slot.val]

def writeNvram (m : GuestMemory) (slot : Fin nvramSize) (v : Byte) : GuestMemory :=
  { m with nvram := m.nvram.set slot.val v slot.isLt }

/-- Replaces bytes of NVRAM, if they fit. -/
def blitNvram? (m : GuestMemory) (offset : Nat) (data : ByteArray) : Option GuestMemory :=
  if h : offset + data.size ≤ nvramSize then some { m with nvram := m.nvram.blit offset data h }
  else none

/-! ### Images -/

/-- The contents of a memory, without the shadow pages. -/
structure Images where
  ram : Block ramSize
  roms : Vector (Block romSize) 2
  nvram : Block nvramSize
  romBank : Fin 2
  highResolution : Bool

def images (m : GuestMemory) : Images where
  ram := ⟨m.ram, m.store.size_slice (by decide)⟩
  roms := m.roms
  nvram := m.nvram
  romBank := m.romBank
  highResolution := m.highResolution

/-- A memory with these contents, whose shadow pages are made anew. -/
def ofImages (m : GuestMemory) (images : Images) : GuestMemory :=
  have : images.ram.bytes.size = ramSize := images.ram.size_bytes
  have := layout
  rederiveShadows
    { store := m.store.blit 0 images.ram.bytes (by omega)
      roms := images.roms
      nvram := images.nvram
      romBank := images.romBank
      highResolution := images.highResolution }

end GuestMemory

end ArmConsole
