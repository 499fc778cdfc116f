import ArmConsole.Word

/-!
Blocks: byte stores of a fixed size. A block is read through `b[i]`, which asks for a proof that
`i` is in range, or through `b[i]?`. Main statements: `getElem_set_self` and `getElem_set_ne`
say what a write of one byte does to this view, and `getElem_zero` says what a fresh block holds.
-/

namespace ArmConsole

/-- Exactly `n` bytes. -/
structure Block (n : Nat) where
  bytes : ByteArray
  size_bytes : bytes.size = n

namespace Block

variable {n : Nat}

instance : GetElem (Block n) Nat Byte fun _ i => i < n where
  getElem b i h := b.bytes.get i (Nat.lt_of_lt_of_eq h b.size_bytes.symm)

def set (b : Block n) (i : Nat) (v : Byte) (h : i < n) : Block n where
  bytes := b.bytes.set i v (Nat.lt_of_lt_of_eq h b.size_bytes.symm)
  size_bytes := by
    have hb : i < b.bytes.data.size := Nat.lt_of_lt_of_eq h b.size_bytes.symm
    change (b.bytes.data.set i v hb).size = n
    rw [Array.size_set]
    exact b.size_bytes

/-- The bytes from `start` up, `count` of them or as many as there are. -/
def slice (b : Block n) (start count : Nat) : ByteArray := b.bytes.extract start (start + count)

theorem size_slice (b : Block n) {start count : Nat} (h : start + count ≤ n) :
    (b.slice start count).size = count := by
  rw [slice, ByteArray.size_extract, b.size_bytes]
  omega

/-- `b` with `data` from byte `start` up. -/
def blit (b : Block n) (start : Nat) (data : ByteArray) (h : start + data.size ≤ n) : Block n where
  bytes := data.copySlice 0 b.bytes start data.size
  size_bytes := by
    have hb : b.bytes.data.size = n := b.size_bytes
    have hd : start + data.data.size ≤ n := h
    change (data.copySlice 0 b.bytes start data.size).data.size = n
    simp only [ByteArray.copySlice, ByteArray.size, Array.size_append, Array.size_extract]
    omega

/-- `count` zero bytes, made by doubling. -/
def zeroBytes (count : Nat) : ByteArray :=
  if count = 0 then .empty
  else
    let half := zeroBytes (count / 2)
    let even := half ++ half
    if count % 2 = 0 then even else even.push 0

theorem size_zeroBytes (count : Nat) : (zeroBytes count).size = count := by
  fun_induction zeroBytes count with
  | case1 => rfl
  | case2 count _ half even parity ih =>
    simp only [even, ByteArray.size_append, half, ih]
    omega
  | case3 count _ half even parity ih =>
    simp only [ByteArray.size_push, even, ByteArray.size_append, half, ih]
    omega

def zero (n : Nat) : Block n := ⟨zeroBytes n, size_zeroBytes n⟩

instance : Inhabited (Block n) := ⟨zero n⟩

/-- The bytes of `data` followed by zeros, if `data` fits. -/
def padded? (n : Nat) (data : ByteArray) : Option (Block n) :=
  if h : data.size ≤ n then some ((zero n).blit 0 data (by omega)) else none

@[inline] def word (b : Block n) (i : Nat) (h : i + 4 ≤ n) : Word :=
  have : i + 1 < n := by omega
  have : i + 2 < n := by omega
  have : i + 3 < n := by omega
  have : i < n := by omega
  .ofBytes b[i] b[i + 1] b[i + 2] b[i + 3]

@[inline] def halfWord (b : Block n) (i : Nat) (h : i + 2 ≤ n) : HalfWord :=
  have : i + 1 < n := by omega
  have : i < n := by omega
  .ofBytes b[i] b[i + 1]

theorem getElem_set_self (b : Block n) {i : Nat} (v : Byte) (h : i < n) : (b.set i v h)[i] = v :=
  Array.getElem_set_self (Nat.lt_of_lt_of_eq h b.size_bytes.symm)

theorem getElem_set_ne (b : Block n) {i j : Nat} (v : Byte) (h : i < n) (hj : j < n) (hij : i ≠ j) :
    (b.set i v h)[j] = b[j] :=
  Array.getElem_set_ne (Nat.lt_of_lt_of_eq h b.size_bytes.symm)
    (Nat.lt_of_lt_of_eq hj b.size_bytes.symm) hij

theorem data_zeroBytes (count : Nat) : (zeroBytes count).data = .replicate count 0 := by
  fun_induction zeroBytes count with
  | case1 => rfl
  | case2 count _ half even parity ih =>
    simp only [even, ByteArray.data_append, half, ih, Array.replicate_append_replicate]
    congr 1
    omega
  | case3 count _ half even parity ih =>
    simp only [even, ByteArray.data_push, ByteArray.data_append, half, ih,
      Array.replicate_append_replicate, ← Array.replicate_succ]
    congr 1
    omega

theorem getElem_zero {i : Nat} (h : i < n) : (zero n)[i] = 0 := by
  have key : ∀ (a : Array Byte) (ha : i < a.size), a = .replicate n 0 → a[i] = 0 := by
    rintro _ ha rfl
    exact Array.getElem_replicate _
  exact key _ _ (data_zeroBytes n)

end Block

end ArmConsole
