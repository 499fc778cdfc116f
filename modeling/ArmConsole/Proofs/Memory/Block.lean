import ArmConsole.Memory.Block

/-!
Blocks byte by byte. Two blocks are equal if their bytes are, and every operation that changes a
block is described by the bytes that it leaves. As a list, a block is what a file would hold of it.
-/

namespace ArmConsole

namespace Block

variable {n : Nat}

theorem ext_getElem {a b : Block n} (same : ∀ i (h : i < n), a[i] = b[i]) : a = b := by
  obtain ⟨a, hn⟩ := a
  obtain ⟨b, hb⟩ := b
  have bytes : a = b := by
    apply ByteArray.ext
    apply Array.ext (hn.trans hb.symm)
    intro i hi _
    exact same i (Nat.lt_of_lt_of_eq hi hn)
  subst bytes
  rfl

theorem getElem_set (b : Block n) {i j : Nat} (v : Byte) (hi : i < n) (hj : j < n) :
    (b.set i v hi)[j] = if i = j then v else b[j] := by
  split
  next same =>
    subst same
    exact b.getElem_set_self v hi
  next other => exact b.getElem_set_ne v hi hj other

theorem getElem_blit (b : Block n) {start : Nat} {data : ByteArray}
    (fits : start + data.size ≤ n) {i : Nat} (hi : i < n) :
    (b.blit start data fits)[i] =
      if inside : start ≤ i ∧ i < start + data.size then data[i - start] else b[i] := by
  have size : b.bytes.data.size = n := b.size_bytes
  have pieces : (b.blit start data fits).bytes.data =
      b.bytes.data.extract 0 start ++ data.data ++
        b.bytes.data.extract (start + data.data.size) b.bytes.data.size := by
    change (data.copySlice 0 b.bytes start data.size).data = _
    simp only [ByteArray.copySlice, ByteArray.size, Nat.zero_add, Nat.sub_zero, Nat.min_self,
      Array.extract_size]
  have byte : (b.blit start data fits).bytes.data[i]? = some (b.blit start data fits)[i] :=
    Array.getElem?_eq_getElem (Nat.lt_of_lt_of_eq hi (Block.size_bytes _).symm)
  have old : b.bytes.data[i]? = some b[i] := Array.getElem?_eq_getElem (by omega)
  rw [pieces] at byte
  have length : data.data.size = data.size := rfl
  simp only [Array.getElem?_append, Array.getElem?_extract, Array.size_append,
    Array.size_extract] at byte
  have front : min start b.bytes.data.size - 0 = start := by omega
  rw [front, length] at byte
  apply Option.some.inj
  rw [← byte]
  by_cases inside : start ≤ i ∧ i < start + data.size
  · rw [dif_pos inside, if_pos inside.2, if_neg (by omega)]
    exact Array.getElem?_eq_getElem _
  · rw [dif_neg inside, ← old]
    by_cases before : i < start
    · rw [if_pos (by omega), if_pos before, if_pos (by omega), Nat.zero_add]
    · rw [if_neg (by omega), if_pos (by omega)]
      congr 1
      omega

theorem getElem_blit_front (b : Block n) {data : ByteArray} (fits : 0 + data.size ≤ n) {i : Nat}
    (front : i < data.size) (hi : i < n) : (b.blit 0 data fits)[i] = data[i] := by
  rw [getElem_blit, dif_pos (by omega)]
  rfl

theorem word_blit_front (b : Block n) {data : ByteArray} (fits : 0 + data.size ≤ n) {i : Nat}
    (front : i + 4 ≤ data.size) (h : i + 4 ≤ n) :
    (b.blit 0 data fits).word i h = .ofBytes data[i] data[i + 1] data[i + 2] data[i + 3] := by
  have byte (j : Nat) (inside : j < data.size) : (b.blit 0 data fits)[j] = data[j] :=
    b.getElem_blit_front fits inside (by omega)
  unfold word
  dsimp only
  rw [byte i (by omega), byte (i + 1) (by omega), byte (i + 2) (by omega), byte (i + 3) (by omega)]

theorem data_slice (b : Block n) {start count : Nat} (fits : start + count ≤ n) :
    (b.slice start count).data = .ofFn fun i : Fin count => b[start + i.val] := by
  apply Array.ext
  · rw [Array.size_ofFn]
    exact b.size_slice fits
  · intro i hi hj
    rw [Array.getElem_ofFn]
    simp only [slice, ByteArray.data_extract, Array.getElem_extract]
    rfl

theorem getElem_slice (b : Block n) {start count i : Nat} (h : i < (b.slice start count).size)
    (inBlock : start + i < n) : (b.slice start count)[i] = b[start + i] := by
  rw [ByteArray.getElem_eq_getElem_data]
  simp only [slice, ByteArray.data_extract, Array.getElem_extract]
  rfl

theorem slice_eq_of_getElem (b : Block n) {start count : Nat} (fits : start + count ≤ n)
    {data : ByteArray} (size : data.size = count)
    (same : ∀ i (h : i < data.size) (inBlock : start + i < n), b[start + i] = data[i]) :
    b.slice start count = data := by
  apply ByteArray.ext_getElem ((b.size_slice fits).trans size.symm)
  intro i h h'
  rw [b.getElem_slice h (by omega)]
  exact same i h' (by omega)

theorem getElem_zeroBytes {count i : Nat} (h : i < (zeroBytes count).size) :
    (zeroBytes count)[i] = 0 := by
  rw [ByteArray.getElem_eq_getElem_data]
  simp only [data_zeroBytes, Array.getElem_replicate]

/-! ### Lists -/

def toList (b : Block n) : List Byte := b.bytes.data.toList

def ofList (bytes : List Byte) (length : bytes.length = n) : Block n := ⟨⟨bytes.toArray⟩, length⟩

@[simp] theorem length_toList (b : Block n) : b.toList.length = n := b.size_bytes

theorem toList_inj {a b : Block n} : a.toList = b.toList ↔ a = b := by
  constructor
  · intro same
    obtain ⟨a, ha⟩ := a
    obtain ⟨b, hb⟩ := b
    have bytes : a = b := ByteArray.ext (Array.toList_inj.1 same)
    subst bytes
    rfl
  · exact congrArg toList

theorem toList_eq_ofFn (b : Block n) : b.toList = .ofFn fun i : Fin n => b[i.val] := by
  apply List.ext_getElem (by rw [length_toList, List.length_ofFn])
  intro i hi hi'
  rw [List.getElem_ofFn]
  exact Array.getElem_toList _

end Block

end ArmConsole
