import LayoutWatch.Bytes

/-!
# Reading windows of a file

A window that lies inside a file is read byte for byte, and a word exists exactly where the file
holds all of its bytes. The value of a little-endian word stays in the range of its width, and a
word of a given width is written back from its value.
-/

namespace LayoutWatch

/-- Containment as two inequalities. -/
theorem Window.contains_iff {w : Window} {offset : Nat} :
    w.contains offset = true ↔ w.start ≤ offset ∧ offset < w.stop := by
  simp [Window.contains]

/-- The value of a word is below the bound of its width. -/
theorem littleEndian_lt (word : List UInt8) : littleEndian word < wordCount word.length := by
  induction word with
  | nil => decide
  | cons b rest ih =>
    have hb := b.toNat_lt
    rw [littleEndian, List.length_cons, wordCount]
    omega

/-- The little-endian word of a value, with this many bytes. -/
def wordBytes : Nat → Nat → List UInt8
  | 0, _ => []
  | width + 1, value => UInt8.ofNat value :: wordBytes width (value / 256)

/-- A word has the bytes that were asked for. -/
@[simp] theorem length_wordBytes (width value : Nat) : (wordBytes width value).length = width := by
  induction width generalizing value with
  | zero => rfl
  | succ width ih => rw [wordBytes, List.length_cons, ih]

/-- A value that fits is read back from its word. -/
theorem littleEndian_wordBytes {width value : Nat} (h : value < wordCount width) :
    littleEndian (wordBytes width value) = value := by
  induction width generalizing value with
  | zero =>
    rw [wordCount] at h
    obtain rfl : value = 0 := by omega
    rfl
  | succ width ih =>
    rw [wordCount] at h
    rw [wordBytes, littleEndian, ih (by omega), UInt8.toNat_ofNat']
    omega

/-- A word is written back from its value. -/
@[simp] theorem wordBytes_littleEndian (word : List UInt8) :
    wordBytes word.length (littleEndian word) = word := by
  induction word with
  | nil => rfl
  | cons b rest ih =>
    have hb := b.toNat_lt
    have hlow : UInt8.ofNat (b.toNat + 256 * littleEndian rest) = b := by
      rw [← UInt8.toNat_inj, UInt8.toNat_ofNat']
      omega
    have hhigh : (b.toNat + 256 * littleEndian rest) / 256 = littleEndian rest := by omega
    rw [littleEndian, List.length_cons, wordBytes, hlow, hhigh, ih]

namespace Bytes

/-- The bytes read from a window are those of the file at its offsets. -/
@[simp] theorem getElem?_within (bytes : Bytes) (w : Window) (i : Nat) :
    (bytes.within w)[i]? = if i < w.size then bytes[w.start + i]? else none := by
  rw [within, Array.getElem?_toList, Array.getElem?_extract, Window.size]
  by_cases hi : i < w.stop - w.start
  · by_cases hsize : i < min w.stop bytes.size - w.start
    · rw [if_pos hsize, if_pos hi]
    · rw [if_neg hsize, if_pos hi, getElem?_neg]
      omega
  · rw [if_neg hi, if_neg (by omega)]

/-- A window inside the file is read whole. -/
theorem length_within {bytes : Bytes} {w : Window} (h : w.stop ≤ bytes.size) :
    (bytes.within w).length = w.size := by
  rw [within, Array.length_toList, Array.size_extract, Window.size]
  omega

/-- A window shows the bytes of the file before its end alone. -/
theorem within_congr {bytes other : Bytes} {w : Window} (h : ∀ i < w.stop, other[i]? = bytes[i]?) :
    other.within w = bytes.within w := by
  refine List.ext_getElem? fun i => ?_
  rw [getElem?_within, getElem?_within]
  by_cases hi : i < w.size
  · rw [if_pos hi, if_pos hi, h (w.start + i) (Nat.add_lt_of_lt_sub' hi)]
  · rw [if_neg hi, if_neg hi]

/-- A file that has the same bytes up to here is not shorter. -/
theorem le_size_of_getElem? {bytes other : Bytes} {count : Nat}
    (h : ∀ i < count, other[i]? = bytes[i]?) (hsize : count ≤ bytes.size) : count ≤ other.size := by
  refine Nat.le_of_not_lt fun hshort => ?_
  have hlast := h other.size hshort
  rw [Array.getElem?_eq_none (Nat.le_refl _)] at hlast
  have hend := Array.getElem?_eq_none_iff.mp hlast.symm
  omega

/-- A word is read exactly where the file holds all of its bytes. -/
theorem slice?_eq_some_iff {bytes : Bytes} {start count : Nat} {word : List UInt8} :
    bytes.slice? start count = some word ↔
      start + count ≤ bytes.size ∧ bytes.within ⟨start, start + count⟩ = word := by
  unfold slice?
  split
  · next hfit => simp [hfit]
  · next hfit => simp [hfit]

/-- A byte stands at an offset inside the file. -/
theorem isSome_getElem? (bytes : Bytes) (i : Nat) : bytes[i]?.isSome = true ↔ i < bytes.size := by
  rw [Option.isSome_iff_ne_none, ne_eq, Array.getElem?_eq_none_iff, Nat.not_le]

/-- Bytes are read alike from files that have the same ones. -/
theorem slice?_congr {bytes other : Bytes} {start count : Nat} (hcount : 0 < count)
    (h : ∀ i, start ≤ i → i < start + count → other[i]? = bytes[i]?) :
    other.slice? start count = bytes.slice? start count := by
  have hfit : start + count ≤ other.size ↔ start + count ≤ bytes.size := by
    -- The last byte is there in both files or in none.
    have hlast := congrArg Option.isSome (h (start + count - 1) (by omega) (by omega))
    rw [Bool.eq_iff_iff, isSome_getElem?, isSome_getElem?] at hlast
    omega
  have hwithin : other.within ⟨start, start + count⟩ = bytes.within ⟨start, start + count⟩ := by
    refine List.ext_getElem? fun i => ?_
    rw [getElem?_within, getElem?_within, Window.size, Nat.add_sub_cancel_left]
    dsimp only
    split
    · exact h _ (by omega) (by omega)
    · rfl
  simp only [slice?, hfit, hwithin]

/-- The length of a word that was read. -/
theorem length_of_slice? {bytes : Bytes} {start count : Nat} {word : List UInt8}
    (h : bytes.slice? start count = some word) : word.length = count := by
  obtain ⟨hfit, rfl⟩ := slice?_eq_some_iff.mp h
  rw [length_within hfit]
  exact Nat.add_sub_cancel_left start count

/-- A byte of a word that was read. -/
theorem getElem?_of_slice? {bytes : Bytes} {start count : Nat} {word : List UInt8}
    (h : bytes.slice? start count = some word) {i : Nat} (hi : i < count) :
    bytes[start + i]? = word[i]? := by
  obtain ⟨-, rfl⟩ := slice?_eq_some_iff.mp h
  rw [getElem?_within, if_pos]
  exact Nat.lt_sub_iff_add_lt'.mpr (Nat.add_lt_add_left hi start)

/-- A part of a word that was read is read as that part. -/
theorem slice?_part {bytes : Bytes} {start count skip part : Nat} {word : List UInt8}
    (h : bytes.slice? start count = some word) (hpart : skip + part ≤ count) :
    bytes.slice? (start + skip) part = some ((word.drop skip).take part) := by
  obtain ⟨hfit, rfl⟩ := slice?_eq_some_iff.mp h
  rw [slice?_eq_some_iff]
  refine ⟨by omega, List.ext_getElem? fun i => ?_⟩
  rw [getElem?_within, List.getElem?_take, List.getElem?_drop, getElem?_within]
  simp only [Window.size, Nat.add_sub_cancel_left]
  by_cases hi : i < part
  · rw [if_pos hi, if_pos hi, if_pos (by omega), Nat.add_assoc]
  · rw [if_neg hi, if_neg hi]

end Bytes

end LayoutWatch
