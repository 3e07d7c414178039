import LayoutWatch.Proofs.Offset
import LayoutWatch.Proofs.Pattern.Search
import Mathlib.Data.Int.ModEq
import Mathlib.Data.List.TakeWhile

/-!
# Reading and writing a displacement

The displacement of a pattern stands under its first run of wildcards, as a little-endian word in
two's complement. It is read where the run is one, two or four bytes wide and lies inside the file,
and it is the only number in the range of that width which agrees with the bytes up to multiples of
the bound. So a displacement that is written in two's complement is read back, and no other byte of
the file matters.
-/

namespace LayoutWatch

/-! ## Writing -/

namespace Bytes

/-- The file with a word in place of the bytes from an offset on. -/
def store (bytes : Bytes) (start : Nat) (word : List UInt8) : Bytes :=
  bytes.mapIdx fun i b => if start ≤ i then word[i - start]?.getD b else b

variable {bytes : Bytes} {start : Nat} {word : List UInt8}

/-- Storing a word does not change how long the file is. -/
@[simp] theorem size_store (bytes : Bytes) (start : Nat) (word : List UInt8) :
    (bytes.store start word).size = bytes.size := Array.size_mapIdx

/-- A word that was stored inside the file is read from there. -/
theorem slice?_store (h : start + word.length ≤ bytes.size) :
    (bytes.store start word).slice? start word.length = some word := by
  rw [slice?_eq_some_iff, size_store]
  refine ⟨h, List.ext_getElem? fun i => ?_⟩
  rw [getElem?_within, Window.size, Nat.add_sub_cancel_left]
  dsimp only
  split
  · next hi =>
    have hbyte : bytes[start + i]? = some bytes[start + i] := Array.getElem?_eq_getElem (by omega)
    rw [store, Array.getElem?_mapIdx, hbyte, Option.map_some, if_pos (by omega),
      Nat.add_sub_cancel_left, List.getElem?_eq_getElem hi, Option.getD_some]
  · next hi => rw [List.getElem?_eq_none (by omega)]

end Bytes

namespace Pattern

/-! ## Two's complement -/

/-- The bound of a width is the power of two with its bits. -/
theorem wordCount_eq (width : Nat) : wordCount width = 2 ^ (8 * width) := by
  induction width with
  | zero => rfl
  | succ width ih => rw [wordCount, ih, Nat.mul_succ, Nat.pow_add, Nat.mul_comm]

/-- A displacement can have this many bytes. -/
def IsWidth (width : Nat) : Prop := width = 1 ∨ width = 2 ∨ width = 4

/-- A number is in the range of two's complement with this many bytes. -/
def InRange (width : Nat) (v : Int) : Prop :=
  -(2 ^ (8 * width - 1) : Int) ≤ v ∧ v < 2 ^ (8 * width - 1)

/-- The bytes of a number in two's complement, the lowest first. -/
def signedBytes (width : Nat) (v : Int) : List UInt8 :=
  wordBytes width (v % 2 ^ (8 * width)).toNat

variable {word : List UInt8} {v : Int}

/-- The signed value of a word is the only number in the range that agrees with its unsigned value
up to multiples of the bound. -/
theorem signedLittleEndian_eq_iff (hword : word ≠ []) :
    signedLittleEndian word = v ↔
      InRange word.length v ∧ v ≡ littleEndian word [ZMOD 2 ^ (8 * word.length)] := by
  have hlength : 0 < word.length := List.length_pos_iff.mpr hword
  have hhalf : wordCount word.length = 2 * 2 ^ (8 * word.length - 1) := by
    rw [wordCount_eq, ← Nat.pow_succ']
    congr 1
    omega
  have hcount : (wordCount word.length : Int) = 2 ^ (8 * word.length) := by
    rw [wordCount_eq]
    push_cast
    rfl
  have hpos : 0 < wordCount word.length := Nat.zero_lt_of_lt (littleEndian_lt word)
  have hbound : (wordCount word.length : Int) = 2 * 2 ^ (8 * word.length - 1) := by
    rw [hhalf]
    push_cast
    rfl
  have hlow : -((wordCount word.length : Int) / 2) = -2 ^ (8 * word.length - 1) := by
    rw [hbound]
    omega
  have hhigh : ((wordCount word.length : Int) + 1) / 2 = 2 ^ (8 * word.length - 1) := by
    rw [hbound]
    omega
  rw [signedLittleEndian, Int.bmod_eq_iff hpos, hlow, hhigh, hcount, InRange, Int.modEq_comm,
    Int.modEq_iff_dvd, and_assoc]

/-- The bytes of a number that is in the range have it as signed value. -/
theorem signedLittleEndian_signedBytes {width : Nat} (hwidth : 0 < width) (hv : InRange width v) :
    signedLittleEndian (signedBytes width v) = v := by
  have hlength : (signedBytes width v).length = width := length_wordBytes width _
  have hpos : (0 : Int) < 2 ^ (8 * width) := Int.pow_pos (by decide)
  have hlow := Int.emod_nonneg v hpos.ne'
  have hvalue : (littleEndian (signedBytes width v) : Int) = v % 2 ^ (8 * width) := by
    rw [signedBytes, littleEndian_wordBytes, Int.toNat_of_nonneg hlow]
    have hhigh := Int.emod_lt_of_pos v hpos
    rw [wordCount_eq, Int.toNat_lt hlow]
    exact_mod_cast hhigh
  have hword : signedBytes width v ≠ [] := by
    intro hnil
    rw [hnil, List.length_nil] at hlength
    omega
  rw [signedLittleEndian_eq_iff hword, hlength, hvalue]
  exact ⟨hv, (Int.mod_modEq v _).symm⟩

/-- The value of a word that is stored as a signed integer of one, two or four bytes. -/
def signedValue? : List UInt8 → Option Int
  | [b₀] => some b₀.toInt8.toInt
  | [b₀, b₁] => some (UInt16.ofNat (littleEndian [b₀, b₁])).toInt16.toInt
  | [b₀, b₁, b₂, b₃] => some (UInt32.ofNat (littleEndian [b₀, b₁, b₂, b₃])).toInt32.toInt
  | _ => none

/-- Signed integers have the signed values of their words. -/
theorem signedValue?_eq (word : List UInt8) :
    signedValue? word =
      if word.length = 1 ∨ word.length = 2 ∨ word.length = 4 then some (signedLittleEndian word)
      else none := by
  match word with
  | [] => rfl
  | [b₀] =>
    refine congrArg some ?_
    rw [Int8.toInt, BitVec.toInt_eq_toNat_bmod]
    rfl
  | [b₀, b₁] =>
    refine congrArg some ?_
    have hvalue : (UInt16.ofNat (littleEndian [b₀, b₁])).toInt16.toBitVec.toNat =
        littleEndian [b₀, b₁] := UInt16.toNat_ofNat_of_lt' (littleEndian_lt [b₀, b₁])
    rw [Int16.toInt, BitVec.toInt_eq_toNat_bmod, hvalue]
    rfl
  | [b₀, b₁, b₂] => rfl
  | [b₀, b₁, b₂, b₃] =>
    refine congrArg some ?_
    have hvalue : (UInt32.ofNat (littleEndian [b₀, b₁, b₂, b₃])).toInt32.toBitVec.toNat =
        littleEndian [b₀, b₁, b₂, b₃] :=
      UInt32.toNat_ofNat_of_lt' (littleEndian_lt [b₀, b₁, b₂, b₃])
    rw [Int32.toInt, BitVec.toInt_eq_toNat_bmod, hvalue]
    rfl
  | _ :: _ :: _ :: _ :: _ :: _ =>
    rw [if_neg]
    · rfl
    · simp only [List.length_cons]
      omega

/-- The displacement at an offset, with every sum checked and read as a signed integer. -/
def checkedDisplacement? (p : Pattern) (bytes : Bytes) (offset : Nat) : Option Int := do
  let run ← wildcardRun? p
  signedValue? (← bytes.checkedSlice? offset run.start run.size)

/-- In a file whose size is an offset, the checks change nothing. -/
theorem checkedDisplacement?_eq {bytes : Bytes} (hsize : bytes.size < offsetCount) (p : Pattern)
    (offset : Nat) : checkedDisplacement? p bytes offset = displacement? p bytes offset := by
  rw [checkedDisplacement?, displacement?]
  simp only [Bytes.checkedSlice?_eq hsize, signedValue?_eq]

/-! ## The first run of wildcards -/

/-- The first run of wildcards of a pattern, up to its end. -/
structure FirstRun (p : Pattern) (run : Window) : Prop where
  /-- It has a position. -/
  start_lt : run.start < run.stop
  /-- In front of it all positions are fixed. -/
  fixed : ∀ i < run.start, ∃ b, p[i]? = some (.fixed b)
  /-- Its positions are wildcards. -/
  isOpen : ∀ i, run.start ≤ i → i < run.stop → p[i]? = some .wildcard
  /-- No wildcard stands directly behind it. -/
  ends : p[run.stop]? ≠ some .wildcard

variable {p : Pattern} {run run' : Window}

/-- A cell that is not fixed is a wildcard. -/
theorem Cell.eq_wildcard {cell : Cell} (h : cell.isFixed = false) : cell = .wildcard := by
  cases cell with
  | fixed b => cases h
  | wildcard => rfl

/-- A cell that is fixed has a byte. -/
theorem Cell.exists_eq_fixed {cell : Cell} (h : cell.isFixed = true) : ∃ b, cell = .fixed b := by
  cases cell with
  | fixed b => exact ⟨b, rfl⟩
  | wildcard => cases h

/-- A pattern has one first run. -/
theorem FirstRun.eq (h : FirstRun p run) (h' : FirstRun p run') : run = run' := by
  have hnot : ∀ {run run' : Window}, FirstRun p run → FirstRun p run' →
      ¬run.start < run'.start := by
    intro run run' h h' hlt
    obtain ⟨b, hb⟩ := h'.fixed _ hlt
    rw [h.isOpen _ (Nat.le_refl _) h.start_lt] at hb
    cases hb
  have hstart : run.start = run'.start := by
    have hle := hnot h h'
    have hge := hnot h' h
    omega
  have hstop : ∀ {run run' : Window}, FirstRun p run → FirstRun p run' →
      run.start = run'.start → ¬run.stop < run'.stop := by
    intro run run' h h' hsame hlt
    have hlater := h.start_lt
    exact h.ends (h'.isOpen _ (by omega) hlt)
  have hle := hstop h h' hstart
  have hge := hstop h' h hstart.symm
  cases run with
  | mk start stop =>
    cases run' with
    | mk start' stop' =>
      dsimp only at *
      rw [hstart]
      congr 1
      omega

/-- A pattern is made of the fixed positions in front of its first run, the run, and what follows,
which does not begin with a wildcard. -/
theorem exists_parts (p : Pattern) :
    ∃ tail, p = p.takeWhile Cell.isFixed ++
        ((p.dropWhile Cell.isFixed).takeWhile (!·.isFixed) ++ tail) ∧
      tail.head? ≠ some .wildcard := by
  refine ⟨(p.dropWhile Cell.isFixed).dropWhile (!·.isFixed), ?_, ?_⟩
  · rw [List.takeWhile_append_dropWhile, List.takeWhile_append_dropWhile]
  · intro hhead
    have hfixed := List.head?_dropWhile_not (!·.isFixed) (p.dropWhile Cell.isFixed)
    rw [hhead] at hfixed
    cases hfixed

/-- The run that is looked for is the first one. -/
theorem firstRun_of_wildcardRun? (h : wildcardRun? p = some run) : FirstRun p run := by
  obtain ⟨tail, hp, htail⟩ := exists_parts p
  have hfixed : ∀ cell ∈ p.takeWhile Cell.isFixed, ∃ b, cell = .fixed b :=
    fun cell hcell => Cell.exists_eq_fixed (List.mem_takeWhile_imp hcell)
  have hopen : ∀ cell ∈ (p.dropWhile Cell.isFixed).takeWhile (!·.isFixed), cell = .wildcard := by
    intro cell hcell
    have hnot := List.mem_takeWhile_imp hcell
    exact Cell.eq_wildcard (by simpa using hnot)
  rw [wildcardRun?] at h
  generalize p.takeWhile Cell.isFixed = front at *
  generalize (p.dropWhile Cell.isFixed).takeWhile (!·.isFixed) = middle at *
  split at h
  · cases h
  · next hsome =>
    cases h
    have hlength : 0 < middle.length := List.length_pos_iff.mpr (by simpa using hsome)
    refine ⟨by dsimp only; omega, fun i hi => ?_, fun i hstart hstop => ?_, ?_⟩
    · obtain ⟨b, hb⟩ := hfixed _ (List.getElem_mem hi)
      refine ⟨b, ?_⟩
      rw [hp, List.getElem?_append_left hi, List.getElem?_eq_getElem hi, hb]
    · dsimp only at hstart hstop
      have hi : i - front.length < middle.length := by omega
      rw [hp, List.getElem?_append_right hstart, List.getElem?_append_left hi,
        List.getElem?_eq_getElem hi, hopen _ (List.getElem_mem hi)]
    · dsimp only
      rw [hp, List.getElem?_append_right (Nat.le_add_right _ _), Nat.add_sub_cancel_left,
        List.getElem?_append_right (Nat.le_refl _), Nat.sub_self, ← List.head?_eq_getElem?]
      exact htail

/-- A pattern with a wildcard has a first run. -/
theorem wildcardRun?_ne_none (h : Cell.wildcard ∈ p) : wildcardRun? p ≠ none := by
  intro hnone
  have hempty : (p.dropWhile Cell.isFixed).takeWhile (!·.isFixed) = [] := by
    rw [wildcardRun?] at hnone
    split at hnone
    · next hrun => exact List.isEmpty_iff.mp hrun
    · cases hnone
  have hrest : p.dropWhile Cell.isFixed = [] := by
    cases hrest : p.dropWhile Cell.isFixed with
    | nil => rfl
    | cons cell rest =>
      have hhead := List.head?_dropWhile_not Cell.isFixed p
      rw [hrest] at hhead hempty
      have hfixed : cell.isFixed = false := hhead
      rw [List.takeWhile_cons_of_pos (by simp [hfixed])] at hempty
      cases hempty
  have hall := List.dropWhile_eq_nil_iff.mp hrest .wildcard h
  cases hall

/-- The run that is found is the first run of the pattern. -/
theorem wildcardRun?_eq_some_iff : wildcardRun? p = some run ↔ FirstRun p run := by
  refine ⟨firstRun_of_wildcardRun?, fun h => ?_⟩
  have hopen := h.isOpen _ (Nat.le_refl _) h.start_lt
  obtain ⟨found, hfound⟩ :=
    Option.ne_none_iff_exists'.mp (wildcardRun?_ne_none (List.mem_of_getElem? hopen))
  rw [hfound, (firstRun_of_wildcardRun? hfound).eq h]

/-! ## Reading -/

/-- A displacement is read from a run as it is written in two's complement. -/
structure ReadsSigned (p : Pattern) (run : Window) (bytes : Bytes) (offset : Nat) : Prop where
  /-- There is one where the run is one, two or four bytes wide and lies inside the file. -/
  isSome_iff : (p.displacement? bytes offset).isSome ↔
    IsWidth run.size ∧ offset + run.stop ≤ bytes.size
  /-- It is the number in the range of that width which agrees with the bytes under the run. -/
  eq_some_iff : ∀ v, p.displacement? bytes offset = some v ↔
    IsWidth run.size ∧ InRange run.size v ∧
      ∃ word, bytes.slice? (offset + run.start) run.size = some word ∧
        v ≡ littleEndian word [ZMOD 2 ^ (8 * run.size)]
  /-- A number in the range is read where its bytes are stored. -/
  store_eq : ∀ v, IsWidth run.size → InRange run.size v → offset + run.stop ≤ bytes.size →
    p.displacement? (bytes.store (offset + run.start) (signedBytes run.size v)) offset = some v
  /-- A file with the same bytes under the run has the same displacement. -/
  congr : ∀ other : Bytes,
    (∀ i, offset + run.start ≤ i → i < offset + run.stop → other[i]? = bytes[i]?) →
      p.displacement? other offset = p.displacement? bytes offset
  /-- In a file whose size is an offset, no sum leads astray on the way. -/
  checked_eq : bytes.size < offsetCount →
    checkedDisplacement? p bytes offset = p.displacement? bytes offset

namespace FirstRun

variable (h : FirstRun p run) {bytes other : Bytes} {offset : Nat}

include h

/-- A run ends behind its positions. -/
theorem start_add_size : run.start + run.size = run.stop :=
  Nat.add_sub_cancel' (Nat.le_of_lt h.start_lt)

/-- A run has a position. -/
theorem size_pos : 0 < run.size := Nat.sub_pos_of_lt h.start_lt

/-- A run of a width is read as the signed word under it. -/
theorem displacement?_eq (hwidth : IsWidth run.size) : displacement? p bytes offset =
    (bytes.slice? (offset + run.start) run.size).map signedLittleEndian :=
  Pattern.displacement?_eq (wildcardRun?_eq_some_iff.mpr h) hwidth bytes offset

/-- A run that has none of the widths is not read. -/
theorem displacement?_of_not_isWidth (hwidth : ¬IsWidth run.size) :
    displacement? p bytes offset = none := by
  rw [displacement?, wildcardRun?_eq_some_iff.mpr h]
  cases hword : bytes.slice? (offset + run.start) run.size with
  | none => simp [hword]
  | some word =>
    rw [← Bytes.length_of_slice? hword, IsWidth] at hwidth
    simp [hword, hwidth]

/-- A run is read where it has one of the widths and lies inside the file. -/
theorem isSome_displacement?_iff : (p.displacement? bytes offset).isSome ↔
    IsWidth run.size ∧ offset + run.stop ≤ bytes.size := by
  by_cases hwidth : IsWidth run.size
  · rw [h.displacement?_eq hwidth, Option.isSome_map, Bytes.slice?, Nat.add_assoc,
      h.start_add_size]
    simp [hwidth]
  · simp [h.displacement?_of_not_isWidth hwidth, hwidth]

/-- What is read is the number in the range that agrees with the bytes. -/
theorem displacement?_eq_some_iff {v : Int} : p.displacement? bytes offset = some v ↔
    IsWidth run.size ∧ InRange run.size v ∧
      ∃ word, bytes.slice? (offset + run.start) run.size = some word ∧
        v ≡ littleEndian word [ZMOD 2 ^ (8 * run.size)] := by
  by_cases hwidth : IsWidth run.size
  · have hvalue : ∀ word, bytes.slice? (offset + run.start) run.size = some word →
        (signedLittleEndian word = v ↔
          InRange run.size v ∧ v ≡ littleEndian word [ZMOD 2 ^ (8 * run.size)]) := by
      intro word hread
      have hlength := Bytes.length_of_slice? hread
      rw [signedLittleEndian_eq_iff (List.length_pos_iff.mp (hlength ▸ h.size_pos)), hlength]
    rw [h.displacement?_eq hwidth, Option.map_eq_some_iff, and_iff_right hwidth]
    constructor
    · rintro ⟨word, hread, hv⟩
      obtain ⟨hrange, hmod⟩ := (hvalue word hread).mp hv
      exact ⟨hrange, word, hread, hmod⟩
    · rintro ⟨hrange, word, hread, hmod⟩
      exact ⟨word, hread, (hvalue word hread).mpr ⟨hrange, hmod⟩⟩
  · simp [h.displacement?_of_not_isWidth hwidth, hwidth]

/-- What is stored in two's complement is read back. -/
theorem displacement?_store {v : Int} (hwidth : IsWidth run.size) (hv : InRange run.size v)
    (hfit : offset + run.stop ≤ bytes.size) :
    p.displacement? (bytes.store (offset + run.start) (signedBytes run.size v)) offset =
      some v := by
  have hlength : (signedBytes run.size v).length = run.size := length_wordBytes _ _
  have hroom : offset + run.start + (signedBytes run.size v).length ≤ bytes.size := by
    rw [hlength, Nat.add_assoc, h.start_add_size]
    exact hfit
  have hstore := Bytes.slice?_store hroom
  rw [hlength] at hstore
  rw [h.displacement?_eq hwidth, hstore, Option.map_some,
    signedLittleEndian_signedBytes h.size_pos hv]

/-- Only the bytes under the run are read. -/
theorem displacement?_congr
    (hagree : ∀ i, offset + run.start ≤ i → i < offset + run.stop → other[i]? = bytes[i]?) :
    p.displacement? other offset = p.displacement? bytes offset := by
  by_cases hwidth : IsWidth run.size
  · have hword : other.slice? (offset + run.start) run.size =
        bytes.slice? (offset + run.start) run.size := by
      refine Bytes.slice?_congr h.size_pos fun i hstart hstop => hagree i hstart ?_
      rwa [Nat.add_assoc, h.start_add_size] at hstop
    rw [h.displacement?_eq hwidth, h.displacement?_eq hwidth, hword]
  · rw [h.displacement?_of_not_isWidth hwidth, h.displacement?_of_not_isWidth hwidth]

end FirstRun

/-- Reading the first run of wildcards inverts writing it in two's complement: it gives a value
exactly for a run of one, two or four bytes inside the file, and then the one in the range of that
width which agrees with the bytes. What is stored there is read back, and nothing else is read. -/
theorem readsSigned_of_firstRun (hrun : FirstRun p run) (bytes : Bytes) (offset : Nat) :
    ReadsSigned p run bytes offset where
  isSome_iff := hrun.isSome_displacement?_iff
  eq_some_iff _ := hrun.displacement?_eq_some_iff
  store_eq _ := hrun.displacement?_store
  congr _ := hrun.displacement?_congr
  checked_eq hsize := checkedDisplacement?_eq hsize p offset

/-- A pattern with two runs of wildcards. -/
def twoRuns : Pattern := [.fixed 0x48, .wildcard, .wildcard, .fixed 0x90, .wildcard]

/-- The first one has two bytes. A negative number that is stored there is read back, and a run that
leaves the file has no displacement. -/
theorem readsSigned_twoRuns : FirstRun twoRuns ⟨1, 3⟩ ∧
    (Bytes.store #[0, 0x48, 1, 2, 0x90] 2 (signedBytes 2 (-2))) = #[0, 0x48, 0xFE, 0xFF, 0x90] ∧
    twoRuns.displacement? (Bytes.store #[0, 0x48, 1, 2, 0x90] 2 (signedBytes 2 (-2))) 1 =
      some (-2) ∧
    (twoRuns.displacement? #[0, 0x48, 1, 2, 0x90] 3).isSome = false := by
  have hrun : FirstRun twoRuns ⟨1, 3⟩ := wildcardRun?_eq_some_iff.mp rfl
  have hstored := (readsSigned_of_firstRun hrun #[0, 0x48, 1, 2, 0x90] 1).store_eq (-2)
    (.inr (.inl rfl)) ⟨by decide, by decide⟩ (by decide)
  have hout := (readsSigned_of_firstRun hrun #[0, 0x48, 1, 2, 0x90] 3).isSome_iff
  refine ⟨hrun, by decide +kernel, hstored, ?_⟩
  rw [← Bool.not_eq_true, hout]
  exact fun h => absurd h.2 (by decide)

end Pattern

end LayoutWatch
