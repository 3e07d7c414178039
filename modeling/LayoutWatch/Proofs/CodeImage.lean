import LayoutWatch.Binary
import LayoutWatch.Proofs.Bytes
import LayoutWatch.Proofs.Outcome

/-!
# Images around a piece of code

Headers of the smallest 64-bit image are written in front of given code. The image that is read
back is valid and has the code as its only section, whatever the code is. The same headers are
written with a row for each of several sections.
-/

namespace LayoutWatch

namespace Binary

/-- The DOS header, the file header, the optional header and the row of one executable section of
this size, which begins directly behind them. -/
def codeHeaders (size : Nat) : List UInt8 :=
  [wordBytes 2 0x5A4D, List.replicate 58 0, wordBytes 4 0x40,
    wordBytes 4 0x4550, wordBytes 2 0x8664, wordBytes 2 1, List.replicate 12 0, wordBytes 2 32,
    wordBytes 2 0, wordBytes 2 0x20B, List.replicate 30 0,
    [0x2E, 0x74, 0x65, 0x78, 0x74, 0, 0, 0], wordBytes 4 size, wordBytes 4 0x1000,
    wordBytes 4 size, wordBytes 4 160, List.replicate 12 0, wordBytes 4 0x20].flatten

/-- A file of these headers and the code. -/
def ofCode (identifier : String) (code : List UInt8) : Binary :=
  ⟨identifier, (codeHeaders code.length ++ code).toArray⟩

/-- The section of code of this size. -/
def codeSection (size : Nat) : Section :=
  ⟨".text", 0x1000, UInt32.ofNat size, 160, UInt32.ofNat size, 0x20⟩

variable {identifier : String} {code : List UInt8}

/-- The code stands behind the headers. -/
@[simp] theorem size_ofCode : (ofCode identifier code).bytes.size = 160 + code.length := by
  rw [ofCode, List.size_toArray, List.length_append]
  rfl

/-- What stands in the headers is read from the file. -/
theorem within_ofCode {w : Window} (hfit : w.stop ≤ 160) :
    (ofCode identifier code).bytes.within w =
      ((codeHeaders code.length).drop w.start).take w.size := by
  have hlength : (codeHeaders code.length).length = 160 := rfl
  rw [ofCode, Bytes.within, List.extract_toArray, List.extract_eq_take_drop]
  by_cases hstart : w.start ≤ 160
  · rw [List.drop_append_of_le_length (by omega), List.take_append_of_le_length]
    · rfl
    · rw [List.length_drop, hlength]
      omega
  · rw [Window.size, Nat.sub_eq_zero_of_le (by omega), List.take_zero, List.take_zero]

/-- A word of the headers is read back from the file. -/
theorem wordAt_ofCode (offset width value : Nat) (fault : HeaderFault) (hfit : offset + width ≤ 160)
    (hbytes : ((codeHeaders code.length).drop offset).take width = wordBytes width value)
    (hvalue : value < wordCount width) :
    Image.wordAt (ofCode identifier code).bytes offset width fault = .ok value := by
  have hinside : offset + width ≤ (ofCode identifier code).bytes.size := by
    rw [size_ofCode]
    omega
  rw [Image.wordAt, Bytes.word?, Bytes.slice?, if_pos hinside, within_ofCode hfit, Window.size,
    Nat.add_sub_cancel_left, hbytes, Option.map_some, littleEndian_wordBytes hvalue]

/-- The row of the section table is read back. -/
theorem sectionAt_ofCode (h : code.length < UInt32.size) :
    Image.sectionAt (ofCode identifier code).bytes 120 = .ok (codeSection code.length) := by
  have hname : (ofCode identifier code).bytes.within ⟨120, 120 + 8⟩ =
      [0x2E, 0x74, 0x65, 0x78, 0x74, 0, 0, 0] := within_ofCode (by decide)
  simp only [Image.sectionAt, ok_bind, pure_eq_ok,
    wordAt_ofCode (120 + 8) 4 code.length _ (by decide) rfl h,
    wordAt_ofCode (120 + 12) 4 0x1000 _ (by decide) rfl (by decide),
    wordAt_ofCode (120 + 16) 4 code.length _ (by decide) rfl h,
    wordAt_ofCode (120 + 20) 4 160 _ (by decide) rfl (by decide),
    wordAt_ofCode (120 + 36) 4 0x20 _ (by decide) rfl (by decide), hname]
  rfl

/-- The image is valid and has one section, that of the code. -/
theorem image_ofCode (h : code.length < UInt32.size) :
    (ofCode identifier code).image =
      { valid := true, fault := none, wide := true, machine := Image.amd64, imageBase := 0
        entryPoint := 0, sections := [codeSection code.length] } := by
  have hsize : ∀ count, count ≤ 160 → count ≤ (ofCode identifier code).bytes.size := by
    intro count hcount
    rw [size_ofCode]
    omega
  have hheaders : Image.ofHeaders (ofCode identifier code).bytes = .ok
      { valid := true, fault := none, wide := true, machine := Image.amd64, imageBase := 0
        entryPoint := 0, sections := [codeSection code.length] } := by
    simp only [Image.ofHeaders, Image.require, ok_bind, pure_eq_ok,
      hsize 0x40 (by decide), hsize (0x40 + 4 + 20) (by decide),
      hsize (0x40 + 4 + 20 + 32) (by decide), hsize (0x40 + 4 + 20 + 32 + 1 * 40) (by decide),
      wordAt_ofCode 0 2 0x5A4D _ (by decide) rfl (by decide),
      wordAt_ofCode 0x3C 4 0x40 _ (by decide) rfl (by decide),
      wordAt_ofCode 0x40 4 0x4550 _ (by decide) rfl (by decide),
      wordAt_ofCode (0x40 + 4) 2 0x8664 _ (by decide) rfl (by decide),
      wordAt_ofCode (0x40 + 4 + 2) 2 1 _ (by decide) rfl (by decide),
      wordAt_ofCode (0x40 + 4 + 16) 2 32 _ (by decide) rfl (by decide),
      wordAt_ofCode (0x40 + 4 + 20) 2 0x20B _ (by decide) rfl (by decide),
      wordAt_ofCode (0x40 + 4 + 20 + 16) 4 0 _ (by decide) rfl (by decide),
      wordAt_ofCode (0x40 + 4 + 20 + 24) 8 0 _ (by decide) rfl (by decide),
      if_true, and_true, Nat.le_refl]
    have hrows : (List.range 1).mapM (fun i =>
        Image.sectionAt (ofCode identifier code).bytes (64 + 4 + 20 + 32 + i * 40)) =
          .ok [codeSection code.length] := by
      have hrow : Image.sectionAt (ofCode identifier code).bytes 120 =
          .ok (codeSection code.length) := sectionAt_ofCode h
      simp [List.range_succ, hrow]
    rw [hrows]
    rfl
  rw [image, Image.parse, hheaders]

/-- The image is valid. -/
theorem validImage_ofCode (h : code.length < UInt32.size) :
    (ofCode identifier code).validImage = .ok (ofCode identifier code).image := by
  rw [validImage, image_ofCode h]
  rfl

/-- The code is the only part of the file that is executable. -/
theorem executableWindows_ofCode (h : code.length < UInt32.size) :
    (ofCode identifier code).executableWindows = [⟨160, 160 + code.length⟩] := by
  have hexecutable : (codeSection code.length).isExecutable = true := by
    change ((0x20 : UInt32) &&& (Section.holdsCode ||| Section.mayExecute) != 0) = true
    decide
  have hlength : (UInt32.ofNat code.length).toNat = code.length := UInt32.toNat_ofNat_of_lt' h
  have hwindow : (codeSection code.length).fileWindow (160 + code.length) =
      ⟨160, 160 + code.length⟩ := by
    simp [Section.fileWindow, codeSection, hlength]
  rw [executableWindows, image_ofCode h, Image.executableWindows, Image.executableSections,
    List.filter_cons, if_pos hexecutable, size_ofCode, List.filter_nil, List.map_cons, hwindow,
    List.map_nil]

/-- The row of an executable section that is mapped here and stands there in the file. -/
def sectionRow (address : Nat) (w : Window) : List UInt8 :=
  [[0x2E, 0x74, 0x65, 0x78, 0x74, 0, 0, 0], wordBytes 4 w.size, wordBytes 4 address,
    wordBytes 4 w.size, wordBytes 4 w.start, List.replicate 12 0, wordBytes 4 0x20].flatten

/-- The same headers with a row for each of these parts of the file. Nothing keeps the parts from
overlapping, and they need not be in the order of the file. -/
def sectionHeaders (windows : List Window) : List UInt8 :=
  [wordBytes 2 0x5A4D, List.replicate 58 0, wordBytes 4 0x40,
    wordBytes 4 0x4550, wordBytes 2 0x8664, wordBytes 2 windows.length, List.replicate 12 0,
    wordBytes 2 32, wordBytes 2 0, wordBytes 2 0x20B, List.replicate 30 0].flatten ++
    windows.zipIdx.flatMap fun (w, i) => sectionRow (0x1000 * (i + 1)) w

/-- A file of these headers and the code, with the given parts of the file as its executable
sections. -/
def ofSections (identifier : String) (windows : List Window) (code : List UInt8) : Binary :=
  ⟨identifier, (sectionHeaders windows ++ code).toArray⟩

end Binary

end LayoutWatch
