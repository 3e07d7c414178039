import LayoutWatch.Image.Headers
import LayoutWatch.Proofs.CodeImage
import LayoutWatch.Proofs.Outcome
import LayoutWatch.Proofs.Scan

/-!
# What the headers of an image say

The file itself says where the fields of its headers stand, so each of these offsets may lead
anywhere: into the DOS header, in front of another field, or out of the file. A file is a valid
image exactly when its headers fit it, and then the image is the one that the fields describe.
Nothing behind the headers is read: the bytes up to there decide the image, and a file that ends
earlier is refused.
-/

namespace LayoutWatch

/-- The little-endian value of a word, of which only the bytes inside the file count. -/
def Bytes.wordIn (bytes : Bytes) (offset width : Nat) : Nat :=
  littleEndian (bytes.within ⟨offset, offset + width⟩)

/-- The section that a row of the table describes: its name in eight bytes, then four words, and
its flags in the last word. -/
def Section.ofRow (row : List UInt8) : Section :=
  let field (position : Nat) := UInt32.ofNat (littleEndian ((row.drop position).take 4))
  { name := Image.sectionName (row.take 8)
    virtualSize := field 8
    virtualAddress := field 12
    rawSize := field 16
    rawAddress := field 20
    characteristics := field 36 }

namespace Headers

section Fields

variable (bytes : Bytes)

/-- Where the DOS header says that the signature stands, with the file header behind it. -/
def start : Nat := bytes.wordIn 0x3C 4

/-- Machine word of the file header. -/
def machine : UInt16 := UInt16.ofNat (bytes.wordIn (start bytes + 4) 2)

/-- Number of rows of the section table. -/
def sectionCount : Nat := bytes.wordIn (start bytes + 6) 2

/-- Size of the optional header, which stands behind the file header. -/
def optionalSize : Nat := bytes.wordIn (start bytes + 20) 2

/-- Kind of the optional header. -/
def magic : Nat := bytes.wordIn (start bytes + 24) 2

/-- The optional header is that of 64-bit images. -/
def wide : Bool := magic bytes = 0x20B

/-- Where the section table begins. -/
def table : Nat := start bytes + 24 + optionalSize bytes

/-- Where the section table ends. -/
def stop : Nat := table bytes + sectionCount bytes * 40

/-- A row of the section table. -/
def row (i : Nat) : List UInt8 :=
  bytes.within ⟨table bytes + i * 40, table bytes + i * 40 + 40⟩

/-- Preferred address of the image: a word of eight bytes in a 64-bit image, and of four bytes in a
32-bit one. -/
def imageBase : Nat :=
  if wide bytes then bytes.wordIn (start bytes + 48) 8 else bytes.wordIn (start bytes + 52) 4

/-- The image that the fields describe. -/
def image : Image :=
  { valid := true
    fault := none
    wide := wide bytes
    machine := machine bytes
    imageBase := UInt64.ofNat (imageBase bytes)
    entryPoint := UInt32.ofNat (bytes.wordIn (start bytes + 40) 4)
    sections := (List.range (sectionCount bytes)).map fun i => Section.ofRow (row bytes i) }

/-- The headers fit the file, and what they say of the kind of the image does not contradict
itself. -/
structure Fit : Prop where
  /-- The DOS header fits. -/
  dosFits : 0x40 ≤ bytes.size
  /-- The file begins with the DOS magic. -/
  dosMagic : bytes.wordIn 0 2 = 0x5A4D
  /-- The signature fits. -/
  signatureFits : start bytes + 4 ≤ bytes.size
  /-- The signature is that of the format. -/
  signature : bytes.wordIn (start bytes) 4 = 0x4550
  /-- The file header fits. -/
  fileFits : start bytes + 24 ≤ bytes.size
  /-- The optional header has room for the fields that are read. -/
  optionalRoom : 32 ≤ optionalSize bytes
  /-- The optional header fits. -/
  optionalFits : table bytes ≤ bytes.size
  /-- The optional header is of one of the two kinds. -/
  knownMagic : magic bytes = 0x10B ∨ magic bytes = 0x20B
  /-- The known machines of 64 bits have the optional header of 64-bit images. -/
  wideMachine : machine bytes = Image.amd64 ∨ machine bytes = Image.arm64 → magic bytes = 0x20B
  /-- The known machine of 32 bits has the optional header of 32-bit images. -/
  narrowMachine : machine bytes = Image.i386 → magic bytes = 0x10B
  /-- The section table fits. -/
  tableFits : stop bytes ≤ bytes.size

end Fields

end Headers

namespace Image

variable {bytes : Bytes} {fault : HeaderFault}

/-- A condition is passed exactly when it holds. -/
@[simp] theorem require_eq_ok_iff {condition : Prop} [Decidable condition] {result : Unit} :
    require condition fault = .ok result ↔ condition := by
  by_cases h : condition <;> simp [require, h]

/-- A word is read exactly when the file holds all of it. -/
theorem wordAt_eq_ok_iff {offset width value : Nat} :
    wordAt bytes offset width fault = .ok value ↔
      offset + width ≤ bytes.size ∧ bytes.wordIn offset width = value := by
  by_cases hfit : offset + width ≤ bytes.size <;>
    simp [wordAt, Bytes.word?, Bytes.slice?, Bytes.wordIn, hfit]

/-- The word size is read exactly from the two known kinds. -/
theorem wideOfMagic_eq_ok_iff {magic : Nat} {wide : Bool} :
    wideOfMagic magic = .ok wide ↔
      (magic = 0x10B ∨ magic = 0x20B) ∧ decide (magic = 0x20B) = wide := by
  unfold wideOfMagic
  split
  · next h => subst h; simp
  · next hnarrow =>
    split
    · next h => subst h; simp
    · next hwide => simp [hnarrow, hwide]

/-- A machine contradicts exactly the word size that it does not have. -/
theorem contradicts_eq_false_iff {machine : UInt16} {wide : Bool} :
    contradicts machine wide = false ↔
      (machine = amd64 ∨ machine = arm64 → wide = true) ∧ (machine = i386 → wide = false) := by
  unfold contradicts
  split
  · next h =>
    have hwide : machine = amd64 ∨ machine = arm64 := by simpa using h
    have hnarrow : machine ≠ i386 := by rcases hwide with rfl | rfl <;> decide
    simp [hwide, hnarrow]
  · next h =>
    have hwide : ¬(machine = amd64 ∨ machine = arm64) := by simpa using h
    split
    · next hnarrow => simp [eq_of_beq hnarrow, i386, amd64, arm64]
    · next hnarrow => simp [hwide, ne_of_beq_false (eq_false_of_ne_true hnarrow)]

/-- A row inside the file is read as the section that it describes. -/
theorem sectionAt_eq {offset : Nat} (hfit : offset + 40 ≤ bytes.size) :
    sectionAt bytes offset = .ok (Section.ofRow (bytes.within ⟨offset, offset + 40⟩)) := by
  have hrow := Bytes.slice?_eq_some_iff.mpr ⟨hfit, rfl⟩
  have hname := (Bytes.slice?_eq_some_iff.mp (Bytes.slice?_part hrow (show 0 + 8 ≤ 40 by decide))).2
  have hfield (position : Nat) (hposition : position + 4 ≤ 40) :
      wordAt bytes (offset + position) 4 (.truncated "section header") =
        .ok (littleEndian (((bytes.within ⟨offset, offset + 40⟩).drop position).take 4)) := by
    rw [wordAt, Bytes.word?, Bytes.slice?_part hrow hposition, Option.map_some]
  rw [Nat.add_zero, List.drop_zero] at hname
  simp only [sectionAt, hfield 8 (by decide), hfield 12 (by decide), hfield 16 (by decide),
    hfield 20 (by decide), hfield 36 (by decide), hname, ok_bind, pure_eq_ok, Section.ofRow]

/-- A section table inside the file is read row by row. -/
theorem mapM_sectionAt_eq (hfit : Headers.stop bytes ≤ bytes.size) :
    (List.range (Headers.sectionCount bytes)).mapM
        (fun i => sectionAt bytes (Headers.table bytes + i * 40)) =
      .ok (Headers.image bytes).sections := by
  rw [mapM_eq_ok_iff, Headers.image, List.forall₂_map_right_iff, List.forall₂_same]
  intro i hi
  have hlast : i + 1 ≤ Headers.sectionCount bytes := List.mem_range.mp hi
  rw [Headers.stop] at hfit
  rw [sectionAt_eq (by omega), Headers.row]

/-- The preferred address is read from the field of the kind of the image. -/
theorem imageBase_eq_ok_iff {value : Nat} (hroom : 32 ≤ Headers.optionalSize bytes)
    (hfit : Headers.table bytes ≤ bytes.size) :
    (if Headers.wide bytes then wordAt bytes (Headers.start bytes + 48) 8 fault
      else wordAt bytes (Headers.start bytes + 52) 4 fault) = .ok value ↔
      Headers.imageBase bytes = value := by
  rw [Headers.table] at hfit
  cases hwide : Headers.wide bytes with
  | true =>
    rw [if_pos rfl, wordAt_eq_ok_iff, and_iff_right (by omega), Headers.imageBase, hwide,
      if_pos rfl]
  | false =>
    rw [if_neg Bool.false_ne_true, wordAt_eq_ok_iff, and_iff_right (by omega), Headers.imageBase,
      hwide, if_neg Bool.false_ne_true]

/-- Headers are read exactly when they fit the file, and what is read is what they describe. -/
theorem ofHeaders_eq_ok_iff {image : Image} :
    ofHeaders bytes = .ok image ↔ Headers.Fit bytes ∧ Headers.image bytes = image := by
  -- The reading of the table stands in both branches of the choice of the image base until
  -- `ite_bind_eq` takes it out. The bounds of single words follow from those of whole headers.
  simp only [ofHeaders, ite_bind_eq, bind_eq_ok_iff, require_eq_ok_iff, wordAt_eq_ok_iff,
    wideOfMagic_eq_ok_iff, contradicts_eq_false_iff, and_assoc, exists_and_left, exists_const,
    exists_eq_left']
  constructor
  · rintro ⟨hdos, -, hmagic, -, hsignatureFits, hsignature, hfile, -, -, -, -, hoptional, -, hknown,
      hwide, hnarrow, hroom, -, base, hbase, htable, sections, hsections, himage⟩
    have hfit : Headers.Fit bytes :=
      ⟨hdos, hmagic, hsignatureFits, hsignature, hfile, hroom, hoptional, hknown,
        fun h => of_decide_eq_true (hwide h),
        fun h => hknown.resolve_right (of_decide_eq_false (hnarrow h)), htable⟩
    obtain rfl := (imageBase_eq_ok_iff hroom hoptional).mp hbase
    obtain rfl := Except.ok.inj ((mapM_sectionAt_eq htable).symm.trans hsections)
    exact ⟨hfit, Except.ok.inj himage⟩
  · rintro ⟨hfit, rfl⟩
    have hdos := hfit.dosFits
    have hfile : bytes.wordIn 0x3C 4 + 24 ≤ bytes.size := hfit.fileFits
    have hroom : bytes.wordIn 0x3C 4 + 24 + 32 ≤ bytes.size :=
      (Nat.add_le_add_left hfit.optionalRoom _).trans hfit.optionalFits
    have hwide (h : Headers.machine bytes = amd64 ∨ Headers.machine bytes = arm64) :
        Headers.wide bytes = true := decide_eq_true (hfit.wideMachine h)
    have hnarrow (h : Headers.machine bytes = i386) : Headers.wide bytes = false := by
      simp [Headers.wide, hfit.narrowMachine h]
    exact ⟨hdos, by omega, hfit.dosMagic, by omega, hfit.signatureFits, hfit.signature, hfile,
      by omega, by omega, by omega, (by decide : 2 ≤ 32).trans hfit.optionalRoom, hfit.optionalFits,
      by omega, hfit.knownMagic, hwide, hnarrow, hfit.optionalRoom, by omega, _,
      (imageBase_eq_ok_iff hfit.optionalRoom hfit.optionalFits).mpr rfl, hfit.tableFits, _,
      mapM_sectionAt_eq hfit.tableFits, rfl⟩

/-- Headers that fit the file describe the image. -/
theorem parse_of_fit (h : Headers.Fit bytes) : parse bytes = Headers.image bytes := by
  rw [parse, ofHeaders_eq_ok_iff.mpr ⟨h, rfl⟩]

/-- Headers that do not fit the file are refused. -/
theorem parse_of_not_fit (h : ¬Headers.Fit bytes) : ∃ fault, parse bytes = refused fault := by
  rw [parse]
  cases hread : ofHeaders bytes with
  | ok image => exact absurd (ofHeaders_eq_ok_iff.mp hread).1 h
  | error fault => exact ⟨fault, rfl⟩

/-- An image is valid exactly when the headers fit the file. -/
theorem valid_parse_iff : (parse bytes).valid = true ↔ Headers.Fit bytes := by
  by_cases hfit : Headers.Fit bytes
  · rw [parse_of_fit hfit]
    exact iff_of_true rfl hfit
  · obtain ⟨fault, hparse⟩ := parse_of_not_fit hfit
    rw [hparse]
    exact iff_of_false Bool.false_ne_true hfit

end Image

/-! ### Files that share the headers -/

namespace Headers

section Shared

variable {bytes other : Bytes} (hfit : Fit bytes)
  (hshared : ∀ i < max (stop bytes) 0x40, other[i]? = bytes[i]?)

include hshared

/-- The DOS header is shared. -/
theorem wordIn_dosHeader {offset width : Nat} (h : offset + width ≤ 0x40) :
    other.wordIn offset width = bytes.wordIn offset width :=
  congrArg littleEndian <| Bytes.within_congr fun i hi =>
    hshared i (hi.trans_le (h.trans (Nat.le_max_right ..)))

/-- The headers begin at the same offset. -/
theorem start_shared : start other = start bytes := wordIn_dosHeader hshared (by decide)

include hfit

/-- The headers from the signature on are shared, up to the fields of the optional header that are
read. -/
theorem wordIn_field {position width : Nat} (h : position + width ≤ 56) :
    other.wordIn (start other + position) width = bytes.wordIn (start bytes + position) width := by
  have hroom := hfit.optionalRoom
  have hstop : start bytes + position + width ≤ stop bytes := by
    rw [stop, table]
    omega
  rw [start_shared hshared]
  exact congrArg littleEndian <| Bytes.within_congr fun i hi =>
    hshared i (hi.trans_le (hstop.trans (Nat.le_max_left ..)))

/-- The machine word is shared. -/
theorem machine_shared : machine other = machine bytes :=
  congrArg UInt16.ofNat (wordIn_field hfit hshared (by decide))

/-- The number of rows is shared. -/
theorem sectionCount_shared : sectionCount other = sectionCount bytes :=
  wordIn_field hfit hshared (by decide)

/-- The size of the optional header is shared. -/
theorem optionalSize_shared : optionalSize other = optionalSize bytes :=
  wordIn_field hfit hshared (by decide)

/-- The kind of the optional header is shared. -/
theorem magic_shared : magic other = magic bytes := wordIn_field hfit hshared (by decide)

/-- The section table stands at the same offset. -/
theorem table_shared : table other = table bytes := by
  rw [table, start_shared hshared, optionalSize_shared hfit hshared, table]

/-- The headers end at the same offset. -/
theorem stop_shared : stop other = stop bytes := by
  rw [stop, table_shared hfit hshared, sectionCount_shared hfit hshared, stop]

/-- The preferred address is shared. -/
theorem imageBase_shared : imageBase other = imageBase bytes := by
  rw [imageBase, wide, magic_shared hfit hshared, wordIn_field hfit hshared (by decide),
    wordIn_field hfit hshared (by decide), imageBase, wide]

/-- The rows of the section table are shared. -/
theorem row_shared {i : Nat} (hi : i < sectionCount bytes) : row other i = row bytes i := by
  have hstop : table bytes + i * 40 + 40 ≤ stop bytes := by
    rw [stop]
    omega
  rw [row, table_shared hfit hshared]
  exact Bytes.within_congr fun k hk => hshared k (hk.trans_le (hstop.trans (Nat.le_max_left ..)))

/-- The headers describe the same image. -/
theorem image_shared : image other = image bytes := by
  have hsections : (List.range (sectionCount bytes)).map (fun i => Section.ofRow (row other i)) =
      (List.range (sectionCount bytes)).map fun i => Section.ofRow (row bytes i) :=
    List.map_congr_left fun i hi =>
      congrArg Section.ofRow (row_shared hfit hshared (List.mem_range.mp hi))
  rw [image, wide, magic_shared hfit hshared, machine_shared hfit hshared,
    imageBase_shared hfit hshared, wordIn_field hfit hshared (by decide),
    sectionCount_shared hfit hshared, hsections, image, wide]

/-- The headers fit the other file, too. -/
theorem Fit.shared : Fit other := by
  have hsize : max (stop bytes) 0x40 ≤ other.size :=
    Bytes.le_size_of_getElem? hshared (Nat.max_le.mpr ⟨hfit.tableFits, hfit.dosFits⟩)
  have hstop : stop bytes ≤ other.size := (Nat.le_max_left ..).trans hsize
  have htable : table bytes ≤ other.size := (Nat.le_add_right ..).trans hstop
  have hroom : start bytes + 24 + 32 ≤ other.size :=
    (Nat.add_le_add_left hfit.optionalRoom _).trans htable
  have hstart := start_shared hshared
  exact
    { dosFits := (Nat.le_max_right ..).trans hsize
      dosMagic := (wordIn_dosHeader hshared (by decide)).trans hfit.dosMagic
      signatureFits := by omega
      signature := (wordIn_field hfit hshared (by decide : 0 + 4 ≤ 56)).trans hfit.signature
      fileFits := by omega
      optionalRoom := hfit.optionalRoom.trans_eq (optionalSize_shared hfit hshared).symm
      optionalFits := (table_shared hfit hshared).trans_le htable
      knownMagic := by rw [magic_shared hfit hshared]; exact hfit.knownMagic
      wideMachine := by
        rw [machine_shared hfit hshared, magic_shared hfit hshared]
        exact hfit.wideMachine
      narrowMachine := by
        rw [machine_shared hfit hshared, magic_shared hfit hshared]
        exact hfit.narrowMachine
      tableFits := (stop_shared hfit hshared).trans_le hstop }

end Shared

/-- Where the headers of a part of the file that has its beginning fit, those of the file end
inside that part. -/
theorem stop_le_of_fit {part bytes : Bytes} (h : part.toList <+: bytes.toList) (hfit : Fit part) :
    max (stop bytes) 0x40 ≤ part.size := by
  have hwhole : max (stop part) 0x40 ≤ part.size := Nat.max_le.mpr ⟨hfit.tableFits, hfit.dosFits⟩
  have hshared : ∀ i < max (stop part) 0x40, bytes[i]? = part[i]? := by
    intro i hi
    obtain ⟨rest, hrest⟩ := h
    rw [← Array.getElem?_toList, ← hrest, List.getElem?_append_left, Array.getElem?_toList]
    exact hi.trans_le hwhole
  rwa [stop_shared hfit hshared]

end Headers

/-! ### The headers decide the image -/

section Code

variable {identifier : String} {code : List UInt8}

/-- The value of a word of the headers around a piece of code. -/
theorem Binary.wordIn_ofCode (offset width value : Nat) (hfit : offset + width ≤ 160)
    (hbytes : ((codeHeaders code.length).drop offset).take width = wordBytes width value)
    (hvalue : value < wordCount width) :
    (ofCode identifier code).bytes.wordIn offset width = value := by
  have hread : Image.wordAt (ofCode identifier code).bytes offset width (.truncated "") =
      .ok value := wordAt_ofCode offset width value _ hfit hbytes hvalue
  exact (Image.wordAt_eq_ok_iff.mp hread).2

/-- The headers around a piece of code end where the code begins. -/
theorem Headers.stop_ofCode : stop (Binary.ofCode identifier code).bytes = 160 := by
  rw [stop, table, optionalSize, sectionCount, start,
    Binary.wordIn_ofCode 0x3C 4 0x40 (by decide) rfl (by decide),
    Binary.wordIn_ofCode (0x40 + 20) 2 32 (by decide) rfl (by decide),
    Binary.wordIn_ofCode (0x40 + 6) 2 1 (by decide) rfl (by decide)]

/-- The headers around a piece of code depend on its length alone. -/
theorem Binary.getElem?_ofCode {i : Nat} (hi : i < 160) :
    (ofCode identifier code).bytes[i]? = (codeHeaders code.length)[i]? := by
  rw [ofCode, List.getElem?_toArray, List.getElem?_append_left hi]

end Code

/-- A file is a valid image exactly when its headers fit it, and its sections are the rows of the
table then. Only the bytes up to the end of the headers count, and all of them do. -/
theorem Image.parse_exact (bytes : Bytes) :
    ((parse bytes).valid = true ↔ Headers.Fit bytes) ∧
      ((parse bytes).valid = true →
        (parse bytes).fault = none ∧
          (parse bytes).sections.length = Headers.sectionCount bytes ∧
          ∀ i < Headers.sectionCount bytes,
            (parse bytes).sections[i]? = some (Section.ofRow (Headers.row bytes i))) ∧
      ((parse bytes).valid = false →
        (∃ fault, (parse bytes).fault = some fault) ∧ (parse bytes).sections = []) ∧
      (∀ other : Bytes, (parse bytes).valid = true →
        (∀ i < max (Headers.stop bytes) 0x40, other[i]? = bytes[i]?) →
          parse other = parse bytes) ∧
      ∀ part : Bytes, part.toList <+: bytes.toList → part.size < max (Headers.stop bytes) 0x40 →
        (parse part).valid = false := by
  refine ⟨valid_parse_iff, fun hvalid => ?_, fun hinvalid => ?_, fun other hvalid hshared => ?_,
    fun part hpart hshort => ?_⟩
  · rw [parse_of_fit (valid_parse_iff.mp hvalid)]
    refine ⟨rfl, by simp [Headers.image], fun i hi => ?_⟩
    simp [Headers.image, hi]
  · have hrefused : ¬Headers.Fit bytes := fun hfit => by
      simp [valid_parse_iff.mpr hfit] at hinvalid
    obtain ⟨fault, hparse⟩ := parse_of_not_fit hrefused
    rw [hparse]
    exact ⟨⟨fault, rfl⟩, rfl⟩
  · have hfit := valid_parse_iff.mp hvalid
    rw [parse_of_fit hfit, parse_of_fit (hfit.shared hshared), Headers.image_shared hfit hshared]
  · rw [← Bool.not_eq_true, valid_parse_iff]
    exact fun hfit => absurd (Headers.stop_le_of_fit hpart hfit) (Nat.not_le_of_lt hshort)

/-- Around one byte of code the headers fit. The file stays the same image when the byte is another
one, and it is refused when it ends before the last byte of the headers. -/
theorem Image.parse_exact_ofCode :
    Headers.Fit (Binary.ofCode "" [0xC3]).bytes ∧
      parse (Binary.ofCode "" [0x90]).bytes = parse (Binary.ofCode "" [0xC3]).bytes ∧
      (parse ((Binary.codeHeaders 1).take 159).toArray).valid = false := by
  have hvalid : (parse (Binary.ofCode "" [0xC3]).bytes).valid = true :=
    congrArg Image.valid (Binary.image_ofCode (by decide))
  obtain ⟨hfit, -, -, hshared, hshort⟩ := parse_exact (Binary.ofCode "" [0xC3]).bytes
  rw [Headers.stop_ofCode] at hshared hshort
  refine ⟨hfit.mp hvalid, hshared _ hvalid fun i hi => ?_, hshort _ ?_ ?_⟩
  · rw [Binary.getElem?_ofCode hi, Binary.getElem?_ofCode hi]
    rfl
  · exact (List.take_prefix 159 (Binary.codeHeaders 1)).trans (List.prefix_append _ [0xC3])
  · exact (by decide : 159 < max 160 0x40)

end LayoutWatch
