import LayoutWatch.Image

/-!
# Reading the headers of an image

The DOS header leads to the file header, behind which stand the optional header and the section
table. Each step names the fault that ends the reading, and reading never looks behind the table.
-/

namespace LayoutWatch.Image

/-- Go on if a condition holds, and stop with a fault if it does not. -/
def require (condition : Prop) [Decidable condition] (fault : HeaderFault) :
    Except HeaderFault Unit :=
  if condition then .ok () else .error fault

/-- The word at an offset, or a fault when the file does not hold it. -/
def wordAt (bytes : Bytes) (offset width : Nat) (fault : HeaderFault) : Except HeaderFault Nat :=
  match bytes.word? offset width with
  | some word => .ok word
  | none => .error fault

/-- The optional header has the word size of 64-bit images, or that of 32-bit images. -/
def wideOfMagic (magic : Nat) : Except HeaderFault Bool :=
  if magic = 0x10B then .ok false
  else if magic = 0x20B then .ok true
  else .error (.unknownOptionalMagic (UInt16.ofNat magic))

/-- The machine is known to have the other word size. -/
def contradicts (machine : UInt16) (wide : Bool) : Bool :=
  if machine == amd64 || machine == arm64 then !wide
  else if machine == i386 then wide
  else false

/-- A section name ends at the first zero; what is not a visible ASCII character becomes a dot. -/
def sectionName (raw : List UInt8) : String :=
  String.ofList <| (raw.takeWhile (· != 0)).map fun b =>
    if 0x21 ≤ b ∧ b ≤ 0x7E then Char.ofNat b.toNat else '.'

/-- The row of the section table at an offset. -/
def sectionAt (bytes : Bytes) (offset : Nat) : Except HeaderFault Section := do
  let field (position : Nat) := wordAt bytes (offset + position) 4 (.truncated "section header")
  let virtualSize ← field 8
  let virtualAddress ← field 12
  let rawSize ← field 16
  let rawAddress ← field 20
  let characteristics ← field 36
  return {
    name := sectionName (bytes.within ⟨offset, offset + 8⟩)
    virtualAddress := UInt32.ofNat virtualAddress
    virtualSize := UInt32.ofNat virtualSize
    rawAddress := UInt32.ofNat rawAddress
    rawSize := UInt32.ofNat rawSize
    characteristics := UInt32.ofNat characteristics }

/-- Read the headers, or say why they are refused. -/
def ofHeaders (bytes : Bytes) : Except HeaderFault Image := do
  require (0x40 ≤ bytes.size) (.tooSmall (UInt64.ofNat bytes.size))
  let dosMagic ← wordAt bytes 0 2 (.truncated "DOS header")
  require (dosMagic = 0x5A4D) (.badDosMagic (UInt16.ofNat dosMagic))
  let header ← wordAt bytes 0x3C 4 (.truncated "DOS header")
  let signature ← wordAt bytes header 4 (.headerOutOfBounds (UInt32.ofNat header))
  require (signature = 0x4550) (.badSignature (UInt32.ofNat signature))
  let file := header + 4
  require (file + 20 ≤ bytes.size) (.truncated "COFF header")
  let machine ← wordAt bytes file 2 (.truncated "COFF header")
  let sectionCount ← wordAt bytes (file + 2) 2 (.truncated "COFF header")
  let optionalSize ← wordAt bytes (file + 16) 2 (.truncated "COFF header")
  let optional := file + 20
  let table := optional + optionalSize
  require (2 ≤ optionalSize ∧ table ≤ bytes.size) (.truncated "optional header")
  let magic ← wordAt bytes optional 2 (.truncated "optional header")
  let wide ← wideOfMagic magic
  require (contradicts (UInt16.ofNat machine) wide = false)
    (.machineMismatch (UInt16.ofNat machine) (UInt16.ofNat magic))
  require (32 ≤ optionalSize) (.truncated "optional header")
  let entryPoint ← wordAt bytes (optional + 16) 4 (.truncated "optional header")
  let imageBase ←
    if wide then wordAt bytes (optional + 24) 8 (.truncated "optional header")
    else wordAt bytes (optional + 28) 4 (.truncated "optional header")
  require (table + sectionCount * 40 ≤ bytes.size) (.truncated "section table")
  let sections ← (List.range sectionCount).mapM fun i => sectionAt bytes (table + i * 40)
  return {
    valid := true
    fault := none
    wide
    machine := UInt16.ofNat machine
    imageBase := UInt64.ofNat imageBase
    entryPoint := UInt32.ofNat entryPoint
    sections }

/-- The image that is left when the headers are refused. -/
def refused (fault : HeaderFault) : Image :=
  { valid := false, fault := some fault, wide := false, machine := 0, imageBase := 0
    entryPoint := 0, sections := [] }

/-- What the headers of a file say; a fault makes an image that is not valid. -/
def parse (bytes : Bytes) : Image :=
  match ofHeaders bytes with
  | .ok image => image
  | .error fault => refused fault

end LayoutWatch.Image
