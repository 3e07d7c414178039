import LayoutWatch.Bytes
import LayoutWatch.Text.Numeral

/-!
# Executable images

The part of a portable executable that a scan needs: machine, entry point, image base and section
table. An image whose headers could not be read is kept with the fault that was found.
-/

namespace LayoutWatch

/-- Why the headers of a file were refused. -/
inductive HeaderFault where
  /-- The file cannot hold a DOS header. -/
  | tooSmall (size : UInt64)
  /-- The file does not begin with the DOS magic. -/
  | badDosMagic (found : UInt16)
  /-- The header offset leads out of the file. -/
  | headerOutOfBounds (offset : UInt32)
  /-- The header offset does not lead to the signature of the format. -/
  | badSignature (found : UInt32)
  /-- The file ends inside this part. -/
  | truncated (part : String)
  /-- The optional header is of no known kind. -/
  | unknownOptionalMagic (found : UInt16)
  /-- The optional header and the machine disagree on the word size. -/
  | machineMismatch (machine magic : UInt16)
  deriving DecidableEq, Repr

/-- The wording of a header fault. -/
def HeaderFault.message : HeaderFault → String
  | .tooSmall size => s!"buffer too small for a DOS header ({size} bytes)"
  | .badDosMagic found => s!"missing DOS magic (found {Text.hexPadded 4 found.toNat})"
  | .headerOutOfBounds offset =>
    s!"PE header offset {Text.hex offset.toNat} lies outside the buffer"
  | .badSignature found => s!"missing PE signature (found {Text.hexPadded 8 found.toNat})"
  | .truncated part => s!"truncated {part}"
  | .unknownOptionalMagic found =>
    s!"unknown optional header magic {Text.hexPadded 4 found.toNat}"
  | .machineMismatch machine magic =>
    s!"optional header magic {Text.hexPadded 4 magic.toNat} does not match machine "
      ++ Text.hexPadded 4 machine.toNat

/-- One row of the section table. -/
structure Section where
  /-- Name, up to eight characters. -/
  name : String
  /-- Where the section is mapped, relative to the image base. -/
  virtualAddress : UInt32
  /-- Size once mapped; zero leaves it to the raw size. -/
  virtualSize : UInt32
  /-- Where the section stands in the file. -/
  rawAddress : UInt32
  /-- Size in the file. -/
  rawSize : UInt32
  /-- Flags of the section. -/
  characteristics : UInt32
  deriving DecidableEq, Repr

namespace Section

/-- Flag of sections that hold code. -/
def holdsCode : UInt32 := 0x20

/-- Flag of sections that may be executed. -/
def mayExecute : UInt32 := 0x20000000

/-- One of the two flags of executable sections is set. -/
def isExecutable (s : Section) : Bool := s.characteristics &&& (holdsCode ||| mayExecute) != 0

/-- Size of the section once mapped. -/
def mappedSize (s : Section) : UInt32 :=
  if s.virtualSize == 0 then s.rawSize else s.virtualSize

/-- The part of a file of this size that backs the section. -/
def fileWindow (s : Section) (fileSize : Nat) : Window :=
  let start := min s.rawAddress.toNat fileSize
  ⟨start, min (start + s.rawSize.toNat) fileSize⟩

/-- The bytes of the section. -/
def data (s : Section) (bytes : Bytes) : List UInt8 := bytes.within (s.fileWindow bytes.size)

end Section

/-- What the headers of a file say. -/
structure Image where
  /-- The headers were read without a fault. -/
  valid : Bool
  /-- The fault that was found. -/
  fault : Option HeaderFault
  /-- Addresses have 64 bits. -/
  wide : Bool
  /-- Machine word of the file header. -/
  machine : UInt16
  /-- Preferred address of the image. -/
  imageBase : UInt64
  /-- Entry point, relative to the image base. -/
  entryPoint : UInt32
  /-- Sections in the order of the table. -/
  sections : List Section
  deriving DecidableEq, Repr

namespace Image

/-- Machine word of 32-bit x86. -/
def i386 : UInt16 := 0x014C

/-- Machine word of 64-bit x86. -/
def amd64 : UInt16 := 0x8664

/-- Machine word of 64-bit ARM. -/
def arm64 : UInt16 := 0xAA64

/-- Short name of the architecture. -/
def architecture? (image : Image) : Option String :=
  if image.machine == amd64 then some "x86_64"
  else if image.machine == i386 then some "x86"
  else if image.machine == arm64 then some "arm64"
  else none

/-- Sections that may be executed, in the order of the table. -/
def executableSections (image : Image) : List Section := image.sections.filter Section.isExecutable

/-- The file windows of the executable sections, in the order of the table. -/
def executableWindows (image : Image) (fileSize : Nat) : List Window :=
  image.executableSections.map (·.fileWindow fileSize)

/-- The first section of this name. -/
def sectionNamed? (image : Image) (name : String) : Option Section :=
  image.sections.find? (·.name == name)

/-- The file offset of a relative address, from the first section that backs it in the file. -/
def offsetOfAddress? (image : Image) (address : UInt32) : Option UInt32 :=
  image.sections.findSome? fun s =>
    if s.virtualAddress ≤ address
        ∧ address - s.virtualAddress < s.mappedSize ∧ address - s.virtualAddress < s.rawSize
        ∧ s.rawAddress.toNat + (address - s.virtualAddress).toNat < UInt32.size then
      some (s.rawAddress + (address - s.virtualAddress))
    else none

/-- The relative address of a file offset, from the first section whose raw data hold it. -/
def addressOfOffset? (image : Image) (offset : UInt32) : Option UInt32 :=
  image.sections.findSome? fun s =>
    if s.rawAddress ≤ offset ∧ offset - s.rawAddress < s.rawSize
        ∧ s.virtualAddress.toNat + (offset - s.rawAddress).toNat < UInt32.size then
      some (s.virtualAddress + (offset - s.rawAddress))
    else none

end Image

end LayoutWatch
