import LayoutWatch.Binary
import LayoutWatch.Json.Lexeme

/-!
# Written images

Images, their faults, accesses and summaries as structured text, and patterns in their stored form.
-/

namespace LayoutWatch

open Json

/-- Read a section. -/
def Section.ofValue? (v : Value) : Option Section := do
  let r ← Record.ofTree? ["name", "virtual_address", "virtual_size", "raw_address", "raw_size",
    "characteristics"] v
  return {
    name := ← r.required "name" Tree.text?
    virtualAddress := ← r.required "virtual_address" Tree.word32?
    virtualSize := ← r.required "virtual_size" Tree.word32?
    rawAddress := ← r.required "raw_address" Tree.word32?
    rawSize := ← r.required "raw_size" Tree.word32?
    characteristics := ← r.required "characteristics" Tree.word32? }

/-- Write a section. -/
def Section.toValue (s : Section) : Value :=
  ofMembers [
    member "name" (ofText s.name),
    member "virtual_address" (ofNat s.virtualAddress.toNat),
    member "virtual_size" (ofNat s.virtualSize.toNat),
    member "raw_address" (ofNat s.rawAddress.toNat),
    member "raw_size" (ofNat s.rawSize.toNat),
    member "characteristics" (ofNat s.characteristics.toNat)]

namespace HeaderFault

/-- Read what a fault of this name holds. -/
def ofNamed? (name : String) (v : Value) : Option HeaderFault :=
  match name with
  | "too_small" => v.word64?.map .tooSmall
  | "bad_dos_magic" => v.word16?.map .badDosMagic
  | "header_out_of_bounds" => v.word32?.map .headerOutOfBounds
  | "bad_pe_magic" => v.word32?.map .badSignature
  | "truncated" => v.text?.map .truncated
  | "unknown_optional_magic" => v.word16?.map .unknownOptionalMagic
  | "machine_mismatch" => do
    let r ← Record.ofTree? ["machine", "magic"] v
    return .machineMismatch (← r.required "machine" Tree.word16?)
      (← r.required "magic" Tree.word16?)
  | _ => none

/-- Read a fault: a record of its name alone. -/
def ofValue? : Value → Option HeaderFault
  | .record [(name, v)] => do ofNamed? (← Scalar.text? name) v
  | _ => none

/-- Write a fault. -/
def toValue : HeaderFault → Value
  | .tooSmall size => ofMembers [member "too_small" (ofNat size.toNat)]
  | .badDosMagic found => ofMembers [member "bad_dos_magic" (ofNat found.toNat)]
  | .headerOutOfBounds offset => ofMembers [member "header_out_of_bounds" (ofNat offset.toNat)]
  | .badSignature found => ofMembers [member "bad_pe_magic" (ofNat found.toNat)]
  | .truncated part => ofMembers [member "truncated" (ofText part)]
  | .unknownOptionalMagic found =>
    ofMembers [member "unknown_optional_magic" (ofNat found.toNat)]
  | .machineMismatch machine magic =>
    ofMembers [member "machine_mismatch" (ofMembers [
      member "machine" (ofNat machine.toNat), member "magic" (ofNat magic.toNat)])]

end HeaderFault

/-- Read an image. -/
def Image.ofValue? (v : Value) : Option Image := do
  let r ← Record.ofTree? ["valid", "error", "is_64bit", "machine", "image_base",
    "entry_point_rva", "sections"] v
  return {
    valid := ← r.required "valid" bool?
    fault := ← r.optional "error" HeaderFault.ofValue?
    wide := ← r.required "is_64bit" bool?
    machine := ← r.required "machine" Tree.word16?
    imageBase := ← r.required "image_base" Tree.word64?
    entryPoint := ← r.required "entry_point_rva" Tree.word32?
    sections := ← r.required "sections" (Tree.list? Section.ofValue?) }

/-- The members of a written image. -/
def Image.toMembers (image : Image) : List (List Member) := [
  member "valid" (ofBool image.valid),
  presentMember "error" HeaderFault.toValue image.fault,
  member "is_64bit" (ofBool image.wide),
  member "machine" (ofNat image.machine.toNat),
  member "image_base" (ofNat image.imageBase.toNat),
  member "entry_point_rva" (ofNat image.entryPoint.toNat),
  member "sections" (ofList Section.toValue image.sections)]

/-- Write an image. -/
def Image.toValue (image : Image) : Value := ofMembers image.toMembers

/-- Write a summary; the members of the image stand beside its own. -/
def BinarySummary.toValue (s : BinarySummary) : Value :=
  ofMembers ([
    member "identifier" (ofText s.identifier),
    member "size" (ofNat s.size),
    member "binary_hash" (ofText s.binaryHash)] ++ s.image.toMembers)

namespace Access

/-- Name of a kind of access in files. -/
def Kind.name : Kind → String
  | .load => "mov_read"
  | .store => "mov_write"
  | .address => "lea"

/-- The kind of access with a name. -/
def Kind.ofName? : String → Option Kind
  | "mov_read" => some .load
  | "mov_write" => some .store
  | "lea" => some .address
  | _ => none

/-- Write an access. -/
def toValue (a : Access) : Value :=
  ofMembers [
    member "file_offset" (ofNat a.fileOffset),
    member "kind" (ofText a.kind.name),
    member "instruction_bytes" (ofList (fun b => ofNat b.toNat) a.bytes)]

end Access

/-- Write the summary of an index. -/
def AccessIndex.Stats.toValue (s : AccessIndex.Stats) : Value :=
  ofMembers [
    member "unique_offsets" (ofNat s.uniqueOffsets),
    member "total_entries" (ofNat s.totalEntries),
    member "top_offsets" (ofList (fun (d, n) => .list [ofNat d, ofNat n]) s.topOffsets)]

namespace Pattern.Stored

/-- Read a pattern in its stored form. -/
def ofValue? (v : Value) : Option Pattern.Stored := do
  let r ← Record.ofTree? ["bytes", "mask"] v
  return {
    bytes := ← r.required "bytes" (Tree.list? Tree.word8?)
    mask := ← r.required "mask" (Tree.list? bool?) }

/-- Write a pattern in its stored form. -/
def toValue (p : Pattern.Stored) : Value :=
  ofMembers [
    member "bytes" (ofList (fun b => ofNat b.toNat) p.bytes),
    member "mask" (ofList ofBool p.mask)]

end Pattern.Stored

end LayoutWatch
