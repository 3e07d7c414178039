import LayoutWatch.Digest
import LayoutWatch.Image.Headers
import LayoutWatch.Pattern.Search
import LayoutWatch.Signature

/-!
# Binaries

A binary is a file with a name. What a scan asks of it is derived from its bytes: the image, the
digest, the index of accesses, and the parts of the file that a signature is looked for in.
-/

namespace LayoutWatch

/-- A file that is examined. -/
structure Binary where
  /-- Name by which reports refer to the file. -/
  identifier : String
  /-- Contents of the file. -/
  bytes : Bytes

/-- Why a binary was not examined. -/
inductive ScanFault where
  /-- The file is no valid image. -/
  | invalidImage (identifier reason : String)
  /-- A text of this signature is no pattern. -/
  | malformedPattern (structName fieldName : String) (cause : Pattern.Malformed)
  deriving DecidableEq, Repr

/-- The wording of a fault. -/
def ScanFault.message : ScanFault → String
  | .invalidImage identifier reason => identifier ++ " is not a valid PE image: " ++ reason
  | .malformedPattern structName fieldName cause =>
    "Signature " ++ structName ++ "::" ++ fieldName ++ " has a malformed pattern: "
      ++ cause.message

namespace Binary

/-- What the headers of the file say. -/
def image (b : Binary) : Image := Image.parse b.bytes

/-- Digest of the file. -/
def hash (b : Binary) : String := Digest.ofBytes b.bytes

/-- Why the image is not valid, in words. -/
def invalidReason (image : Image) : String :=
  match image.fault with
  | some fault => fault.message
  | none => "unknown error"

/-- The image of the file, if it is valid. -/
def validImage (b : Binary) : Except ScanFault Image :=
  if b.image.valid then .ok b.image
  else .error (.invalidImage b.identifier (invalidReason b.image))

/-- The index of accesses. -/
def index (b : Binary) : Except ScanFault AccessIndex :=
  b.validImage.map fun image => AccessIndex.build image b.bytes

/-- The file windows of the executable sections. -/
def executableWindows (b : Binary) : List Window := b.image.executableWindows b.bytes.size

/-- Where signatures of a kind are looked for: in executable sections, or in the whole file. -/
def searchWindows (b : Binary) (kind : Signature.Kind) : List Window :=
  if kind.isCode then b.executableWindows else [⟨0, b.bytes.size⟩]

/-- Every place in a list of windows at which a pattern matches, window by window. -/
def sites (b : Binary) (windows : List Window) (p : Pattern) : List Nat :=
  windows.flatMap (p.findAll b.bytes)

end Binary

/-- Headers and identity of a binary. -/
structure BinarySummary where
  /-- Name of the file. -/
  identifier : String
  /-- Number of bytes. -/
  size : Nat
  /-- Digest of the file. -/
  binaryHash : String
  /-- What the headers say. -/
  image : Image

/-- Headers and identity of a binary, valid or not. -/
def Binary.summary (b : Binary) : BinarySummary := ⟨b.identifier, b.bytes.size, b.hash, b.image⟩

end LayoutWatch
