import LayoutWatch.Image
import LayoutWatch.Ordered

/-!
# Accesses through a base register

Code reaches a field through a register and a displacement of four bytes. Three instructions of
seven bytes are recognised: a load, a store and an address computation, each on 64-bit registers
and without an index register. The index lists every such access in the executable sections.
-/

namespace LayoutWatch

/-- What an access does with the field. -/
inductive Access.Kind where
  /-- The field is loaded. -/
  | load
  /-- The field is stored to. -/
  | store
  /-- The address of the field is computed. -/
  | address
  deriving DecidableEq, Repr

/-- Name of a kind of access in notes. -/
def Access.Kind.label : Access.Kind → String
  | .load => "mov-read"
  | .store => "mov-write"
  | .address => "lea"

/-- One access in a file. -/
structure Access where
  /-- File offset of the instruction. -/
  fileOffset : Nat
  /-- What it does with the field. -/
  kind : Access.Kind
  /-- Bytes of the instruction. -/
  bytes : List UInt8
  deriving DecidableEq, Repr

namespace Access

/-- Displacements from here on are not taken for field offsets. -/
def displacementLimit : Nat := 0x100000

/-- Number of bytes of an instruction. -/
def length : Nat := 7

/-- The displacement inside an instruction. -/
def displacementWindow : Window := ⟨3, 7⟩

/-- The kind of access that an operation byte stands for. -/
def Kind.ofOperation? (operation : UInt8) : Option Kind :=
  if operation == 0x8B then some .load
  else if operation == 0x89 then some .store
  else if operation == 0x8D then some .address
  else none

/-- The operand byte names a base register with a displacement of four bytes and no index. -/
def addressesBase (operand : UInt8) : Bool :=
  operand >>> 6 == 0b10 && operand &&& 0b111 != 0b100

/-- The kind and the displacement of an instruction, if it is an access. -/
def decode? : List UInt8 → Option (Kind × Nat)
  | [0x48, operation, operand, d0, d1, d2, d3] => do
    let kind ← Kind.ofOperation? operation
    let displacement := littleEndian [d0, d1, d2, d3]
    if addressesBase operand ∧ displacement < displacementLimit then
      some (kind, displacement)
    else none
  | _ => none

/-- The access at a file offset with its displacement. -/
def at? (bytes : Bytes) (offset : Nat) : Option (Nat × Access) := do
  let instruction ← bytes.slice? offset length
  let (kind, displacement) ← decode? instruction
  return (displacement, ⟨offset, kind, instruction⟩)

/-- The accesses that lie inside a window of the file, ascending, with their displacements. -/
def inWindow (bytes : Bytes) (w : Window) : List (Nat × Access) :=
  (List.range' w.start (w.size + 1 - length)).filterMap (at? bytes)

end Access

/-- All accesses of an image with their displacements, in order of discovery. -/
structure AccessIndex where
  /-- Displacement and access. -/
  sites : List (Nat × Access)
  deriving DecidableEq, Repr

namespace AccessIndex

/-- Section by section in the order of the table, ascending inside each. -/
def build (image : Image) (bytes : Bytes) : AccessIndex :=
  ⟨(image.executableWindows bytes.size).flatMap (Access.inWindow bytes)⟩

/-- The accesses with this displacement, in order of discovery. -/
def lookup (index : AccessIndex) (displacement : Nat) : List Access :=
  index.sites.filterMap fun site => if site.1 = displacement then some site.2 else none

/-- The displacements that occur, ascending. -/
def displacements (index : AccessIndex) : List Nat :=
  Ordered.distinctNumbers (index.sites.map (·.1))

/-- The displacements that occur with the number of their accesses, ascending. -/
def counts (index : AccessIndex) : List (Nat × Nat) :=
  Ordered.runLengths ((index.sites.map (·.1)).mergeSort fun a b => decide (a ≤ b))

/-- A summary of an index. -/
structure Stats where
  /-- Number of displacements that occur. -/
  uniqueOffsets : Nat
  /-- Number of accesses. -/
  totalEntries : Nat
  /-- Displacements with the number of their accesses, the most frequent first. -/
  topOffsets : List (Nat × Nat)
  deriving DecidableEq, Repr

/-- More accesses come first, then the smaller displacement. -/
def ranksBefore (a b : Nat × Nat) : Bool := decide (b.2 < a.2 ∨ a.2 = b.2 ∧ a.1 ≤ b.1)

/-- The summary with the `top` most frequent displacements. -/
def stats (index : AccessIndex) (top : Nat) : Stats where
  uniqueOffsets := index.counts.length
  totalEntries := index.sites.length
  topOffsets := (index.counts.mergeSort ranksBefore).take top

end AccessIndex

end LayoutWatch
