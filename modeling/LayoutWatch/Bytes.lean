/-!
# File contents and windows on them

A file is an array of bytes. Words are little-endian, and every read that would leave the file
has no result, so a caller states what a missing word means.
-/

namespace LayoutWatch

/-- The contents of a file. -/
abbrev Bytes := Array UInt8

/-- A half-open range of offsets. -/
structure Window where
  /-- First offset inside. -/
  start : Nat
  /-- First offset behind. -/
  stop : Nat
  deriving DecidableEq, Repr

namespace Window

/-- Number of offsets inside. -/
def size (w : Window) : Nat := w.stop - w.start

/-- The offset lies inside the window. -/
def contains (w : Window) (offset : Nat) : Bool := w.start ≤ offset && offset < w.stop

end Window

/-- Value of a little-endian word. -/
def littleEndian : List UInt8 → Nat
  | [] => 0
  | b :: rest => b.toNat + 256 * littleEndian rest

/-- Number of words of this many bytes. -/
def wordCount : Nat → Nat
  | 0 => 1
  | width + 1 => 256 * wordCount width

namespace Bytes

/-- The bytes of a window that lies inside the file; the part that does not is left out. -/
def within (bytes : Bytes) (w : Window) : List UInt8 := (bytes.extract w.start w.stop).toList

/-- The `count` bytes from `start` on, when the file holds all of them. -/
def slice? (bytes : Bytes) (start count : Nat) : Option (List UInt8) :=
  if start + count ≤ bytes.size then some (bytes.within ⟨start, start + count⟩) else none

/-- The little-endian word of `width` bytes at `start`. -/
def word? (bytes : Bytes) (start width : Nat) : Option Nat :=
  (bytes.slice? start width).map littleEndian

end Bytes

end LayoutWatch
