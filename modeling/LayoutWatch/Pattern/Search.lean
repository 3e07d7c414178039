import LayoutWatch.Pattern.Basic

/-!
# Searching a file for a pattern

A search looks at the places where the first fixed byte of the pattern stands and compares the
whole pattern there. The first run of wildcards of a pattern is a displacement, read at a match as
a signed little-endian word.
-/

namespace LayoutWatch.Pattern

/-- A byte fits a cell. -/
def Cell.accepts : Cell → UInt8 → Bool
  | .fixed b, actual => b == actual
  | .wildcard, _ => true

/-- The whole pattern lies inside the file at this offset and every fixed byte agrees. -/
def matchesAt (bytes : Bytes) : Pattern → Nat → Bool
  | [], offset => offset ≤ bytes.size
  | cell :: rest, offset =>
    match bytes[offset]? with
    | some actual => cell.accepts actual && matchesAt bytes rest (offset + 1)
    | none => false

/-- Index and value of the first fixed byte. -/
def anchor? : Pattern → Option (Nat × UInt8)
  | [] => none
  | .fixed b :: _ => some (0, b)
  | .wildcard :: rest => (anchor? rest).map fun (i, b) => (i + 1, b)

/-- Every offset of the window at which the pattern fits into the window and matches, ascending.
Offsets are those of the file, and the empty pattern is nowhere. -/
def findAll (p : Pattern) (bytes : Bytes) (window : Window) : List Nat :=
  let stop := min window.stop bytes.size
  let start := min window.start stop
  if p.isEmpty || stop - start < p.length then []
  else
    let count := stop - start - p.length + 1
    match anchor? p with
    | none => List.range' start count
    | some (index, byte) =>
      (List.range' (start + index) count).filter (fun i => bytes[i]? == some byte)
        |>.map (· - index)
        |>.filter (matchesAt bytes p)

/-- The first run of wildcards, as a window on the positions of the pattern. -/
def wildcardRun? (p : Pattern) : Option Window :=
  let before := p.takeWhile Cell.isFixed
  let run := (p.dropWhile Cell.isFixed).takeWhile (!·.isFixed)
  if run.isEmpty then none else some ⟨before.length, before.length + run.length⟩

/-- Value of a two's-complement little-endian word. -/
def signedLittleEndian (word : List UInt8) : Int :=
  Int.bmod (littleEndian word) (wordCount word.length)

/-- The displacement that a match at this offset carries. The run of wildcards has to be one, two
or four bytes wide and to lie inside the file. -/
def displacement? (p : Pattern) (bytes : Bytes) (offset : Nat) : Option Int := do
  let run ← wildcardRun? p
  let word ← bytes.slice? (offset + run.start) run.size
  if word.length = 1 ∨ word.length = 2 ∨ word.length = 4 then
    some (signedLittleEndian word)
  else none

end LayoutWatch.Pattern
