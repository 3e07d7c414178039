import LayoutWatch.Binary64.Basic
import LayoutWatch.Ordered
import LayoutWatch.Text.Numeral

/-!
# Shifts

A member of a struct that is seen at two offsets is a sample of a shift. Samples with one delta
form a group. Two questions are answered: which deltas are shared at all, and which delta the
majority of the moved members of a family of structs agrees on.
-/

namespace LayoutWatch

namespace Delta

/-- Least delta. -/
def least : Int := -0x8000000000000000

/-- Greatest delta. -/
def greatest : Int := 0x7FFFFFFFFFFFFFFF

/-- The nearest delta in the range of signed 64-bit words. -/
def clamp (difference : Int) : Int := max least (min greatest difference)

/-- The difference of two offsets, in a word of 128 bits. -/
def difference (old new : UInt64) : BitVec 128 :=
  new.toBitVec.setWidth 128 - old.toBitVec.setWidth 128

/-- A number as a delta, if it is in the range of signed 64-bit words. -/
def ofNumber? (number : Int) : Option Int :=
  if least ≤ number ∧ number ≤ greatest then some number else none

/-- The delta between two offsets: their difference, or the end of the range behind which it
lies. -/
def between (old new : UInt64) : Int :=
  let number := (difference old new).toInt
  (ofNumber? number).getD (if number < 0 then least else greatest)

/-- A delta with its sign, in hexadecimal. -/
def text (delta : Int) : String := (if delta < 0 then "-" else "+") ++ Text.hex delta.natAbs

end Delta

/-- A member of a struct at an old and a new offset. -/
structure Shift where
  /-- Struct of the member. -/
  structName : String
  /-- Name of the member. -/
  member : String
  /-- Offset before. -/
  oldOffset : Int
  /-- Offset after. -/
  newOffset : Int
  /-- How far the member moved. -/
  delta : Int
  deriving DecidableEq, Repr

namespace Shift

/-- The sample of a member at two signed offsets. -/
def ofSigned (structName member : String) (old new : Int) : Shift :=
  ⟨structName, member, old, new, Delta.clamp (new - old)⟩

/-- The sample of a member at two offsets in files. -/
def ofOffsets (structName member : String) (old new : UInt64) : Shift :=
  ⟨structName, member, Delta.clamp old.toNat, Delta.clamp new.toNat, Delta.between old new⟩

/-- Struct and member in one name. -/
def qualified (s : Shift) : String := s.structName ++ "::" ++ s.member

end Shift

/-- Samples that share a delta, with those that speak against it. -/
structure ShiftGroup where
  /-- The shared delta. -/
  delta : Int
  /-- Samples with the delta. -/
  members : List Shift
  /-- Samples with another delta. -/
  anomalies : List Shift
  /-- Number of samples that were asked. -/
  totalCandidates : Nat
  /-- Share of the members among them. -/
  confidence : Binary64
  deriving DecidableEq, Repr

namespace ShiftGroup

/-- Number of samples that a shared delta needs. -/
def leastSize : Nat := 2

/-- Structs of the members, ascending. -/
def structs (g : ShiftGroup) : List String :=
  Ordered.distinctTexts (g.members.map (·.structName))

/-- Qualified names of the members. -/
def memberNames (g : ShiftGroup) : List String := g.members.map Shift.qualified

/-- The group of one delta. Samples of the same structs with another delta are anomalies. -/
def ofDelta (samples : List Shift) (delta : Int) : ShiftGroup :=
  let members := samples.filter (·.delta = delta)
  let anomalies := samples.filter fun s =>
    s.delta ≠ delta && members.any (·.structName == s.structName)
  let total := members.length + anomalies.length
  ⟨delta, members, anomalies, total, Binary64.share members.length total⟩

/-- Larger groups come first, then the smaller delta. -/
def ranksBefore (a b : ShiftGroup) : Bool :=
  decide (b.members.length < a.members.length
    ∨ a.members.length = b.members.length ∧ a.delta ≤ b.delta)

/-- The groups of all deltas that enough samples share. -/
def ofSamples (samples : List Shift) : List ShiftGroup :=
  let deltas := (samples.map (·.delta)).eraseDups
  ((deltas.map (ofDelta samples)).filter fun g => leastSize ≤ g.members.length).mergeSort
    ranksBefore

/-- A delta wins over another by the number of its samples, then by the smaller distance, then by
the smaller value. -/
def beats (a b : Int × Nat) : Bool :=
  decide (b.2 < a.2
    ∨ a.2 = b.2 ∧ (a.1.natAbs < b.1.natAbs ∨ a.1.natAbs = b.1.natAbs ∧ a.1 < b.1))

/-- The vote of the samples that moved. The winning delta needs enough samples. Those with another
delta are anomalies, and those that did not move count against it only in the share. -/
def majority? (samples : List Shift) : Option ShiftGroup :=
  let moved := samples.filter (·.delta ≠ 0)
  let counts := (moved.map (·.delta)).eraseDups.map fun delta =>
    (delta, moved.countP (·.delta = delta))
  match Ordered.best? beats counts with
  | none => none
  | some (delta, count) =>
    if count < leastSize then none
    else
      let members := moved.filter (·.delta = delta)
      some ⟨delta, members, moved.filter (·.delta ≠ delta), samples.length,
        Binary64.share members.length samples.length⟩

end ShiftGroup

end LayoutWatch
