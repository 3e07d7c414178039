import LayoutWatch.Proofs.Bytes

/-!
# Offsets of 64 bits

An offset is a number of 64 bits. A sum of two offsets may be none, and then it is either left out
or capped at the last offset. Between two offsets that stand in order inside the file, bytes are
read.
-/

namespace LayoutWatch

/-! ## Sums of offsets -/

/-- Number of offsets that 64 bits can tell apart. -/
def offsetCount : Nat := 0x10000000000000000

/-- The sum of two offsets, where it is an offset. -/
def sum? (a b : Nat) : Option Nat := if a + b < offsetCount then some (a + b) else none

/-- A sum that is an offset is the sum. -/
theorem eq_of_sum? {a b sum : Nat} (h : sum? a b = some sum) : a + b = sum := by
  rw [sum?, Option.ite_none_right_eq_some] at h
  exact Option.some.inj h.2

/-- The sum of two offsets, or the last offset where the sum is none. -/
def cappedSum (a b : Nat) : Nat := min (a + b) (offsetCount - 1)

/-- A sum that is capped at a bound below the last offset is not capped before. -/
theorem min_cappedSum {a b stop : Nat} (h : stop < offsetCount) :
    min (cappedSum a b) stop = min (a + b) stop := by
  rw [cappedSum]
  omega

/-! ## Reads from one offset to another -/

namespace Bytes

/-- The bytes from one offset up to another one, where they stand in this order in the file. -/
def between? (bytes : Bytes) (start stop : Nat) : Option (List UInt8) :=
  if start ≤ stop ∧ stop ≤ bytes.size then some (bytes.within ⟨start, stop⟩) else none

variable {bytes : Bytes} {start middle stop : Nat} {front back word : List UInt8}

/-- Bytes are read where the offsets stand in order. -/
theorem between?_eq_some (hstart : start ≤ stop) (hstop : stop ≤ bytes.size) :
    bytes.between? start stop = some (bytes.within ⟨start, stop⟩) := if_pos ⟨hstart, hstop⟩

/-- Bytes that were read are those of a window. -/
theorem within_of_between? (h : bytes.between? start stop = some word) :
    bytes.within ⟨start, stop⟩ = word := by
  rw [between?, Option.ite_none_right_eq_some] at h
  exact Option.some.inj h.2

/-- What was read one after the other is read at once. -/
theorem between?_append (hfront : bytes.between? start middle = some front)
    (hback : bytes.between? middle stop = some back) :
    bytes.between? start stop = some (front ++ back) := by
  rw [between?, Option.ite_none_right_eq_some, Option.some.injEq] at hfront hback ⊢
  obtain ⟨hfirst, rfl⟩ := hfront
  obtain ⟨hsecond, rfl⟩ := hback
  refine ⟨by omega, ?_⟩
  simp only [within]
  rw [← Array.toList_append, Array.extract_append_extract, Nat.min_eq_left hfirst.1,
    Nat.max_eq_right hsecond.1]

/-- A number of bytes is read from one offset up to the one behind them. -/
theorem between?_add (bytes : Bytes) (start count : Nat) :
    bytes.between? start (start + count) = bytes.slice? start count := by
  rw [between?, slice?]
  simp

/-- The bytes from a distance behind an offset on, with every sum checked. -/
def checkedSlice? (bytes : Bytes) (offset distance count : Nat) : Option (List UInt8) := do
  let start ← sum? offset distance
  let stop ← sum? start count
  bytes.between? start stop

/-- In a file whose size is an offset, a sum that is none leads out of the file. -/
theorem checkedSlice?_eq (hsize : bytes.size < offsetCount) (offset distance count : Nat) :
    bytes.checkedSlice? offset distance count = bytes.slice? (offset + distance) count := by
  by_cases hfit : offset + distance + count ≤ bytes.size
  · have hstart : sum? offset distance = some (offset + distance) := if_pos (by omega)
    have hstop : sum? (offset + distance) count = some (offset + distance + count) :=
      if_pos (by omega)
    rw [checkedSlice?, hstart, Option.bind_eq_bind, Option.bind_some, hstop, Option.bind_some,
      between?_add]
  · have hnone : bytes.slice? (offset + distance) count = none := if_neg hfit
    rw [hnone, checkedSlice?, Option.bind_eq_bind, Option.bind_eq_none_iff]
    intro start hstart
    obtain rfl : offset + distance = start := eq_of_sum? hstart
    rw [Option.bind_eq_none_iff]
    intro stop hstop
    obtain rfl : offset + distance + count = stop := eq_of_sum? hstop
    rw [between?_add, hnone]

end Bytes

end LayoutWatch
