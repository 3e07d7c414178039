import LayoutWatch.Shift

/-!
# Deltas between offsets

Two offsets are subtracted in a word that is wide enough, and the difference is narrowed to a
signed word of 64 bits. A difference that does not fit becomes the end of the range on its side. So
the delta is the nearest one to the difference: it says whether two offsets are equal and which of
them is greater, and it follows both of them.
-/

namespace LayoutWatch.Delta

variable {old new : UInt64}

/-- The difference of two offsets fits into 128 bits. -/
theorem toInt_difference (old new : UInt64) :
    (difference old new).toInt = (new.toNat : Int) - old.toNat := by
  have hwide : ∀ offset : UInt64, (offset.toBitVec.setWidth 128).toInt = offset.toNat := by
    intro offset
    have hoffset := offset.toNat_lt
    rw [BitVec.toInt_setWidth, UInt64.toNat_toBitVec]
    exact Int.bmod_eq_of_le (by omega) (by omega)
  have hold := old.toNat_lt
  have hnew := new.toNat_lt
  rw [difference, BitVec.toInt_sub, hwide, hwide]
  exact Int.bmod_eq_of_le (by omega) (by omega)

/-- A number becomes the nearest delta, as it stands or at the end of the range on its side. -/
theorem getD_ofNumber? (number : Int) :
    (ofNumber? number).getD (if number < 0 then least else greatest) = clamp number := by
  rw [ofNumber?, clamp]
  by_cases hfits : least ≤ number ∧ number ≤ greatest
  · rw [if_pos hfits, Option.getD_some]
    omega
  · have hleast : least < 0 := by decide
    have hgreatest : 0 < greatest := by decide
    rw [if_neg hfits, Option.getD_none]
    omega

/-- The delta between two offsets is the nearest one to their difference. -/
theorem between_eq_clamp (old new : UInt64) :
    between old new = clamp ((new.toNat : Int) - old.toNat) := by
  rw [between, getD_ofNumber?, toInt_difference]

/-- The number is one of a signed word. -/
def InWord (number : Int) : Prop := least ≤ number ∧ number ≤ greatest

/-- A delta is a signed word. -/
theorem inWord_between (old new : UInt64) : InWord (between old new) := by
  rw [InWord, between_eq_clamp, clamp, least, greatest]
  omega

/-- A number in the range is left as it is. -/
theorem clamp_of_mem {number : Int} (hleast : least ≤ number) (hgreatest : number ≤ greatest) :
    clamp number = number := by
  rw [clamp]
  omega

/-- Only the difference zero is clamped to zero. -/
@[simp] theorem clamp_eq_zero_iff {difference : Int} : clamp difference = 0 ↔ difference = 0 := by
  simp only [clamp, least, greatest]
  omega

/-- What is clamped keeps its sign. -/
@[simp] theorem sign_clamp (difference : Int) : (clamp difference).sign = difference.sign := by
  have hleast : least < 0 := by decide
  have hgreatest : 0 < greatest := by decide
  rcases Int.lt_trichotomy difference 0 with hneg | rfl | hpos
  · have hclamp : clamp difference < 0 := by
      rw [clamp]
      omega
    rw [Int.sign_eq_neg_one_of_neg hclamp, Int.sign_eq_neg_one_of_neg hneg]
  · rfl
  · have hclamp : 0 < clamp difference := by
      rw [clamp]
      omega
    rw [Int.sign_eq_one_of_pos hclamp, Int.sign_eq_one_of_pos hpos]

/-- What is clamped keeps its order. -/
theorem clamp_mono {difference greater : Int} (h : difference ≤ greater) :
    clamp difference ≤ clamp greater := by
  rw [clamp, clamp]
  omega

/-- Only equal offsets are no delta apart. -/
@[simp] theorem between_eq_zero_iff : between old new = 0 ↔ old = new := by
  rw [← UInt64.toNat_inj, between_eq_clamp, clamp_eq_zero_iff]
  omega

/-- The delta has the sign of the difference. -/
theorem sign_between (old new : UInt64) :
    (between old new).sign = ((new.toNat : Int) - old.toNat).sign := by
  rw [between_eq_clamp, sign_clamp]

/-- A later offset is no smaller delta away. -/
theorem between_le_between_right {later : UInt64} (h : new ≤ later) (old : UInt64) :
    between old new ≤ between old later := by
  rw [UInt64.le_iff_toNat_le] at h
  rw [between_eq_clamp, between_eq_clamp]
  exact clamp_mono (by omega)

/-- From a later offset the delta is no greater. -/
theorem between_le_between_left {later : UInt64} (h : old ≤ later) (new : UInt64) :
    between later new ≤ between old new := by
  rw [UInt64.le_iff_toNat_le] at h
  rw [between_eq_clamp, between_eq_clamp]
  exact clamp_mono (by omega)

end LayoutWatch.Delta
