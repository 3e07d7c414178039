import LayoutWatch.Signature
import Mathlib.Algebra.Order.Ring.Int

/-!
# Scores in words of 32 bits

A score is computed from a number of sites of any size. The number is cut to a word, the points
that the sites cost are held at the end of the range and then at their limit, and what is left is
cut to a score. None of the cuts shows: every word on the way stands for the number that the
formula without bounds has there. So a score falls with the number of sites, and agreeing context
never makes up for a second site.
-/

namespace LayoutWatch.Score

/-! ## Words and their numbers -/

/-- The smaller of two words is the one of the smaller number. -/
@[simp] theorem toInt_min (a b : Int32) : (min a b).toInt = min a.toInt b.toInt := by
  change (if a ≤ b then a else b).toInt = min a.toInt b.toInt
  rw [apply_ite Int32.toInt, Int.min_def]
  simp only [Int32.le_iff_toInt_le]

/-- The greater of two words is the one of the greater number. -/
@[simp] theorem toInt_max (a b : Int32) : (max a b).toInt = max a.toInt b.toInt := by
  change (if a ≤ b then b else a).toInt = max a.toInt b.toInt
  rw [apply_ite Int32.toInt, Int.max_def]
  simp only [Int32.le_iff_toInt_le]

/-- A difference that is in the range of words is computed without overflow. -/
theorem toInt_sub_of_mem {a b : Int32} (hleast : -2 ^ 31 ≤ a.toInt - b.toInt)
    (hgreatest : a.toInt - b.toInt < 2 ^ 31) : (a - b).toInt = a.toInt - b.toInt := by
  rw [Int32.toInt_sub]
  exact Int.bmod_eq_of_le hleast hgreatest

/-- A sum that is in the range of words is computed without overflow. -/
theorem toInt_add_of_mem {a b : Int32} (hleast : -2 ^ 31 ≤ a.toInt + b.toInt)
    (hgreatest : a.toInt + b.toInt < 2 ^ 31) : (a + b).toInt = a.toInt + b.toInt := by
  rw [Int32.toInt_add]
  exact Int.bmod_eq_of_le hleast hgreatest

/-- Further sites are counted up to the greatest word. -/
@[simp] theorem toInt_furtherSites (sites : Nat) :
    (furtherSites sites).toInt = min ((sites - 1 : Nat) : Int) (2 ^ 31 - 1) := by
  rw [furtherSites, Int32.toInt_ofNat_of_lt (by omega)]
  omega

/-- A product is held at the ends of the range of words. -/
@[simp] theorem toInt_saturatedProduct (a b : Int32) :
    (saturatedProduct a b).toInt = max (-2 ^ 31) (min (2 ^ 31 - 1) (a.toInt * b.toInt)) := by
  have hleast : Int32.minValue.toInt = -2 ^ 31 := rfl
  have hgreatest : Int32.maxValue.toInt = 2 ^ 31 - 1 := rfl
  rw [saturatedProduct, Int32.ofIntClamp]
  split
  · split
    · rw [Int32.toInt_ofIntLE]
      omega
    · omega
  · omega

/-! ## Points -/

/-- Sites cost ten points each beyond the first, and thirty at most. -/
@[simp] theorem toInt_penalty (sites : Nat) :
    (penalty sites).toInt = min 30 (10 * max ((sites : Int) - 1) 0) := by
  have heach : furtherSitePenalty.toInt = 10 := rfl
  have hlimit : penaltyLimit.toInt = 30 := rfl
  rw [penalty, toInt_min, toInt_saturatedProduct, toInt_furtherSites, heach, hlimit]
  omega

/-- The weights of all kinds are between 70 and 99. -/
theorem weight_mem (kind : Signature.Kind) : 70 ≤ kind.weight ∧ kind.weight ≤ 99 := by
  cases kind <;> decide

/-- The points of a kind are its weight. -/
@[simp] theorem toInt_base (kind : Signature.Kind) : (base kind).toInt = kind.weight := by
  have hweight := weight_mem kind
  rw [base, Int32.toInt_ofNat_of_lt (by omega)]

/-- A penalty is taken from the points of a kind without overflow. -/
theorem toInt_remaining (kind : Signature.Kind) (sites : Nat) :
    (base kind - penalty sites).toInt = kind.weight - (penalty sites).toInt := by
  have hweight := weight_mem kind
  have hbase := toInt_base kind
  have hpenalty := toInt_penalty sites
  rw [← hbase]
  exact toInt_sub_of_mem (by omega) (by omega)

/-- The bonus of agreeing context is five points. -/
@[simp] theorem toInt_bonus (withContext : Bool) :
    (if withContext then contextBonus else 0 : Int32).toInt = if withContext then 5 else 0 := by
  cases withContext <;> rfl

/-- The points of a signature that was found, counted without bounds. -/
def exactPoints (kind : Signature.Kind) (sites : Nat) (withContext : Bool) : Int :=
  kind.weight - min 30 (10 * max ((sites : Int) - 1) 0) + if withContext then 5 else 0

/-- The points of a signature that was found are counted without overflow. -/
@[simp] theorem toInt_foundPoints (kind : Signature.Kind) (sites : Nat) (withContext : Bool) :
    (foundPoints kind sites withContext).toInt = exactPoints kind sites withContext := by
  have hweight := weight_mem kind
  have hpenalty := toInt_penalty sites
  have hremaining := toInt_remaining kind sites
  have hbonus : (0 : Int) ≤ (if withContext then 5 else 0) ∧
      (if withContext then 5 else 0 : Int) ≤ 5 := by
    cases withContext <;> decide
  rw [← toInt_bonus] at hbonus
  rw [foundPoints, toInt_add_of_mem (by omega) (by omega), hremaining, hpenalty, toInt_bonus,
    exactPoints]

/-- Fewer sites never cost more, and agreeing context costs nothing. -/
theorem exactPoints_le (kind : Signature.Kind) {few many : Nat} (h : few ≤ many)
    {less more : Bool} (hcontext : less ≤ more) :
    exactPoints kind many less ≤ exactPoints kind few more := by
  have hbonus : (if less then 5 else 0 : Int) ≤ if more then 5 else 0 := by
    revert less more
    decide
  rw [exactPoints, exactPoints]
  omega

/-! ## Scores -/

/-- A score is the nearest number from 0 to 100. -/
theorem toNat_clamp (points : Int32) :
    ((clamp points).toNat : Int) = max 0 (min 100 points.toInt) := by
  have hzero : (0 : Int32).toInt = 0 := rfl
  have hhundred : (100 : Int32).toInt = 100 := rfl
  have hvalue : (max 0 (min 100 points)).toInt = max 0 (min 100 points.toInt) := by
    rw [toInt_max, toInt_min, hzero, hhundred]
  have hpos : 0 ≤ max 0 (min 100 points) := by
    rw [Int32.le_iff_toInt_le, hvalue, hzero]
    omega
  rw [clamp, UInt32.toNat_toUInt8, Int32.toNat_toUInt32_of_le hpos, ← Int32.toNat_toInt, hvalue]
  omega

/-- No score is above 100. -/
theorem clamp_le (points : Int32) : clamp points ≤ 100 := by
  have hpoints := toNat_clamp points
  have hhundred : (100 : UInt8).toNat = 100 := rfl
  rw [UInt8.le_iff_toNat_le]
  omega

/-- More points never make a lower score. -/
theorem clamp_mono {points more : Int32} (h : points.toInt ≤ more.toInt) :
    clamp points ≤ clamp more := by
  have hpoints := toNat_clamp points
  have hmore := toNat_clamp more
  rw [UInt8.le_iff_toNat_le]
  omega

/-- The score of a signature that was found is the nearest one to its exact points. -/
theorem toNat_found (kind : Signature.Kind) (sites : Nat) (withContext : Bool) :
    ((found kind sites withContext).toNat : Int) =
      max 0 (min 100 (exactPoints kind sites withContext)) := by
  rw [found, toNat_clamp, toInt_foundPoints]

/-- Fewer sites never lower a score, and agreeing context does not either. -/
theorem found_le_found (kind : Signature.Kind) {few many : Nat} (h : few ≤ many)
    {less more : Bool} (hcontext : less ≤ more) :
    found kind many less ≤ found kind few more := by
  refine clamp_mono ?_
  rw [toInt_foundPoints, toInt_foundPoints]
  exact exactPoints_le kind h hcontext

/-- Agreeing context does not make up for a second site. -/
theorem found_lt_found_one (kind : Signature.Kind) {sites : Nat} (h : 2 ≤ sites) :
    found kind sites true < found kind 1 false := by
  have hweight := weight_mem kind
  have hmany := toNat_found kind sites true
  have hone := toNat_found kind 1 false
  simp only [exactPoints, if_true, Bool.false_eq_true, if_false] at hmany hone
  rw [UInt8.lt_iff_toNat_lt]
  omega

/-- At extraction a signature scores as if it was found without context, unless its site is the
only one. -/
theorem extracted_eq_found (kind : Signature.Kind) {sites : Nat} (h : sites ≠ 1) :
    extracted kind sites = found kind sites false := by
  rw [extracted, if_neg h, found, foundPoints, if_neg Bool.false_ne_true, Int32.add_zero]

/-- A single site earns ten points at extraction, up to the highest score. -/
theorem toNat_extracted_one (kind : Signature.Kind) :
    ((extracted kind 1).toNat : Int) = min 100 (kind.weight + 10) := by
  have hweight := weight_mem kind
  have hbase := toInt_base kind
  have hbonus : singleSiteBonus.toInt = 10 := rfl
  rw [extracted, if_pos rfl, toNat_clamp, toInt_add_of_mem (by omega) (by omega), hbase, hbonus]
  omega

/-- A single site scores at least as high at extraction. -/
theorem found_one_le_extracted (kind : Signature.Kind) :
    found kind 1 false ≤ extracted kind 1 := by
  have hweight := weight_mem kind
  have hfound := toNat_found kind 1 false
  have hextracted := toNat_extracted_one kind
  rw [exactPoints, if_neg Bool.false_ne_true] at hfound
  rw [UInt8.le_iff_toNat_le]
  omega

/-- Further sites never raise a score at extraction. -/
theorem extracted_le_extracted (kind : Signature.Kind) {few many : Nat} (hfew : 1 ≤ few)
    (h : few ≤ many) : extracted kind many ≤ extracted kind few := by
  by_cases hone : few = 1
  · subst hone
    by_cases hmany : many = 1
    · rw [hmany]
      exact UInt8.le_refl _
    · have hfalls := found_le_found kind h (Bool.le_refl false)
      rw [extracted_eq_found kind hmany]
      exact UInt8.le_trans hfalls (found_one_le_extracted kind)
  · rw [extracted_eq_found kind hone, extracted_eq_found kind (by omega : many ≠ 1)]
    exact found_le_found kind h (Bool.le_refl false)

/-- No score at extraction is above 100. -/
theorem extracted_le (kind : Signature.Kind) (sites : Nat) : extracted kind sites ≤ 100 := by
  rw [extracted]
  split <;> exact clamp_le _

/-! ## The formula -/

/-- The words on the way to the score of a signature that was found stand for the numbers of the
formula without bounds. -/
structure Exact (kind : Signature.Kind) (sites : Nat) (withContext : Bool) : Prop where
  /-- The penalty is ten points for each site beyond the first, and thirty at most. -/
  penalty_eq : (penalty sites).toInt = min 30 (10 * max ((sites : Int) - 1) 0)
  /-- It is taken from the weight of the kind without overflow. -/
  remaining_eq : (base kind - penalty sites).toInt = kind.weight - (penalty sites).toInt
  /-- The bonus of agreeing context is added without overflow. -/
  points_eq : (foundPoints kind sites withContext).toInt =
    (base kind - penalty sites).toInt + if withContext then 5 else 0
  /-- The score is the nearest number from 0 to 100. -/
  score_eq : ((found kind sites withContext).toNat : Int) = max 0 (min 100
    (kind.weight - min 30 (10 * max ((sites : Int) - 1) 0) + if withContext then 5 else 0))

/-- The score of a signature that was found keeps to the formula at any number of sites. -/
theorem counts_exactly (kind : Signature.Kind) (sites : Nat) (withContext : Bool) :
    Exact kind sites withContext := by
  refine ⟨toInt_penalty sites, toInt_remaining kind sites, ?_, toNat_found kind sites withContext⟩
  rw [toInt_foundPoints, exactPoints, toInt_remaining, toInt_penalty]

/-- Scores follow the formula without bounds at any number of sites. They never rise with the
number of sites, and agreeing context does not make up for a second site. At extraction the score
differs only where the site is the only one: there it is not lower, and from there on it falls with
the number of sites as well. -/
theorem follow_formula :
    (∀ (kind : Signature.Kind) (sites : Nat) (withContext : Bool), Exact kind sites withContext) ∧
    (∀ (kind : Signature.Kind) (few many : Nat) (withContext : Bool), few ≤ many →
      found kind many withContext ≤ found kind few withContext) ∧
    (∀ (kind : Signature.Kind) (sites : Nat), 2 ≤ sites →
      found kind sites true < found kind 1 false) ∧
    (∀ (kind : Signature.Kind) (sites : Nat), sites ≠ 1 →
      extracted kind sites = found kind sites false) ∧
    (∀ kind : Signature.Kind, ((extracted kind 1).toNat : Int) = min 100 (kind.weight + 10) ∧
      found kind 1 false ≤ extracted kind 1) ∧
    ∀ (kind : Signature.Kind) (few many : Nat), 1 ≤ few → few ≤ many →
      extracted kind many ≤ extracted kind few :=
  ⟨counts_exactly, fun kind _ _ _ h => found_le_found kind h (Bool.le_refl _),
    fun kind _ => found_lt_found_one kind, fun kind _ => extracted_eq_found kind,
    fun kind => ⟨toNat_extracted_one kind, found_one_le_extracted kind⟩,
    fun kind _ _ => extracted_le_extracted kind⟩

/-- At this count of sites the further ones would be none in a word that drops their high bits, but
they cost as much as those of the greatest count of 64 bits. -/
theorem follow_formula_beyond_words :
    (0x100000001 ≤ 0xFFFFFFFFFFFFFFFF ∧ found .fieldAccess 0xFFFFFFFFFFFFFFFF true ≤
      found .fieldAccess 0x100000001 true) ∧
    (2 ≤ 0x100000001 ∧ found .fieldAccess 0x100000001 true < found .fieldAccess 1 false) ∧
    (0x100000001 ≠ 1 ∧ extracted .typeName 0x100000001 = found .typeName 0x100000001 false) ∧
    (1 ≤ 1 ∧ 1 ≤ 0x100000001 ∧ extracted .typeName 0x100000001 ≤ extracted .typeName 1) ∧
    found .fieldAccess 0x100000001 true = 60 ∧ extracted .typeName 0x100000001 = 69 := by
  obtain ⟨-, hfalls, hcontext, hsame, -, hextracted⟩ := follow_formula
  refine ⟨⟨by decide, hfalls _ _ _ _ (by decide)⟩, ⟨by decide, hcontext _ _ (by decide)⟩,
    ⟨by decide, hsame _ _ (by decide)⟩, ⟨by decide, by decide, hextracted _ _ _ ?_ ?_⟩, ?_, ?_⟩
  · decide
  · decide
  · decide
  · decide

end LayoutWatch.Score
