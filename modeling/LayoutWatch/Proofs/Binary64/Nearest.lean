import LayoutWatch.Binary64.Basic
import Mathlib.Algebra.Order.Field.Power
import Mathlib.Algebra.Order.Ring.Rat
import Mathlib.Data.Rat.Cast.Order
import Mathlib.Tactic.FieldSimp
import Mathlib.Tactic.Linarith
import Mathlib.Tactic.Positivity
import Mathlib.Tactic.Ring

/-!
# Shares are rounded to the nearest number

A number stands for a whole multiple of a power of two. The number of a quotient is the nearest one
that the format has: on the grid of its exponent it is the nearest point, and a number off that grid
is smaller than all quotients that the exponent is chosen for. So a share is at most one, and it is
zero only where the part is zero or the whole is too large for any number of the format.
-/

namespace LayoutWatch.Binary64

/-- The rational number that a number stands for. -/
def value (x : Binary64) : ℚ := (if x.negative then -1 else 1) * x.significand * 2 ^ x.exponent

/-- Significand and exponent are in the ranges of the format. -/
structure InFormat (x : Binary64) : Prop where
  /-- A significand has 53 bits. -/
  significand_lt : x.significand < 2 ^ 53
  /-- The least exponent is -1074. -/
  least_le : -1074 ≤ x.exponent
  /-- The greatest exponent is 971. -/
  le_greatest : x.exponent ≤ 971

/-- The number is one of the format, and none of the format is nearer to a quantity. -/
structure Nearest (x : Binary64) (q : ℚ) : Prop where
  /-- It is one of the format. -/
  inFormat : x.InFormat
  /-- None is nearer. -/
  le_of_inFormat : ∀ y : Binary64, y.InFormat → |x.value - q| ≤ |y.value - q|

/-- The rounded quotient is the whole one, where the remainder is at most a half, or the next one,
where it is at least a half. -/
theorem roundQuotient_cases {a b : Nat} :
    (roundQuotient a b = a / b ∧ 2 * (a % b) ≤ b) ∨
      (roundQuotient a b = a / b + 1 ∧ b ≤ 2 * (a % b)) := by
  rw [roundQuotient]
  split
  · exact .inr ⟨rfl, by omega⟩
  · exact .inl ⟨rfl, by omega⟩

/-- A quotient is rounded by at most a half. -/
theorem abs_roundQuotient_sub_le {a b : Nat} (hb : 0 < b) :
    |(roundQuotient a b : ℚ) - (a : ℚ) / b| ≤ 1 / 2 := by
  have hpos : (0 : ℚ) < b := by exact_mod_cast hb
  have hsplit : a / b * b + a % b = a := Nat.div_add_mod' a b
  have hmod : a % b < b := Nat.mod_lt a hb
  have hbounds : 2 * (roundQuotient a b * b) ≤ 2 * a + b ∧
      2 * a ≤ 2 * (roundQuotient a b * b) + b := by
    rcases roundQuotient_cases (a := a) (b := b) with ⟨hdown, hrest⟩ | ⟨hup, hrest⟩
    · rw [hdown]
      omega
    · rw [hup, Nat.add_one_mul (a / b) b]
      omega
  have hupper : 2 * (roundQuotient a b * b) ≤ 2 * a + b := hbounds.1
  have hlower : 2 * a ≤ 2 * (roundQuotient a b * b) + b := hbounds.2
  have hupper' : 2 * ((roundQuotient a b : ℚ) * b) ≤ 2 * a + b := by exact_mod_cast hupper
  have hlower' : 2 * (a : ℚ) ≤ 2 * ((roundQuotient a b : ℚ) * b) + b := by exact_mod_cast hlower
  have hquotient : (roundQuotient a b : ℚ) - (a : ℚ) / b =
      ((roundQuotient a b : ℚ) * b - a) / b := by field_simp
  rw [hquotient, abs_div, abs_of_pos hpos, div_le_iff₀ hpos, abs_le]
  constructor <;> linarith

/-- No whole number is nearer to a quotient than the rounded one. -/
theorem roundQuotient_nearest {a b : Nat} (hb : 0 < b) (m : ℤ) :
    |(roundQuotient a b : ℚ) - (a : ℚ) / b| ≤ |(m : ℚ) - (a : ℚ) / b| := by
  have hhalf := abs_roundQuotient_sub_le (a := a) hb
  by_cases hm : m = (roundQuotient a b : ℤ)
  · rw [hm, Int.cast_natCast]
  · have hapart : (1 : ℚ) ≤ |(m : ℚ) - (roundQuotient a b : ℚ)| := by
      have hone : 1 ≤ |m - (roundQuotient a b : ℤ)| := Int.one_le_abs (sub_ne_zero.mpr hm)
      exact_mod_cast hone
    have htriangle := abs_sub_le (m : ℚ) ((a : ℚ) / b) (roundQuotient a b : ℚ)
    rw [abs_sub_comm ((a : ℚ) / b)] at htriangle
    linarith

/-- The two parts of a scaled quotient are the quotient divided by the power of two. -/
theorem scaled_div (n d : Nat) (e : ℤ) :
    ((scaled n d e).1 : ℚ) / ((scaled n d e).2 : ℚ) = (n : ℚ) / d / 2 ^ e := by
  have hexponent : e = (e.toNat : ℤ) - ((-e).toNat : ℤ) := by omega
  have hpower : (2 : ℚ) ^ e = 2 ^ e.toNat / 2 ^ (-e).toNat := by
    conv_lhs => rw [hexponent]
    rw [zpow_sub₀ two_ne_zero, zpow_natCast, zpow_natCast]
  have hleft : ((scaled n d e).1 : ℚ) = n * 2 ^ (-e).toNat := by
    simp [scaled]
  have hright : ((scaled n d e).2 : ℚ) = d * 2 ^ e.toNat := by
    simp [scaled]
  rw [hleft, hright, hpower]
  field_simp

/-- The denominator of a scaled quotient is positive with that of the quotient. -/
theorem scaled_pos (n : Nat) {d : Nat} (hd : 0 < d) (e : ℤ) : 0 < (scaled n d e).2 :=
  Nat.mul_pos hd (Nat.pow_pos (by decide))

/-- A power of two compared with a quotient, on natural numbers. -/
theorem scaled_le_iff {n d : Nat} (hd : 0 < d) (e : ℤ) :
    (scaled n d e).2 ≤ (scaled n d e).1 ↔ (2 : ℚ) ^ e ≤ (n : ℚ) / d := by
  have hpos : (0 : ℚ) < (scaled n d e).2 := by exact_mod_cast scaled_pos n hd e
  have hpower : (0 : ℚ) < 2 ^ e := by positivity
  rw [← Nat.cast_le (α := ℚ), ← one_le_div₀ hpos, scaled_div, one_le_div₀ hpower]

/-- A quotient of positive numbers lies between two powers of two, one on each side of the
difference of the logarithms. -/
theorem log2_bounds {n d : Nat} (hn : 0 < n) (hd : 0 < d) :
    (2 : ℚ) ^ ((n.log2 : ℤ) - d.log2 - 1) ≤ (n : ℚ) / d ∧
      (n : ℚ) / d < (2 : ℚ) ^ ((n.log2 : ℤ) - d.log2 + 1) := by
  have hpos : (0 : ℚ) < d := by exact_mod_cast hd
  have hnlow : (2 : ℚ) ^ (n.log2 : ℤ) ≤ n := by
    rw [zpow_natCast]
    exact_mod_cast Nat.log2_self_le hn.ne'
  have hnhigh : (n : ℚ) < 2 ^ ((n.log2 : ℤ) + 1) := by
    have hlt : n < 2 ^ (n.log2 + 1) := Nat.lt_log2_self
    exact_mod_cast hlt
  have hdlow : (2 : ℚ) ^ (d.log2 : ℤ) ≤ d := by
    rw [zpow_natCast]
    exact_mod_cast Nat.log2_self_le hd.ne'
  have hdhigh : (d : ℚ) < 2 ^ ((d.log2 : ℤ) + 1) := by
    have hlt : d < 2 ^ (d.log2 + 1) := Nat.lt_log2_self
    exact_mod_cast hlt
  constructor
  · rw [le_div_iff₀ hpos]
    calc (2 : ℚ) ^ ((n.log2 : ℤ) - d.log2 - 1) * d
        ≤ 2 ^ ((n.log2 : ℤ) - d.log2 - 1) * 2 ^ ((d.log2 : ℤ) + 1) :=
          mul_le_mul_of_nonneg_left hdhigh.le (by positivity)
      _ = 2 ^ (n.log2 : ℤ) := by
          rw [← zpow_add₀ two_ne_zero]
          congr 1
          omega
      _ ≤ n := hnlow
  · rw [div_lt_iff₀ hpos]
    calc (n : ℚ) < 2 ^ ((n.log2 : ℤ) + 1) := hnhigh
      _ = 2 ^ ((n.log2 : ℤ) - d.log2 + 1) * 2 ^ (d.log2 : ℤ) := by
          rw [← zpow_add₀ two_ne_zero]
          congr 1
          omega
      _ ≤ 2 ^ ((n.log2 : ℤ) - d.log2 + 1) * d :=
          mul_le_mul_of_nonneg_left hdlow (by positivity)

/-- The exponent of a quotient is the least one, or the one that gives it 53 bits. -/
theorem exponentOf_bounds {n d : Nat} (hn : 0 < n) (hd : 0 < d) :
    -1074 ≤ exponentOf n d ∧ (n : ℚ) / d < 2 ^ (exponentOf n d + 53) ∧
      (-1074 < exponentOf n d → (2 : ℚ) ^ (exponentOf n d + 52) ≤ (n : ℚ) / d) := by
  have hlog := log2_bounds hn hd
  have hone : (1 : ℚ) ≤ 2 := by norm_num
  have hexponent : exponentOf n d = max (-1074)
      (if (scaled n d ((n.log2 : ℤ) - d.log2)).2 ≤ (scaled n d ((n.log2 : ℤ) - d.log2)).1 then
        (n.log2 : ℤ) - d.log2 - 52 else (n.log2 : ℤ) - d.log2 - 53) := rfl
  rw [hexponent]
  split
  · next hscaled =>
    have hge : (2 : ℚ) ^ ((n.log2 : ℤ) - d.log2) ≤ (n : ℚ) / d := (scaled_le_iff hd _).mp hscaled
    refine ⟨le_max_left .., lt_of_lt_of_le hlog.2 (zpow_le_zpow_right₀ hone (by omega)), ?_⟩
    intro hleast
    exact le_trans (zpow_le_zpow_right₀ hone (by omega)) hge
  · next hscaled =>
    have hbelow : (n : ℚ) / d < 2 ^ ((n.log2 : ℤ) - d.log2) :=
      not_le.mp fun hge => hscaled ((scaled_le_iff hd _).mpr hge)
    refine ⟨le_max_left .., lt_of_lt_of_le hbelow (zpow_le_zpow_right₀ hone (by omega)), ?_⟩
    intro hleast
    exact le_trans (zpow_le_zpow_right₀ hone (by omega)) hlog.1

/-- The distance to a point of a grid, in units of the grid. -/
theorem abs_mul_zpow_sub (m q : ℚ) (e : ℤ) : |m * 2 ^ e - q| = |m - q / 2 ^ e| * 2 ^ e := by
  have hpos : (0 : ℚ) < 2 ^ e := by positivity
  have hfactor : m * 2 ^ e - q = (m - q / 2 ^ e) * 2 ^ e := by field_simp
  rw [hfactor, abs_mul, abs_of_pos hpos]

/-- A number with an exponent that is not below that of a grid is a point of the grid. -/
theorem exists_value_eq_mul {y : Binary64} {e : ℤ} (h : e ≤ y.exponent) :
    ∃ m : ℤ, y.value = m * 2 ^ e := by
  have hshift : (2 : ℚ) ^ y.exponent = 2 ^ (y.exponent - e).toNat * 2 ^ e := by
    rw [← zpow_natCast, ← zpow_add₀ two_ne_zero]
    congr 1
    omega
  refine ⟨(if y.negative then -1 else 1) * y.significand * 2 ^ (y.exponent - e).toNat, ?_⟩
  rw [value, hshift]
  push_cast
  ring

/-- A number of the format with an exponent below that of a grid lies in front of the first point
of 53 bits. -/
theorem InFormat.value_le {y : Binary64} (hy : y.InFormat) {e : ℤ} (h : y.exponent < e) :
    y.value ≤ 2 ^ 52 * 2 ^ e := by
  have hpos : (0 : ℚ) < 2 ^ y.exponent := by positivity
  have hsignificand : (y.significand : ℚ) ≤ 2 ^ 53 := by exact_mod_cast hy.significand_lt.le
  have hsigned : (if y.negative then -1 else 1) * (y.significand : ℚ) ≤ 2 ^ 53 := by
    have hnonneg : (0 : ℚ) ≤ y.significand := Nat.cast_nonneg _
    split <;> linarith
  calc y.value ≤ 2 ^ 53 * 2 ^ y.exponent := mul_le_mul_of_nonneg_right hsigned hpos.le
    _ = 2 ^ 52 * 2 ^ (y.exponent + 1) := by
        rw [zpow_add₀ two_ne_zero]
        ring
    _ ≤ 2 ^ 52 * 2 ^ e :=
        mul_le_mul_of_nonneg_left (zpow_le_zpow_right₀ (by norm_num) (by omega)) (by positivity)

/-- The nearest point of the grid of a quotient is nearer than every number of the format. -/
theorem grid_nearest {q : ℚ} {e : ℤ} {s : Nat}
    (hnear : ∀ m : ℤ, |(s : ℚ) - q / 2 ^ e| ≤ |(m : ℚ) - q / 2 ^ e|)
    (hgrid : -1074 < e → (2 : ℚ) ^ (e + 52) ≤ q) {y : Binary64} (hy : y.InFormat) :
    |(s : ℚ) * 2 ^ e - q| ≤ |y.value - q| := by
  have hpos : (0 : ℚ) < 2 ^ e := by positivity
  by_cases hexponent : e ≤ y.exponent
  · have hpoint := exists_value_eq_mul hexponent
    rcases hpoint with ⟨m, hm⟩
    rw [hm, abs_mul_zpow_sub, abs_mul_zpow_sub]
    exact mul_le_mul_of_nonneg_right (hnear m) hpos.le
  · -- The number lies off the grid, in front of a point of the grid that is not behind `q`.
    have hvalue := hy.value_le (not_le.mp hexponent)
    have hleast := hy.least_le
    have hq := hgrid (by omega)
    have hpoint : (2 : ℚ) ^ 52 * 2 ^ e = 2 ^ (e + 52) := by
      rw [zpow_add₀ two_ne_zero, mul_comm]
      norm_num
    have hcast : ((2 ^ 52 : ℤ) : ℚ) = 2 ^ 52 := by norm_num
    have hnearest := mul_le_mul_of_nonneg_right (hnear (2 ^ 52)) hpos.le
    rw [← abs_mul_zpow_sub, ← abs_mul_zpow_sub, hcast] at hnearest
    rw [abs_of_nonpos (by linarith : (2 : ℚ) ^ 52 * 2 ^ e - q ≤ 0)] at hnearest
    rw [abs_of_nonpos (by linarith : y.value - q ≤ 0)]
    linarith

section Quotient

variable {n d : Nat} (hd : 0 < d)

include hd

/-- The significand of a quotient is the nearest point on the grid of the exponent. -/
theorem roundQuotient_scaled_nearest (e m : ℤ) :
    |(roundQuotient (scaled n d e).1 (scaled n d e).2 : ℚ) - (n : ℚ) / d / 2 ^ e| ≤
      |(m : ℚ) - (n : ℚ) / d / 2 ^ e| := by
  have hnear := roundQuotient_nearest (a := (scaled n d e).1) (scaled_pos n hd e) m
  rw [scaled_div] at hnear
  exact hnear

/-- A quotient of 53 bits is rounded to at most the next number of 54 bits. -/
theorem roundQuotient_scaled_le {e : ℤ} (h : (n : ℚ) / d < 2 ^ (e + 53)) :
    roundQuotient (scaled n d e).1 (scaled n d e).2 ≤ 2 ^ 53 := by
  have hpos : (0 : ℚ) < 2 ^ e := by positivity
  have hcast : ((2 ^ 53 : ℤ) : ℚ) = 2 ^ 53 := by norm_num
  have hbelow : (n : ℚ) / d / 2 ^ e < 2 ^ 53 := by
    rw [div_lt_iff₀ hpos]
    calc (n : ℚ) / d < 2 ^ (e + 53) := h
      _ = 2 ^ 53 * 2 ^ e := by
          rw [zpow_add₀ two_ne_zero, mul_comm]
          norm_num
  have hnear := roundQuotient_scaled_nearest (n := n) hd e (2 ^ 53)
  rw [hcast, abs_of_pos (sub_pos.mpr hbelow)] at hnear
  have hself := le_abs_self
    ((roundQuotient (scaled n d e).1 (scaled n d e).2 : ℚ) - (n : ℚ) / d / 2 ^ e)
  have hle : (roundQuotient (scaled n d e).1 (scaled n d e).2 : ℚ) ≤ 2 ^ 53 := by linarith
  exact_mod_cast hle

/-- The number of a quotient is one of the format, and it stands for the rounded significand on the
grid of the exponent, also where rounding carries it to the next exponent. -/
theorem value_of_ofQuotient? (hn : 0 < n) {x : Binary64} (h : ofQuotient? false n d = some x) :
    x.InFormat ∧ x.value = (roundQuotient (scaled n d (exponentOf n d)).1
      (scaled n d (exponentOf n d)).2 : ℚ) * 2 ^ exponentOf n d := by
  have hbounds := exponentOf_bounds hn hd
  have hle := roundQuotient_scaled_le hd hbounds.2.1
  rw [ofQuotient?, if_neg hn.ne'] at h
  dsimp only at h
  split at h
  · next hcarry =>
    split at h
    · cases h
    · next hfits =>
      cases h
      have hupper : exponentOf n d + 1 ≤ 971 := not_lt.mp hfits
      have hlower : -1074 ≤ exponentOf n d + 1 := by omega
      refine ⟨⟨by norm_num, hlower, hupper⟩, ?_⟩
      rw [hcarry, value, zpow_add₀ two_ne_zero]
      norm_num
      ring
  · next hcarry =>
    split at h
    · cases h
    · next hfits =>
      cases h
      exact ⟨⟨lt_of_le_of_ne hle hcarry, hbounds.1, not_lt.mp hfits⟩, by simp [value]⟩

/-- The number of a quotient is the nearest one of the format. -/
theorem nearest_of_ofQuotient? {x : Binary64} (h : ofQuotient? false n d = some x) :
    x.Nearest ((n : ℚ) / d) := by
  by_cases hn : n = 0
  · rw [ofQuotient?, if_pos hn] at h
    cases h
    refine ⟨⟨by norm_num, le_refl _, by norm_num⟩, fun y _ => ?_⟩
    have hvalue : value ⟨false, 0, -1074⟩ = 0 := by simp [value]
    rw [hvalue, hn, Nat.cast_zero, zero_div, sub_zero, abs_zero]
    exact abs_nonneg _
  · have hpos := Nat.pos_of_ne_zero hn
    have hgrid := (exponentOf_bounds hpos hd).2.2
    have hnear := roundQuotient_scaled_nearest (n := n) hd (exponentOf n d)
    have hvalue := value_of_ofQuotient? hd hpos h
    refine ⟨hvalue.1, fun y hy => ?_⟩
    rw [hvalue.2]
    exact grid_nearest hnear hgrid hy

/-- A quotient that is at most one has a number. -/
theorem exists_ofQuotient? (hle : n ≤ d) : ∃ x, ofQuotient? false n d = some x := by
  rw [ofQuotient?]
  split
  · exact ⟨_, rfl⟩
  · next hne =>
    have hbounds := exponentOf_bounds (Nat.pos_of_ne_zero hne) hd
    have hquotient : (n : ℚ) / d ≤ 1 := by
      have hpos : (0 : ℚ) < d := by exact_mod_cast hd
      rw [div_le_one hpos]
      exact_mod_cast hle
    have hsmall : exponentOf n d ≤ -52 := by
      by_contra hlarge
      have hone : (2 : ℚ) ^ (exponentOf n d + 52) ≤ 2 ^ (0 : ℤ) := by
        rw [zpow_zero]
        exact le_trans (hbounds.2.2 (by omega)) hquotient
      have hexponent := (zpow_le_zpow_iff_right₀ (by norm_num : (1 : ℚ) < 2)).mp hone
      omega
    dsimp only
    split
    · rw [if_neg (by omega)]
      exact ⟨_, rfl⟩
    · rw [if_neg (by omega)]
      exact ⟨_, rfl⟩

end Quotient

/-- The share of a part is the nearest number to the quotient. -/
theorem share_nearest {part whole : Nat} (hwhole : 0 < whole) (hle : part ≤ whole) :
    (share part whole).Nearest ((part : ℚ) / whole) := by
  have hsome := exists_ofQuotient? hwhole hle
  rcases hsome with ⟨x, hx⟩
  have hshare : share part whole = x := by
    rw [share, if_neg hwhole.ne', Nat.min_eq_left hle, hx, Option.getD_some]
  rw [hshare]
  exact nearest_of_ofQuotient? hwhole hx

variable {x : Binary64} {q : ℚ}

/-- The nearest number to a quantity that is at most one is at most one. -/
theorem Nearest.le_one (h : x.Nearest q) (hq : q ≤ 1) : x.value ≤ 1 := by
  have hone : value ⟨false, 2 ^ 52, -52⟩ = 1 := by
    norm_num [value]
  have hnear := h.le_of_inFormat ⟨false, 2 ^ 52, -52⟩ ⟨by norm_num, by norm_num, by norm_num⟩
  rw [hone, abs_of_nonneg (sub_nonneg.mpr hq)] at hnear
  have hself := le_abs_self (x.value - q)
  linarith

/-- The nearest number to a quantity is positive, where the quantity reaches the least positive
number of the format. -/
theorem Nearest.pos (h : x.Nearest q) (hq : 2 ^ (-1074 : ℤ) ≤ q) : 0 < x.value := by
  have hleast : value ⟨false, 1, -1074⟩ = 2 ^ (-1074 : ℤ) := by
    simp [value]
  have hpos : (0 : ℚ) < 2 ^ (-1074 : ℤ) := by positivity
  have hnear := h.le_of_inFormat ⟨false, 1, -1074⟩ ⟨by norm_num, by norm_num, by norm_num⟩
  rw [hleast, abs_of_nonpos (sub_nonpos.mpr hq)] at hnear
  have hself := neg_abs_le (x.value - q)
  linarith

section Share

variable {part whole : Nat}

/-- A share is at most one. -/
theorem share_le_one (hwhole : 0 < whole) (hle : part ≤ whole) : (share part whole).value ≤ 1 := by
  have hpos : (0 : ℚ) < whole := by exact_mod_cast hwhole
  have hle' : (part : ℚ) ≤ whole := by exact_mod_cast hle
  exact (share_nearest hwhole hle).le_one ((div_le_one hpos).mpr hle')

/-- The share of something is positive, unless it is smaller than the least positive number of the
format. -/
theorem share_pos (hpart : 0 < part) (hle : part ≤ whole) (hfits : whole ≤ 2 ^ 1074) :
    0 < (share part whole).value := by
  have hwhole : 0 < whole := Nat.lt_of_lt_of_le hpart hle
  have hpos : (0 : ℚ) < whole := by exact_mod_cast hwhole
  have hone : (1 : ℚ) ≤ part := by exact_mod_cast hpart
  have hpower : (2 : ℚ) ^ (1074 : ℤ) = 2 ^ 1074 := zpow_natCast 2 1074
  have hbound : (whole : ℚ) ≤ 2 ^ (1074 : ℤ) := by
    rw [hpower]
    exact_mod_cast hfits
  refine (share_nearest hwhole hle).pos ?_
  rw [le_div_iff₀ hpos]
  calc (2 : ℚ) ^ (-1074 : ℤ) * whole ≤ 2 ^ (-1074 : ℤ) * 2 ^ (1074 : ℤ) :=
        mul_le_mul_of_nonneg_left hbound (by positivity)
    _ = 1 := by
        rw [← zpow_add₀ two_ne_zero]
        norm_num
    _ ≤ part := hone

end Share

end LayoutWatch.Binary64
