import LayoutWatch.Binary64.Reading
import LayoutWatch.Proofs.Binary64.Nearest

/-!
# Moderate numbers are read

The digits that are kept of a numeral are below two to the 64, and all that happens to them after
that is one product with a small power of ten, or a few quotients by large ones. Their numerators
stay so far below the end of the format that it has a number for each of them. So every numeral is
read that has few digits in front of its point, and an exponent only to make it smaller.
-/

namespace LayoutWatch.Binary64

variable {bits n d : Nat} {x : Binary64}

/-! ## Numerators -/

/-- The exponent of a quotient is bounded by its numerator. -/
theorem exponentOf_le (hne : n ≠ 0) (h : n < 2 ^ bits) (d : Nat) : exponentOf n d ≤ bits := by
  have hlog : n.log2 < bits := (Nat.log2_lt hne).mpr h
  simp only [exponentOf, Int.ofNat_eq_natCast]
  split <;> omega

/-- A quotient that is not far too large has a number. -/
theorem isSome_ofQuotient? (h : n < 2 ^ bits) (hbits : bits ≤ 970) (negative : Bool) (d : Nat) :
    (ofQuotient? negative n d).isSome := by
  rw [ofQuotient?]
  split
  · rfl
  · next hne =>
    have hle := exponentOf_le hne h d
    dsimp only
    split <;> rw [if_neg (by omega)] <;> rfl

/-- The numerator of a number is bounded by that of its quotient. -/
theorem numerator_lt {negative : Bool} (hd : 0 < d) (hx : ofQuotient? negative n d = some x)
    (h : n < 2 ^ bits) : x.toQuotient.1 < 2 ^ (bits + 55) := by
  rw [ofQuotient?] at hx
  split at hx
  · cases hx
    rw [toQuotient, Nat.zero_mul]
    exact Nat.pow_pos (by decide)
  · next hne =>
    have hexponent := exponentOf_le hne h d
    have hsignificand := roundQuotient_scaled_le hd
      (exponentOf_bounds (Nat.pos_of_ne_zero hne) hd).2.1
    have hsmall : ∀ significand ≤ 2 ^ 53, ∀ exponent : Int, exponent ≤ bits + 1 →
        (⟨negative, significand, exponent⟩ : Binary64).toQuotient.1 < 2 ^ (bits + 55) := by
      intro significand hsignificand exponent hexponent
      calc significand * 2 ^ exponent.toNat
          ≤ 2 ^ 53 * 2 ^ (bits + 1) :=
            Nat.mul_le_mul hsignificand (Nat.pow_le_pow_right (by decide) (by omega))
        _ = 2 ^ (bits + 54) := by rw [← Nat.pow_add, Nat.add_comm 53, Nat.add_assoc]
        _ < 2 ^ (bits + 55) := Nat.pow_lt_pow_right (by decide) (by omega)
    dsimp only at hx
    split at hx
    · split at hx
      · cases hx
      · cases hx
        exact hsmall (2 ^ 52) (by decide) (exponentOf n d + 1) (by omega)
    · split at hx
      · cases hx
      · cases hx
        exact hsmall _ hsignificand (exponentOf n d) (by omega)

/-! ## Powers of ten -/

/-- The powers of ten that are used as factors are positive, and no small fractions. -/
theorem powerOfTen_bounds :
    ∀ n ≤ 308, 0 < (powerOfTen n).toQuotient.1 ∧ (powerOfTen n).toQuotient.2 ≤ 2 ^ 53 := by
  decide +kernel

/-- The small powers of ten have small numerators. -/
theorem powerOfTen_numerator_lt : ∀ n ≤ 20, (powerOfTen n).toQuotient.1 < 2 ^ 70 := by
  decide +kernel

/-- The denominator of a number is positive. -/
theorem denominator_pos (x : Binary64) : 0 < x.toQuotient.2 := Nat.pow_pos (by decide)

/-- A number of bounded numerator is divided by a power of ten, and the numerator stays bounded. -/
theorem exists_div? (h : x.toQuotient.1 < 2 ^ bits) (hbits : bits ≤ 900) (hn : n ≤ factorLimit) :
    ∃ y, x.div? (powerOfTen n) = some y ∧ y.toQuotient.1 < 2 ^ (bits + 108) := by
  obtain ⟨hpos, hdenominator⟩ := powerOfTen_bounds n hn
  have hproduct : x.toQuotient.1 * (powerOfTen n).toQuotient.2 < 2 ^ (bits + 53) := by
    rw [Nat.pow_add]
    exact Nat.mul_lt_mul_of_lt_of_le h hdenominator (Nat.pow_pos (by decide))
  obtain ⟨y, hy⟩ := Option.isSome_iff_exists.mp (isSome_ofQuotient? hproduct (by omega) _ _)
  exact ⟨y, hy, numerator_lt (Nat.mul_pos x.denominator_pos hpos) hy hproduct⟩

/-- A number of bounded numerator is made smaller by powers of ten. -/
theorem isSome_shrink {steps : Nat} (h : x.toQuotient.1 < 2 ^ bits)
    (hsteps : bits + 108 * steps ≤ 900) (exponent : Nat) : (shrink x exponent steps).isSome := by
  induction steps generalizing x bits exponent with
  | zero => rfl
  | succ steps ih =>
    rw [shrink]
    split
    · rfl
    · split
      · next hsmall =>
        obtain ⟨y, hy, -⟩ := exists_div? h (by omega) hsmall
        rw [hy, Option.isSome_some]
      · obtain ⟨y, hy, hnumerator⟩ := exists_div? h (by omega) (Nat.le_refl factorLimit)
        rw [hy]
        exact ih hnumerator (by omega) _

/-! ## Numerals -/

/-- The digits that are kept in front of the point are those of a word, and no more of them are
dropped than there are. -/
theorem keepWhole_bounds (digits : List Char) {value : Nat} (h : value < UInt64.size) :
    (keepWhole value digits).value < UInt64.size ∧
      (keepWhole value digits).exponent ≤ digits.length := by
  induction digits generalizing value with
  | nil => exact ⟨h, Int.le_refl _⟩
  | cons digit rest ih =>
    rw [keepWhole]
    split
    · next hfits =>
      obtain ⟨hvalue, hexponent⟩ := ih hfits
      exact ⟨hvalue, Int.le_trans hexponent (by simp)⟩
    · exact ⟨h, by simp⟩

/-- The digits that are kept behind the point make a word no larger than that, and the number no
larger either. -/
theorem keepFraction_bounds (digits : List Char) {kept : Kept} (h : kept.value < UInt64.size) :
    (keepFraction kept digits).value < UInt64.size ∧
      (keepFraction kept digits).exponent ≤ kept.exponent := by
  induction digits generalizing kept with
  | nil => exact ⟨h, Int.le_refl _⟩
  | cons digit rest ih =>
    rw [keepFraction]
    split
    · next hfits =>
      obtain ⟨hvalue, hexponent⟩ := @ih ⟨_, kept.exponent - 1⟩ hfits
      exact ⟨hvalue, Int.le_trans hexponent (Int.sub_le_self _ (by decide))⟩
    · exact ⟨h, Int.le_refl _⟩

/-- A word is scaled by a power of ten that is not large. -/
theorem isSome_scaleByTen? {exponent : Int} (h : x.toQuotient.1 < 2 ^ 119)
    (hexponent : exponent ≤ 20) : (scaleByTen? x exponent).isSome := by
  rw [scaleByTen?]
  split
  · exact isSome_shrink h (by decide) _
  · split
    · rfl
    · have hfactor := powerOfTen_numerator_lt exponent.toNat (by omega)
      have hlimit : exponent ≤ (factorLimit : Nat) := Int.le_trans hexponent (by decide)
      rw [if_pos hlimit, mul?]
      have hproduct : x.toQuotient.1 * (powerOfTen exponent.toNat).toQuotient.1 < 2 ^ 189 :=
        calc x.toQuotient.1 * (powerOfTen exponent.toNat).toQuotient.1
          _ < 2 ^ 119 * 2 ^ 70 := Nat.mul_lt_mul_of_lt_of_lt h hfactor
          _ = 2 ^ 189 := by decide
      exact isSome_ofQuotient? hproduct (by decide) _ _

/-- Few digits stand in front of the point, and an exponent makes the number smaller. -/
structure Written.Moderate (w : Written) : Prop where
  /-- There are no more digits than words have. -/
  length_le : w.whole.length ≤ 20
  /-- An exponent has a minus sign. -/
  shrinks : w.exponent = [] ∨ w.shrinks = true

/-- A moderate numeral is read. -/
theorem isSome_ofScaled? {w : Written} (h : w.Moderate) : (ofScaled? w).isSome := by
  obtain ⟨hwhole, hdropped⟩ := keepWhole_bounds w.whole (show 0 < UInt64.size by decide)
  obtain ⟨hvalue, hexponent⟩ := keepFraction_bounds w.fraction hwhole
  have hlength := h.length_le
  have hword : (keepFraction (keepWhole 0 w.whole) w.fraction).value < 2 ^ 64 := hvalue
  obtain ⟨x, hx⟩ := Option.isSome_iff_exists.mp
    (isSome_ofQuotient? hword (by decide) w.negative 1)
  have hnumerator := numerator_lt (by decide) hx hword
  rw [ofScaled?]
  simp only [hx, Option.bind_eq_bind, Option.bind_some]
  have hnone : w.exponent = [] → Nat.ofDigitChars 10 w.exponent 0 = 0 := by
    rintro hnil
    rw [hnil, Nat.ofDigitChars_nil]
  split
  · refine isSome_scaleByTen? hnumerator ?_
    have hshift : (if w.shrinks = true then -(Nat.ofDigitChars 10 w.exponent 0 : Int)
        else Nat.ofDigitChars 10 w.exponent 0) ≤ 0 := by
      rcases h.shrinks with hnil | hshrinks
      · rw [hnone hnil]
        split <;> decide
      · rw [if_pos hshrinks]
        omega
    rw [clampExponent]
    omega
  · next hlarge =>
    have hshrinks : w.shrinks = true := h.shrinks.resolve_left fun hnil => by
      rw [hnone hnil] at hlarge
      exact hlarge (by decide)
    rw [if_pos (.inr hshrinks)]
    rfl

end LayoutWatch.Binary64
