import LayoutWatch.Binary64.Decimal
import LayoutWatch.Proofs.Binary64.Reading
import LayoutWatch.Proofs.Json.Numeral

/-!
# Numbers are written as numerals

The text of a number from zero to one is the numeral of its shortest decimal. That decimal is below
ten, because a number is the nearest one to each decimal that reads back to it, or it is a whole
number of at most sixteen digits. So few digits stand in front of the point, an exponent is negative
and the text is read as a number again. It need not be the same one: scaling rounds more than once.
-/

namespace LayoutWatch.Binary64

/-- A number of the format from zero to one. -/
structure InUnit (x : Binary64) : Prop where
  /-- It has no minus sign. -/
  negative_eq : x.negative = false
  /-- It is one of the format. -/
  inFormat : x.InFormat
  /-- It is at most one. -/
  value_le_one : x.value ≤ 1

/-- The number of a quotient has the sign that was given for it. -/
theorem negative_of_ofQuotient? {negative : Bool} {n d : Nat} {x : Binary64}
    (h : ofQuotient? negative n d = some x) : x.negative = negative := by
  rw [ofQuotient?] at h
  split at h
  · cases h
    rfl
  · dsimp only at h
    split at h <;> split at h <;> cases h <;> rfl

/-- A share is a number from zero to one. -/
theorem inUnit_share {part whole : Nat} (hwhole : 0 < whole) (hle : part ≤ whole) :
    (share part whole).InUnit := by
  obtain ⟨x, hx⟩ := exists_ofQuotient? hwhole hle
  have hshare : share part whole = x := by
    rw [share, if_neg hwhole.ne', Nat.min_eq_left hle, hx, Option.getD_some]
  exact ⟨hshare ▸ negative_of_ofQuotient? hx, (share_nearest hwhole hle).inFormat,
    share_le_one hwhole hle⟩

/-! ## Decimals -/

/-- A number has as many digits as powers of ten up to it. -/
theorem pow_le_of_length {n : Nat} (hne : n ≠ 0) : 10 ^ ((Nat.toDigits 10 n).length - 1) ≤ n := by
  by_contra hlt
  rcases Nat.eq_zero_or_pos ((Nat.toDigits 10 n).length - 1) with hzero | hpos
  · rw [hzero] at hlt
    omega
  · have hlength := (Nat.length_toDigits_le_iff (by decide) hpos).mpr (not_le.mp hlt)
    omega

namespace Decimal

/-- The rational number that a decimal stands for. -/
def value (d : Decimal) : ℚ := d.digits * 10 ^ d.exponent

/-- The number of digits in front of the point, negative where zeros stand behind it first. -/
def point (d : Decimal) : Int := (Nat.toDigits 10 d.digits).length + d.exponent

variable {d : Decimal} {x : Binary64}

/-- The two parts of a decimal have its value as their quotient. -/
theorem div_toQuotient (d : Decimal) : (d.toQuotient.1 : ℚ) / (d.toQuotient.2 : ℚ) = d.value := by
  have hexponent : d.exponent = (d.exponent.toNat : ℤ) - ((-d.exponent).toNat : ℤ) := by omega
  have hpower : (10 : ℚ) ^ d.exponent = 10 ^ d.exponent.toNat / 10 ^ (-d.exponent).toNat := by
    conv_lhs => rw [hexponent]
    rw [zpow_sub₀ (by norm_num), zpow_natCast, zpow_natCast]
  rw [value, hpower]
  simp [toQuotient, mul_div_assoc]

/-- A decimal reaches the power of ten in front of its point. -/
theorem zpow_le_value (hne : d.digits ≠ 0) : (10 : ℚ) ^ (d.point - 1) ≤ d.value := by
  have hlength := Nat.length_toDigits_pos (b := 10) (n := d.digits)
  have hexponent : d.point - 1 =
      (((Nat.toDigits 10 d.digits).length - 1 : Nat) : ℤ) + d.exponent := by
    rw [point]
    omega
  have hdigits : (10 : ℚ) ^ ((Nat.toDigits 10 d.digits).length - 1) ≤ d.digits := by
    exact_mod_cast pow_le_of_length hne
  rw [hexponent, zpow_add₀ (by norm_num), zpow_natCast, value]
  exact mul_le_mul_of_nonneg_right hdigits (by positivity)

/-- A decimal below ten has at most one digit in front of its point. -/
theorem point_le_one (hne : d.digits ≠ 0) (h : d.value < 10) : d.point ≤ 1 := by
  have hpower : (10 : ℚ) ^ (d.point - 1) < 10 ^ (1 : ℤ) := by
    rw [zpow_one]
    exact lt_of_le_of_lt (zpow_le_value hne) h
  have hlt := (zpow_lt_zpow_iff_right₀ (by norm_num : (1 : ℚ) < 10)).mp hpower
  omega

/-- A decimal that reads back to a number from zero to one is below ten: ten would be nearer. -/
theorem value_lt_of_readsBack (h : x.InUnit) (hback : d.readsBack x = true) : d.value < 10 := by
  have hx : { x with negative := false } = x := by rw [← h.negative_eq]
  have hquotient : ofQuotient? false d.toQuotient.1 d.toQuotient.2 = some x := by
    rw [readsBack, beq_iff_eq, hx] at hback
    exact hback
  have hnear : x.Nearest d.value := by
    rw [← div_toQuotient]
    exact nearest_of_ofQuotient? (Nat.pow_pos (by decide)) hquotient
  by_contra hlarge
  have hten : (⟨false, 10, 0⟩ : Binary64).value = 10 := by norm_num [Binary64.value]
  have hcloser := hnear.le_of_inFormat ⟨false, 10, 0⟩ ⟨by decide, by decide, by decide⟩
  rw [hten, abs_of_nonpos (by linarith : (10 : ℚ) - d.value ≤ 0)] at hcloser
  have hbelow := neg_abs_le (x.value - d.value)
  have hone := h.value_le_one
  linarith

/-- A decimal that reads back to another number than zero has a digit other than zero. -/
theorem digits_ne_of_readsBack (hne : x.significand ≠ 0) (hback : d.readsBack x = true) :
    d.digits ≠ 0 := by
  intro hzero
  rw [readsBack, toQuotient, hzero, Nat.zero_mul, beq_iff_eq] at hback
  simp only [ofQuotient?, if_true, Option.some.injEq, Binary64.mk.injEq] at hback
  exact hne hback.2.1.symm

/-! ### Trailing zeros -/

/-- The zeros at the end of a number are fewer than its digits. -/
theorem pow_zeros_le {n : Nat} (hne : n ≠ 0) :
    10 ^ ((Nat.toDigits 10 n).reverse.takeWhile (· == '0')).length ≤ n := by
  refine Nat.le_trans (Nat.pow_le_pow_right (by decide) ?_) (pow_le_of_length hne)
  have hlength := Nat.length_toDigits_pos (b := 10) (n := n)
  have hprefix := (List.takeWhile_prefix (· == '0') (l := (Nat.toDigits 10 n).reverse)).length_le
  rw [List.length_reverse] at hprefix
  by_contra hall
  -- If all digits were zeros, the first one would be.
  have heq : (Nat.toDigits 10 n).reverse.takeWhile (· == '0') = (Nat.toDigits 10 n).reverse :=
    (List.takeWhile_prefix _).eq_of_length (by rw [List.length_reverse]; omega)
  refine Json.head?_toDigits_ne (Nat.pos_of_ne_zero hne) ?_
  obtain ⟨c, rest, hdigits⟩ := List.exists_cons_of_ne_nil (Nat.toDigits_ne_nil (b := 10) (n := n))
  have hc := List.takeWhile_eq_self_iff.mp heq c (by simp [hdigits])
  rw [hdigits, List.head?_cons, beq_iff_eq.mp hc]

/-- A decimal without its trailing zeros has a digit other than zero where it had one. -/
theorem digits_strip_ne (hne : d.digits ≠ 0) : d.strip.digits ≠ 0 := by
  rw [strip]
  rw [if_neg hne]
  exact (Nat.div_pos (pow_zeros_le hne) (Nat.pow_pos (by decide))).ne'

/-- A decimal without its trailing zeros is no larger. -/
theorem value_strip_le (d : Decimal) : d.strip.value ≤ d.value := by
  rw [strip]
  split
  · exact le_refl _
  · rw [value, value, zpow_add₀ (by norm_num), zpow_natCast, mul_comm ((10 : ℚ) ^ d.exponent),
      ← mul_assoc]
    refine mul_le_mul_of_nonneg_right ?_ (by positivity)
    exact_mod_cast Nat.div_mul_le_self _ _

end Decimal

/-- The decimal that is taken of a length reads back. -/
theorem readsBack_of_decimalOfLength? {x : Binary64} {count : Nat} {d : Decimal}
    (h : decimalOfLength? x count = some d) : d.readsBack x = true := by
  rw [decimalOfLength?] at h
  dsimp only at h
  exact List.find?_some (p := fun decimal : Decimal => decimal.readsBack x) h

/-- The shortest decimal reads back, or it is the significand itself. -/
theorem shortest_cases (x : Binary64) :
    (∃ d : Decimal, d.readsBack x = true ∧ shortest x = d.strip) ∨
      shortest x = ⟨x.significand, 0⟩ := by
  -- An equation of `shortest` would be sought by running the search, so it is only unfolded.
  delta shortest
  cases hfound : (List.range' 1 17).findSome? (decimalOfLength? x) with
  | none => exact .inr rfl
  | some d =>
    have hlength := List.exists_of_findSome?_eq_some hfound
    exact .inl ⟨d, readsBack_of_decimalOfLength? hlength.choose_spec.2, rfl⟩

/-- The shortest decimal of a number from zero to one has few digits in front of its point. -/
theorem shortest_bounds {x : Binary64} (h : x.InUnit) (hne : x.significand ≠ 0) :
    (shortest x).digits ≠ 0 ∧ (shortest x).point ≤ 16 := by
  rcases shortest_cases x with ⟨d, hback, hshortest⟩ | hshortest <;> rw [hshortest]
  · have hdigits := Decimal.digits_strip_ne (Decimal.digits_ne_of_readsBack hne hback)
    have hvalue := lt_of_le_of_lt d.value_strip_le (Decimal.value_lt_of_readsBack h hback)
    exact ⟨hdigits, le_trans (Decimal.point_le_one hdigits hvalue) (by decide)⟩
  · refine ⟨hne, ?_⟩
    have hlength := (Nat.length_toDigits_le_iff (b := 10) (k := 16) (by decide) (by decide)).mpr
      (lt_of_lt_of_le h.inFormat.significand_lt (by decide))
    rw [Decimal.point]
    dsimp only
    omega

/-! ## Texts -/

open Json

/-- A negative integer is written with a minus sign. -/
theorem toList_toString_of_neg {n : Int} (h : n < 0) :
    (toString n).toList = '-' :: Nat.toDigits 10 n.natAbs := by
  cases n with
  | ofNat n => exact absurd h (by simp)
  | negSucc n =>
    have htext : toString (Int.negSucc n) = "-" ++ toString (n + 1) := rfl
    rw [htext, String.toList_append, Nat.toString_eq_repr, Nat.toList_repr]
    rfl

/-- Digits around a point are a numeral. -/
theorem isModerateNumeral_point (whole fraction : List Char)
    (hwhole : ∀ c ∈ whole, c.isDigit = true) (hhead : whole.head? = some '0' → whole = ['0'])
    (hlength : 0 < whole.length ∧ whole.length ≤ 20)
    (hfraction : ∀ c ∈ fraction, c.isDigit = true) (hne : fraction ≠ []) :
    IsModerateNumeral (whole ++ '.' :: fraction) := by
  refine ⟨⟨false, whole, fraction, false, []⟩, ⟨List.ne_nil_of_length_pos hlength.1, hwhole, hhead,
    hfraction, List.forall_mem_nil _, fun _ => rfl⟩, ⟨hlength.2, .inl rfl⟩, ?_⟩
  simp [Written.text, Written.body, Written.fractionText, Written.exponentText, hne]

/-- A digit with further ones behind a point and a negative exponent is a numeral. -/
theorem isModerateNumeral_exponent {first : Char} {rest : List Char} {n : Int}
    (hdigits : ∀ c ∈ first :: rest, c.isDigit = true) (hn : n < 0) :
    IsModerateNumeral (first :: (if rest = [] then [] else '.' :: rest) ++
      'e' :: (toString n).toList) := by
  obtain ⟨hfirst, hrest⟩ := List.forall_mem_cons.mp hdigits
  refine ⟨⟨false, [first], rest, true, Nat.toDigits 10 n.natAbs⟩, ⟨List.cons_ne_nil _ _, ?_, ?_,
    hrest, fun _ => Nat.isDigit_of_mem_toDigits (by decide) (by decide), fun h => ?_⟩,
    ⟨by simp, .inr rfl⟩, ?_⟩
  · exact List.forall_mem_singleton.mpr hfirst
  · intro hzero
    rw [Option.some.inj hzero]
  · exact absurd h Nat.toDigits_ne_nil
  · rw [toList_toString_of_neg hn]
    simp [Written.text, Written.body, Written.fractionText, Written.exponentText]

/-- Zeros are digits. -/
theorem isDigit_of_mem_zeros (count : Nat) : ∀ c ∈ List.replicate count '0', c.isDigit = true := by
  intro c hc
  rw [List.eq_of_mem_replicate hc]
  rfl

/-- The text of a decimal with few digits in front of its point is a numeral. -/
theorem Decimal.isModerateNumeral_text {d : Decimal} (hne : d.digits ≠ 0) (h : d.point ≤ 16) :
    IsModerateNumeral d.text.toList := by
  have hdigit : ∀ c ∈ Nat.toDigits 10 d.digits, c.isDigit = true :=
    fun _ => Nat.isDigit_of_mem_toDigits (by decide) (by decide)
  have hhead := head?_toDigits_ne (Nat.pos_of_ne_zero hne)
  have hlength := Nat.length_toDigits_pos (b := 10) (n := d.digits)
  rw [point] at h
  rw [text]
  dsimp only
  split
  · -- Zeros fill up to the point.
    next hwhole =>
    have hnumeral := isModerateNumeral_point _ ['0']
      (List.forall_mem_append.mpr ⟨hdigit, isDigit_of_mem_zeros d.exponent.toNat⟩)
      (fun hzero => absurd hzero (by rwa [List.head?_append_of_ne_nil _ Nat.toDigits_ne_nil]))
      (by simp only [List.length_append, List.length_replicate]; omega) (isDigit_of_mem_zeros 1)
      (List.cons_ne_nil _ _)
    simpa [zeros] using hnumeral
  · split
    · -- The point stands inside the digits.
      next hfraction hinside =>
      have hnumeral := isModerateNumeral_point
        ((Nat.toDigits 10 d.digits).take ((Nat.toDigits 10 d.digits).length + d.exponent).toNat)
        ((Nat.toDigits 10 d.digits).drop ((Nat.toDigits 10 d.digits).length + d.exponent).toNat)
        (fun c hc => hdigit c (List.mem_of_mem_take hc))
        (fun hzero => absurd hzero (by rwa [List.head?_take, if_neg (by omega)]))
        (by simp only [List.length_take]; omega) (fun c hc => hdigit c (List.mem_of_mem_drop hc))
        (by rw [ne_eq, List.drop_eq_nil_iff]; omega)
      simpa using hnumeral
    · split
      · -- Zeros stand between the point and the digits.
        next hsmall =>
        have hnumeral := isModerateNumeral_point ['0'] _ (isDigit_of_mem_zeros 1)
          (fun _ => rfl) (by decide)
          (List.forall_mem_append.mpr ⟨isDigit_of_mem_zeros (-d.point).toNat, hdigit⟩)
          (List.append_ne_nil_of_right_ne_nil _ Nat.toDigits_ne_nil)
        simpa [zeros, point] using hnumeral
      · next hfraction hinside hsmall =>
        have hexponent : (Nat.toDigits 10 d.digits).length + d.exponent - 1 < 0 := by omega
        obtain ⟨first, rest, hdigits⟩ :=
          List.exists_cons_of_ne_nil (Nat.toDigits_ne_nil (b := 10) (n := d.digits))
        have hnumeral := isModerateNumeral_exponent (hdigits ▸ hdigit) hexponent
        cases rest with
        | nil => simpa [hdigits] using hnumeral
        | cons second rest => simpa [hdigits] using hnumeral

/-- The text of a number from zero to one is a numeral. -/
theorem InUnit.isModerateNumeral_text {x : Binary64} (h : x.InUnit) :
    IsModerateNumeral x.text.toList := by
  have htext : x.text = if x.significand = 0 then "0.0" else (shortest x).text := by
    rw [text, h.negative_eq, if_neg Bool.false_ne_true, String.empty_append]
  rw [htext]
  split
  · exact isModerateNumeral_point ['0'] ['0'] (isDigit_of_mem_zeros 1) (fun _ => rfl) (by decide)
      (isDigit_of_mem_zeros 1) (List.cons_ne_nil _ _)
  · next hne =>
    obtain ⟨hdigits, hpoint⟩ := shortest_bounds h hne
    exact Decimal.isModerateNumeral_text hdigits hpoint

/-- The text of a number from zero to one stands for a number. -/
theorem InUnit.exists_number? {x : Binary64} (h : x.InUnit) :
    ∃ y, number? (ofNumber x) = some y :=
  Option.isSome_iff_exists.mp h.isModerateNumeral_text.isSome_real?

end LayoutWatch.Binary64
