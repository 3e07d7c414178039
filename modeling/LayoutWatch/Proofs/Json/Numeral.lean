import LayoutWatch.Json.Lexeme
import LayoutWatch.Proofs.Binary64.Reading
import Mathlib.Data.List.Basic
import Mathlib.Data.List.TakeWhile

/-!
# Numerals are taken apart

A numeral is written from its parts: a minus sign, digits, a point with digits, and an exponent. It
is taken apart into the same parts again, so it stands for the number of its parts. The numerals of
integers are such numerals, and they stand for their integers.
-/

namespace LayoutWatch

namespace Binary64.Written

/-- The point with the digits behind it, if there are any. -/
def fractionText (w : Written) : List Char := if w.fraction = [] then [] else '.' :: w.fraction

/-- The exponent with its mark and its sign, if it has digits. -/
def exponentText (w : Written) : List Char :=
  if w.exponent = [] then [] else 'e' :: if w.shrinks then '-' :: w.exponent else w.exponent

/-- The numeral without its sign. -/
def body (w : Written) : List Char := w.whole ++ (w.fractionText ++ w.exponentText)

/-- The numeral that is written from its parts. -/
def text (w : Written) : List Char := if w.negative then '-' :: w.body else w.body

/-- The parts of a numeral are digits. Those in front have to be there, without a needless zero. -/
structure WellFormed (w : Written) : Prop where
  /-- There is a digit in front. -/
  whole_ne_nil : w.whole ≠ []
  /-- Digits stand in front of the point. -/
  isDigit_whole : ∀ c ∈ w.whole, c.isDigit = true
  /-- A zero in front is the only digit there. -/
  eq_zero_of_head? : w.whole.head? = some '0' → w.whole = ['0']
  /-- Digits stand behind the point. -/
  isDigit_fraction : ∀ c ∈ w.fraction, c.isDigit = true
  /-- The exponent is made of digits. -/
  isDigit_exponent : ∀ c ∈ w.exponent, c.isDigit = true
  /-- Only an exponent has a sign. -/
  shrinks_eq : w.exponent = [] → w.shrinks = false

end Binary64.Written

namespace Json

open Binary64 (Written)

/-! ## Digits -/

/-- Digits are set apart from what follows them. -/
theorem spanDigits_append {digits rest : List Char} (hdigits : ∀ c ∈ digits, c.isDigit = true)
    (hrest : ∀ c ∈ rest.head?, c.isDigit = false) :
    spanDigits (digits ++ rest) = (digits, rest) := by
  have hnone : rest.takeWhile Char.isDigit = [] ∧ rest.dropWhile Char.isDigit = rest := by
    cases rest with
    | nil => exact ⟨rfl, rfl⟩
    | cons c rest => simp [hrest c rfl]
  rw [spanDigits, List.takeWhile_append_of_pos hdigits, List.dropWhile_append_of_pos hdigits,
    hnone.1, hnone.2, List.append_nil]

/-- Only zero is written with a zero in front. -/
theorem head?_toDigits_ne {n : Nat} (h : 0 < n) : (Nat.toDigits 10 n).head? ≠ some '0' := by
  induction n using Nat.strongRecOn with
  | ind n ih =>
    rw [Nat.toDigits_eq_if (by decide)]
    split
    · next hsmall =>
      have hdigit : ∀ d < 10, 0 < d → d.digitChar ≠ '0' := by decide
      rw [List.head?_cons, ne_eq, Option.some.injEq]
      exact hdigit n hsmall h
    · next hlarge =>
      rw [List.head?_append_of_ne_nil _ Nat.toDigits_ne_nil]
      exact ih (n / 10) (by omega) (by omega)

/-- A zero in front of the digits of a number is the only one. -/
theorem toDigits_eq_of_head? {n : Nat} (h : (Nat.toDigits 10 n).head? = some '0') :
    Nat.toDigits 10 n = ['0'] := by
  obtain rfl : n = 0 := by
    by_contra hne
    exact head?_toDigits_ne (Nat.pos_of_ne_zero hne) h
  rfl

/-! ## Taking apart -/

variable {w : Written} (h : w.WellFormed)

include h

/-- No numeral without its sign begins with a sign. -/
theorem body_ne_cons (rest : List Char) : w.body ≠ '-' :: rest := by
  intro hbody
  cases hwhole : w.whole with
  | nil => exact h.whole_ne_nil hwhole
  | cons c whole =>
    have hdigit := h.isDigit_whole c (hwhole ▸ List.mem_cons_self)
    rw [Written.body, hwhole, List.cons_append] at hbody
    obtain ⟨rfl, -⟩ := List.cons.inj hbody
    exact absurd hdigit (by decide)

/-- An exponent is read from its text. -/
theorem exponent?_exponentText : exponent? w.exponentText = some (w.shrinks, w.exponent) := by
  rw [Written.exponentText]
  split
  · next hnone => rw [hnone, h.shrinks_eq hnone, exponent?]
  · next hsome =>
    have hall : w.exponent.all Char.isDigit = true := List.all_eq_true.mpr h.isDigit_exponent
    cases hexponent : w.exponent with
    | nil => exact absurd hexponent hsome
    | cons c digits =>
      rw [hexponent] at hall
      have hdigit := h.isDigit_exponent c (hexponent ▸ List.mem_cons_self)
      have hminus : c ≠ '-' := by
        rintro rfl
        exact absurd hdigit (by decide)
      have hplus : c ≠ '+' := by
        rintro rfl
        exact absurd hdigit (by decide)
      cases w.shrinks <;> simp_all [exponent?, Binary64.Bound.splitSign]

/-- The digits in front are set apart from the point and the exponent. -/
theorem spanDigits_body : spanDigits w.body = (w.whole, w.fractionText ++ w.exponentText) := by
  refine spanDigits_append h.isDigit_whole ?_
  rw [Written.fractionText, Written.exponentText]
  split <;> split <;> simp

/-- A numeral is taken apart into the parts that it was written from. -/
theorem written?_text : written? w.text = some w := by
  have hbody := spanDigits_body h
  have hsign := body_ne_cons h
  have hexponent := exponent?_exponentText h
  have hexponentHead : ∀ c ∈ w.exponentText.head?, c.isDigit = false := by
    rw [Written.exponentText]
    split <;> simp
  have hfraction : spanDigits (w.fraction ++ w.exponentText) = (w.fraction, w.exponentText) :=
    spanDigits_append h.isDigit_fraction hexponentHead
  have hpoint : ∀ rest, w.exponentText ≠ '.' :: rest := by
    intro rest
    rw [Written.exponentText]
    split <;> simp
  have hwhole : ¬(w.whole = [] ∨ w.whole.head? = some '0' ∧ w.whole ≠ ['0']) := by
    rintro (hnil | ⟨hhead, hne⟩)
    · exact h.whole_ne_nil hnil
    · exact hne (h.eq_zero_of_head? hhead)
  have hsigned : ∀ negative, written? (if negative then '-' :: w.body else w.body) =
      some { w with negative } := by
    -- `hsign` and `hpoint` rule out the branches with a sign and with a point.
    intro negative
    cases negative <;> by_cases hnone : w.fraction = [] <;>
      simp [written?, hbody, Written.fractionText, hnone, hfraction, hexponent, hwhole]
  exact hsigned w.negative

/-- A numeral that is written from its parts is one. -/
theorem isNumeral_text : isNumeral w.text = true := by
  rw [isNumeral, written?_text h, Option.isSome_some]

/-- A numeral stands for the number of its parts. -/
theorem real?_text : real? w.text = Binary64.ofScaled? w := by
  rw [real?, written?_text h, Option.bind_some]

/-- A numeral has a character. -/
theorem text_ne_nil : w.text ≠ [] := by
  rw [Written.text]
  split
  · exact List.cons_ne_nil _ _
  · exact List.append_ne_nil_of_left_ne_nil h.whole_ne_nil _

omit h

/-- The text is the numeral of parts that are read. -/
def IsModerateNumeral (text : List Char) : Prop :=
  ∃ w : Written, w.WellFormed ∧ w.Moderate ∧ text = w.text

/-- A moderate numeral stands for a number. -/
theorem IsModerateNumeral.isSome_real? {text : List Char} (h : IsModerateNumeral text) :
    (real? text).isSome := by
  obtain ⟨w, hformed, hmoderate, rfl⟩ := h
  rw [real?_text hformed]
  exact Binary64.isSome_ofScaled? hmoderate

/-! ## Integers -/

/-- The parts of the numeral of an integer. -/
def integerParts (n : Int) : Written := ⟨n < 0, Nat.toDigits 10 n.natAbs, [], false, []⟩

/-- The numeral of an integer is written from its parts. -/
theorem numeral_eq_text (n : Int) : numeral n = (integerParts n).text := by
  simp [numeral, integerParts, Written.text, Written.body, Written.fractionText,
    Written.exponentText]

/-- The parts of the numeral of an integer are well formed. -/
theorem wellFormed_integerParts (n : Int) : (integerParts n).WellFormed where
  whole_ne_nil := Nat.toDigits_ne_nil
  isDigit_whole _ := Nat.isDigit_of_mem_toDigits (by decide) (by decide)
  eq_zero_of_head? := toDigits_eq_of_head?
  isDigit_fraction := List.forall_mem_nil _
  isDigit_exponent := List.forall_mem_nil _
  shrinks_eq _ := rfl

/-- The numeral of an integer whose amount is a word is moderate. -/
theorem isModerateNumeral_numeral {n : Int} (h : n.natAbs < UInt64.size) :
    IsModerateNumeral (numeral n) := by
  have hlength : (Nat.toDigits 10 n.natAbs).length ≤ 20 :=
    (Nat.length_toDigits_le_iff (by decide) (by decide)).mpr (Nat.lt_trans h (by decide))
  exact ⟨integerParts n, wellFormed_integerParts n, ⟨hlength, .inl rfl⟩, numeral_eq_text n⟩

/-- A decimal numeral stands for its number. -/
@[simp] theorem decimal?_toDigits (n : Nat) : Text.decimal? (Nat.toDigits 10 n) = some n := by
  have hall : (Nat.toDigits 10 n).all Char.isDigit = true :=
    List.all_eq_true.mpr fun _ => Nat.isDigit_of_mem_toDigits (by decide) (by decide)
  rw [Text.decimal?, if_pos ⟨Nat.toDigits_ne_nil, hall⟩, Nat.ofDigitChars_ten_toDigits]

/-- A natural number is written in decimal digits. -/
@[simp] theorem numeral_natCast (n : Nat) : numeral n = Nat.toDigits 10 n := by
  rw [numeral, if_neg (by omega), Int.natAbs_natCast]

/-- The numeral of an integer stands for the integer. -/
@[simp] theorem integer?_numeral (n : Int) : integer? (numeral n) = some n := by
  have hdecimal := decimal?_toDigits n.natAbs
  rw [numeral]
  split
  · next hneg =>
    obtain ⟨k, hk⟩ : ∃ k, n.natAbs = k + 1 := Nat.exists_eq_succ_of_ne_zero (by omega)
    rw [hk] at hdecimal ⊢
    rw [integer?, hdecimal]
    exact congrArg some (by omega)
  · have hbody := body_ne_cons (wellFormed_integerParts n)
    simp only [Written.body, integerParts, Written.fractionText, Written.exponentText, if_true,
      List.append_nil] at hbody
    rw [integer?, hdecimal]
    · exact congrArg some (Int.natAbs_of_nonneg (by omega))
    · exact hbody

end Json

end LayoutWatch
