/-!
# Binary floating-point numbers

Finite numbers of the 64-bit binary format as a sign, a significand and an exponent of two.
Rounding is to the nearest number, a tie going to the even significand, and is done on exact
quotients of natural numbers.
-/

namespace LayoutWatch

/-- A finite number, `significand` times two to the `exponent`, with a sign. Significands stay
below two to the 53, and the exponent is the least possible from -1074 up. -/
structure Binary64 where
  /-- The number has the negative sign. -/
  negative : Bool
  /-- Whole significand. -/
  significand : Nat
  /-- Exponent of two. -/
  exponent : Int
  deriving DecidableEq, Repr

namespace Binary64

/-- A quotient rounded to the nearest whole number, a tie to the even one. -/
def roundQuotient (numerator denominator : Nat) : Nat :=
  let quotient := numerator / denominator
  let twice := 2 * (numerator % denominator)
  if denominator < twice ∨ denominator = twice ∧ quotient % 2 = 1 then quotient + 1 else quotient

/-- Numerator and denominator of a quotient divided by a power of two. -/
def scaled (numerator denominator : Nat) (exponent : Int) : Nat × Nat :=
  (numerator * Nat.pow 2 (-exponent).toNat, denominator * Nat.pow 2 exponent.toNat)

/-- The exponent at which a positive quotient has a significand of 53 bits, or -1074 where that
would be smaller. -/
def exponentOf (numerator denominator : Nat) : Int :=
  let guess : Int := Int.ofNat numerator.log2 - Int.ofNat denominator.log2
  let (a, b) := scaled numerator denominator guess
  max (-1074) (if b ≤ a then guess - 52 else guess - 53)

/-- The number nearest to a quotient, or nothing when that is too large for the format. -/
def ofQuotient? (negative : Bool) (numerator denominator : Nat) : Option Binary64 :=
  if numerator = 0 then some ⟨negative, 0, -1074⟩
  else
    let exponent := exponentOf numerator denominator
    let (a, b) := scaled numerator denominator exponent
    let significand := roundQuotient a b
    let (significand, exponent) :=
      if significand = Nat.pow 2 53 then (Nat.pow 2 52, exponent + 1) else (significand, exponent)
    if 971 < exponent then none else some ⟨negative, significand, exponent⟩

/-- Zero. -/
def zero : Binary64 := ⟨false, 0, -1074⟩

/-- The share of `part` in `whole`, at most one; zero when there is no whole. -/
def share (part whole : Nat) : Binary64 :=
  if whole = 0 then zero else (ofQuotient? false (min part whole) whole).getD zero

/-- Numerator and denominator of the absolute value. -/
def toQuotient (x : Binary64) : Nat × Nat :=
  (x.significand * Nat.pow 2 x.exponent.toNat, Nat.pow 2 (-x.exponent).toNat)

/-- Compare two numbers by value; the two zeros are equal. -/
def le (x y : Binary64) : Bool :=
  let (a, b) := x.toQuotient
  let (c, d) := y.toQuotient
  let left : Int := (if x.negative then -1 else 1) * (a * d : Nat)
  let right : Int := (if y.negative then -1 else 1) * (c * b : Nat)
  decide (left ≤ right)

/-- The product, rounded. -/
def mul? (x y : Binary64) : Option Binary64 :=
  let (a, b) := x.toQuotient
  let (c, d) := y.toQuotient
  ofQuotient? (x.negative != y.negative) (a * c) (b * d)

/-- The quotient by a number that is not zero, rounded. -/
def div? (x y : Binary64) : Option Binary64 :=
  let (a, b) := x.toQuotient
  let (c, d) := y.toQuotient
  ofQuotient? (x.negative != y.negative) (a * d) (b * c)

end Binary64

/-- A bound that a number is compared with. It may be infinite, or no number at all. -/
inductive Binary64.Bound where
  /-- Nothing reaches this bound. -/
  | notANumber
  /-- Only what is itself infinite reaches this bound. -/
  | infinite
  /-- Everything reaches this bound. -/
  | negativeInfinite
  /-- What is at least this number reaches the bound. -/
  | finite (x : Binary64)
  deriving DecidableEq, Repr

/-- A number reaches a bound. -/
def Binary64.Bound.reachedBy : Binary64.Bound → Binary64 → Bool
  | .notANumber, _ => false
  | .infinite, _ => false
  | .negativeInfinite, _ => true
  | .finite bound, x => bound.le x

end LayoutWatch
