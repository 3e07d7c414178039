import LayoutWatch.Binary64.Basic

/-!
# Decimal text of binary numbers

A number is written with the fewest digits that read back to it, and of those the nearest to its
value. Positional notation is used up to sixteen digits in front of the point and five places
behind it, an exponent otherwise.
-/

namespace LayoutWatch.Binary64

/-- A decimal number, `digits` times ten to the `exponent`. -/
structure Decimal where
  /-- Whole digits. -/
  digits : Nat
  /-- Exponent of ten. -/
  exponent : Int
  deriving DecidableEq, Repr

/-- Numerator and denominator of a decimal number. -/
def Decimal.toQuotient (d : Decimal) : Nat × Nat :=
  (d.digits * Nat.pow 10 d.exponent.toNat, Nat.pow 10 (-d.exponent).toNat)

/-- The decimal number rounds to this absolute value. -/
def Decimal.readsBack (d : Decimal) (x : Binary64) : Bool :=
  let (a, b) := d.toQuotient
  ofQuotient? false a b == some { x with negative := false }

/-- The exponent of ten just above a positive quotient: the least `k` from a lower estimate on with
the quotient below ten to the `k`. -/
def decimalScale (numerator denominator : Nat) : Int :=
  let estimate : Int :=
    (Int.ofNat numerator.log2 - Int.ofNat denominator.log2 - 1) * 30103 / 100000
  let below (k : Int) : Bool :=
    numerator * Nat.pow 10 (-k).toNat < denominator * Nat.pow 10 k.toNat
  ((List.range 4).map fun i => estimate + Int.ofNat i).find? below |>.getD (estimate + 4)

/-- The decimal with this many digits that reads back and is nearest, if one does. A tie goes to
the even last digit. -/
def decimalOfLength? (x : Binary64) (count : Nat) : Option Decimal :=
  let (numerator, denominator) := x.toQuotient
  let exponent := decimalScale numerator denominator - count
  let a := numerator * Nat.pow 10 (-exponent).toNat
  let b := denominator * Nat.pow 10 exponent.toNat
  let lower := a / b
  let candidates := [roundQuotient a b, lower, lower + 1].map fun digits =>
    (⟨digits, exponent⟩ : Decimal)
  candidates.find? (·.readsBack x)

/-- Move trailing zeros of the digits to the exponent. -/
def Decimal.strip (d : Decimal) : Decimal :=
  let digits := Nat.toDigits 10 d.digits
  let zeros := (digits.reverse.takeWhile (· == '0')).length
  if d.digits = 0 then d else ⟨d.digits / Nat.pow 10 zeros, d.exponent + zeros⟩

/-- The shortest decimal that reads back to the absolute value of a number that is not zero. -/
def shortest (x : Binary64) : Decimal :=
  match (List.range' 1 17).findSome? (decimalOfLength? x) with
  | some d => d.strip
  | none => ⟨x.significand, 0⟩

/-- Zeros. -/
def zeros (count : Nat) : String := String.ofList (List.replicate count '0')

/-- Lay out the digits of a decimal. -/
def Decimal.text (d : Decimal) : String :=
  let digits := Nat.toDigits 10 d.digits
  let length : Int := digits.length
  let point := length + d.exponent
  if 0 ≤ d.exponent ∧ point ≤ 16 then
    String.ofList digits ++ zeros d.exponent.toNat ++ ".0"
  else if 0 < point ∧ point ≤ 16 then
    String.ofList (digits.take point.toNat) ++ "." ++ String.ofList (digits.drop point.toNat)
  else if -5 < point ∧ point ≤ 0 then
    "0." ++ zeros (-point).toNat ++ String.ofList digits
  else
    let mark := "e" ++ toString (point - 1)
    match digits with
    | [digit] => String.ofList [digit] ++ mark
    | first :: rest => String.ofList [first] ++ "." ++ String.ofList rest ++ mark
    | [] => mark

/-- The text of a number. -/
def text (x : Binary64) : String :=
  (if x.negative then "-" else "")
    ++ if x.significand = 0 then "0.0" else (shortest x).text

/-- A hundred. -/
def hundred : Binary64 := ⟨false, 100 * Nat.pow 2 46, -46⟩

/-- The share of a whole as a whole number of percent. The product with a hundred is rounded to
the format first; its nearest whole number is taken with ties to even. -/
def percent (x : Binary64) : Nat :=
  match mul? x hundred with
  | some product =>
    let (a, b) := product.toQuotient
    roundQuotient a b
  | none => 0

end LayoutWatch.Binary64
