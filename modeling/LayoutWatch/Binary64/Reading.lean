import LayoutWatch.Binary64.Basic
import LayoutWatch.Text.Numeral

/-!
# Reading binary numbers

Two ways to read a decimal. A number in a file is scaled: its digits are kept as long as they fit
into 64 bits, rounded, and then multiplied or divided once by a power of ten, which is itself
rounded, so that the result may differ from the nearest number in its last bits. A bound given on
the command line is read exactly.
-/

namespace LayoutWatch.Binary64

/-- The parts of a written decimal number. -/
structure Written where
  /-- The number has a minus sign. -/
  negative : Bool
  /-- Digits in front of the point. -/
  whole : List Char
  /-- Digits behind the point. -/
  fraction : List Char
  /-- The exponent has a minus sign. -/
  shrinks : Bool
  /-- Digits of the exponent. -/
  exponent : List Char
  deriving DecidableEq, Repr

/-- Value of one decimal digit. -/
def digitValue (c : Char) : Nat := c.toNat - 48

/-- Digits kept so far, and the power of ten that the dropped ones amount to. -/
structure Kept where
  /-- Value of the kept digits. -/
  value : Nat
  /-- Exponent of ten. -/
  exponent : Int

/-- Keep digits in front of the point while their value fits into 64 bits. From the first one that
does not fit on, each raises the exponent. -/
def keepWhole (value : Nat) : List Char → Kept
  | [] => ⟨value, 0⟩
  | digit :: rest =>
    if value * 10 + digitValue digit < UInt64.size then
      keepWhole (value * 10 + digitValue digit) rest
    else ⟨value, rest.length + 1⟩

/-- Keep digits behind the point while their value fits into 64 bits. The others are dropped. -/
def keepFraction (kept : Kept) : List Char → Kept
  | [] => kept
  | digit :: rest =>
    if kept.value * 10 + digitValue digit < UInt64.size then
      keepFraction ⟨kept.value * 10 + digitValue digit, kept.exponent - 1⟩ rest
    else kept

/-- Largest power of ten that is used as one factor. -/
def factorLimit : Nat := 308

/-- The power of ten nearest to it in the format. -/
def powerOfTen (n : Nat) : Binary64 := (ofQuotient? false (Nat.pow 10 n) 1).getD zero

/-- Divide by the largest factor until the exponent is in reach of one division, at most `steps`
times. -/
def shrink (x : Binary64) (exponent : Nat) : Nat → Option Binary64
  | 0 => some { x with significand := 0, exponent := -1074 }
  | steps + 1 =>
    if x.significand = 0 then some x
    else if exponent ≤ factorLimit then x.div? (powerOfTen exponent)
    else do shrink (← x.div? (powerOfTen factorLimit)) (exponent - factorLimit) steps

/-- Scale a number by a power of ten; nothing if the result is too large for the format. Three
divisions by the largest factor leave nothing of any number. -/
def scaleByTen? (x : Binary64) (exponent : Int) : Option Binary64 :=
  if exponent < 0 then shrink x exponent.natAbs 4
  else if x.significand = 0 then some x
  else if exponent ≤ factorLimit then x.mul? (powerOfTen exponent.toNat)
  else none

/-- Exponents stay in the range of 32-bit words. -/
def clampExponent (exponent : Int) : Int := max (-0x80000000) (min 0x7FFFFFFF exponent)

/-- Read a number of a file; nothing if it is too large for the format. -/
def ofScaled? (w : Written) : Option Binary64 := do
  let kept := keepFraction (keepWhole 0 w.whole) w.fraction
  let x ← ofQuotient? w.negative kept.value 1
  let exponent := Nat.ofDigitChars 10 w.exponent 0
  if exponent < 0x80000000 then
    let shift : Int := if w.shrinks then -(exponent : Int) else exponent
    scaleByTen? x (clampExponent (kept.exponent + shift))
  else if kept.value = 0 ∨ w.shrinks then some { zero with negative := w.negative }
  else none

/-- Read a number exactly; nothing if it is too large for the format. -/
def ofExact? (w : Written) : Option Binary64 :=
  let digits := (w.whole ++ w.fraction).dropWhile (· == '0')
  let value := Nat.ofDigitChars 10 digits 0
  let written : Int := Nat.ofDigitChars 10 w.exponent 0
  let exponent : Int := (if w.shrinks then -written else written) - w.fraction.length
  let magnitude := exponent + digits.length
  if value = 0 ∨ magnitude < -400 then some { zero with negative := w.negative }
  else if 400 < magnitude then none
  else ofQuotient? w.negative (value * Nat.pow 10 exponent.toNat) (Nat.pow 10 (-exponent).toNat)

namespace Bound

/-- The sign of a numeral and the rest. -/
def splitSign : List Char → Bool × List Char
  | '-' :: rest => (true, rest)
  | '+' :: rest => (false, rest)
  | rest => (false, rest)

/-- The parts of a numeral behind its sign: digits, a point and an exponent, of which the digits
may be missing on one side of the point. -/
def written? (negative : Bool) (text : List Char) : Option Written :=
  let whole := text.takeWhile Char.isDigit
  let afterWhole := text.dropWhile Char.isDigit
  let (fraction, rest) : List Char × List Char :=
    match afterWhole with
    | '.' :: more => (more.takeWhile Char.isDigit, more.dropWhile Char.isDigit)
    | _ => ([], afterWhole)
  if whole = [] ∧ fraction = [] then none
  else
    match rest with
    | [] => some ⟨negative, whole, fraction, false, []⟩
    | mark :: more =>
      let (shrinks, digits) := splitSign more
      if (mark = 'e' ∨ mark = 'E') ∧ digits ≠ [] ∧ digits.all Char.isDigit then
        some ⟨negative, whole, fraction, shrinks, digits⟩
      else none

/-- Read a bound: a decimal number, an infinity or the word for no number. -/
def parse? (text : String) : Option Bound :=
  let (negative, body) := splitSign text.toList
  let word := String.ofList (body.map Char.toLower)
  if word = "nan" then some .notANumber
  else if word = "inf" ∨ word = "infinity" then
    some (if negative then .negativeInfinite else .infinite)
  else
    (written? negative body).map fun w =>
      match ofExact? w with
      | some x => .finite x
      | none => if negative then .negativeInfinite else .infinite

end Bound

end LayoutWatch.Binary64
