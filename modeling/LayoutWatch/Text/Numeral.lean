/-!
# Numerals

Decimal and hexadecimal numerals for reports. Hexadecimal digits are lower-case, except in the
text of a byte pattern.
-/

namespace LayoutWatch.Text

/-- Hexadecimal digits of a number, without leading zeros. -/
def hexDigits (n : Nat) : String := String.ofList (Nat.toDigits 16 n)

/-- A number in hexadecimal with its mark, such as `0x1f`. -/
def hex (n : Nat) : String := "0x" ++ hexDigits n

/-- Put copies of a character in front until the text has the given length. -/
def padLeft (c : Char) (width : Nat) (s : String) : String :=
  String.ofList (List.replicate (width - s.length) c) ++ s

/-- Put blanks behind until the text has the given length. -/
def padRight (width : Nat) (s : String) : String :=
  s ++ String.ofList (List.replicate (width - s.length) ' ')

/-- A number in hexadecimal with its mark and at least `digits` digits. -/
def hexPadded (digits n : Nat) : String := "0x" ++ padLeft '0' digits (hexDigits n)

/-- A byte as two lower-case digits. -/
def byteDigits (b : UInt8) : String := padLeft '0' 2 (hexDigits b.toNat)

/-- Bytes as lower-case digits without separators. -/
def bytesDigits (bytes : List UInt8) : String := String.join (bytes.map byteDigits)

/-- Value of a hexadecimal digit of either case. -/
def hexValue? (c : Char) : Option Nat :=
  if '0' ≤ c ∧ c ≤ '9' then some (c.toNat - 48)
  else if 'a' ≤ c ∧ c ≤ 'f' then some (c.toNat - 87)
  else if 'A' ≤ c ∧ c ≤ 'F' then some (c.toNat - 55)
  else none

/-- Value of a run of decimal digits; nothing for an empty run or any other character. -/
def decimal? (digits : List Char) : Option Nat :=
  if digits ≠ [] ∧ digits.all Char.isDigit then some (Nat.ofDigitChars 10 digits 0) else none

/-- Value of a run of digits in a base up to sixteen. -/
def numeral? (base : Nat) (digits : List Char) : Option Nat :=
  if digits = [] then none
  else
    digits.foldl
      (fun value c => do
        let v ← value
        let d ← hexValue? c
        if d < base then some (v * base + d) else none)
      (some 0)

end LayoutWatch.Text
