import LayoutWatch.Binary64.Decimal
import LayoutWatch.Binary64.Reading
import LayoutWatch.Tree

/-!
# Scalars of structured text

A scalar is kept in its written form: a string as the characters between its quotation marks, a
number as its numeral. Its meaning is taken from that form where it is asked for, so a value that
nothing asks for need not have one.
-/

namespace LayoutWatch.Json

/-- A scalar in its written form. -/
inductive Lexeme where
  /-- The word for nothing. -/
  | null
  /-- A truth value. -/
  | bool (value : Bool)
  /-- A numeral. -/
  | number (text : List Char)
  /-- The characters between quotation marks. -/
  | string (raw : List Char)
  deriving DecidableEq, Repr

/-- A written value. -/
abbrev Value := Tree Lexeme

/-! ## Strings -/

/-- A digit of a character number. -/
def unitDigit (n : Nat) : Char := Nat.digitChar (n % 16)

/-- The written form of a character inside a string. -/
def escapeChar (c : Char) : List Char :=
  match c with
  | '"' => ['\\', '"']
  | '\\' => ['\\', '\\']
  | '\x08' => ['\\', 'b']
  | '\t' => ['\\', 't']
  | '\n' => ['\\', 'n']
  | '\x0c' => ['\\', 'f']
  | '\r' => ['\\', 'r']
  | c =>
    if c.toNat < 0x20 then ['\\', 'u', '0', '0', unitDigit (c.toNat / 16), unitDigit c.toNat]
    else [c]

/-- The written form of a string. -/
def escape (text : List Char) : List Char := text.flatMap escapeChar

/-- The character that follows a backslash to stand for another one. -/
def shortEscape? : Char → Option Char
  | '"' => some '"'
  | '\\' => some '\\'
  | '/' => some '/'
  | 'b' => some '\x08'
  | 'f' => some '\x0c'
  | 'n' => some '\n'
  | 'r' => some '\r'
  | 't' => some '\t'
  | _ => none

/-- The number that four hexadecimal digits stand for. -/
def unit? (a b c d : Char) : Option Nat := Text.numeral? 16 [a, b, c, d]

/-- The number is one of the first halves of a pair. -/
def isHighHalf (n : Nat) : Bool := 0xD800 ≤ n && n < 0xDC00

/-- The number is one of the second halves of a pair. -/
def isLowHalf (n : Nat) : Bool := 0xDC00 ≤ n && n < 0xE000

/-- The character of two halves. -/
def joinHalves (high low : Nat) : Char :=
  Char.ofNat (0x10000 + (high - 0xD800) * 0x400 + (low - 0xDC00))

/-- The text that a written string stands for. Halves of pairs that stand alone stand for
nothing. -/
def unescape? : List Char → Option (List Char)
  | [] => some []
  | '\\' :: 'u' :: a :: b :: c :: d :: rest => do
    let first ← unit? a b c d
    if isHighHalf first then
      match rest with
      | '\\' :: 'u' :: e :: f :: g :: h :: behind =>
        let second ← unit? e f g h
        if isLowHalf second then (unescape? behind).map (joinHalves first second :: ·) else none
      | _ => none
    else if isLowHalf first then none
    else (unescape? rest).map (Char.ofNat first :: ·)
  | '\\' :: c :: rest => do
    let plain ← shortEscape? c
    (unescape? rest).map (plain :: ·)
  | c :: rest => if c = '\\' then none else (unescape? rest).map (c :: ·)

/-! ## Numbers -/

/-- Digits in front of the rest of a text. -/
def spanDigits (text : List Char) : List Char × List Char :=
  (text.takeWhile Char.isDigit, text.dropWhile Char.isDigit)

/-- The exponent at the end of a numeral: its sign and its digits. -/
def exponent? : List Char → Option (Bool × List Char)
  | [] => some (false, [])
  | mark :: rest =>
    let (shrinks, digits) := Binary64.Bound.splitSign rest
    if (mark = 'e' ∨ mark = 'E') ∧ digits ≠ [] ∧ digits.all Char.isDigit then
      some (shrinks, digits)
    else none

/-- The parts of a numeral: a minus sign, digits without a leading zero, a point with digits, and
an exponent, of which the digits in front have to be there. -/
def written? (text : List Char) : Option Binary64.Written := do
  let (negative, body) : Bool × List Char :=
    match text with
    | '-' :: rest => (true, rest)
    | rest => (false, rest)
  let (whole, afterWhole) := spanDigits body
  let (fraction, afterFraction) ←
    match afterWhole with
    | '.' :: rest =>
      if (spanDigits rest).1 = [] then none else some (spanDigits rest)
    | rest => some ([], rest)
  let (shrinks, exponent) ← exponent? afterFraction
  if whole = [] ∨ (whole.head? = some '0' ∧ whole ≠ ['0']) then none
  else some ⟨negative, whole, fraction, shrinks, exponent⟩

/-- A text is a numeral. -/
def isNumeral (text : List Char) : Bool := (written? text).isSome

/-- The integer that a numeral stands for. A point, an exponent or a minus sign in front of zero
makes a numeral stand for something else. -/
def integer? : List Char → Option Int
  | '-' :: digits =>
    match Text.decimal? digits with
    | some (n + 1) => some (-(n + 1 : Nat))
    | _ => none
  | digits => (Text.decimal? digits).map Int.ofNat

/-- The number that a numeral stands for. -/
def real? (text : List Char) : Option Binary64 := (written? text).bind Binary64.ofScaled?

/-- The numeral of an integer. -/
def numeral (n : Int) : List Char :=
  if n < 0 then '-' :: Nat.toDigits 10 n.natAbs else Nat.toDigits 10 n.natAbs

instance : Scalar Lexeme where
  text?
    | .string raw => (unescape? raw).map String.ofList
    | .null | .bool _ | .number _ => none
  isNull
    | .null => true
    | .bool _ | .number _ | .string _ => false
  isUnwritten _ := false
  natural?
    | .number text => Text.decimal? text
    | .null | .bool _ | .string _ => none

/-- The scalar has a meaning. -/
def Lexeme.isMeaningful : Lexeme → Bool
  | .null | .bool _ => true
  | .number text => (real? text).isSome
  | .string raw => (unescape? raw).isSome

/-! ## Values -/

/-- The truth value that a value stands for. -/
def bool? : Value → Option Bool
  | .leaf (.bool value) => some value
  | _ => none

/-- The signed word of sixty-four bits that a value stands for. -/
def signed64? : Value → Option Int
  | .leaf (.number text) =>
    (integer? text).filter fun n => -0x8000000000000000 ≤ n ∧ n < 0x8000000000000000
  | _ => none

/-- The number that a value stands for. -/
def number? : Value → Option Binary64
  | .leaf (.number text) => real? text
  | _ => none

/-- The choice that a value stands for: its name, or a record that gives the name a null. -/
def choice? {α : Type} (named : String → Option α) : Value → Option α
  | .leaf scalar => (Scalar.text? scalar).bind named
  | .record [(name, .leaf .null)] => (Scalar.text? name).bind named
  | _ => none

/-- The written form of a text. -/
def ofText (s : String) : Value := .leaf (.string (escape s.toList))

/-- The written form of an integer. -/
def ofInt (n : Int) : Value := .leaf (.number (numeral n))

/-- The written form of a natural number. -/
def ofNat (n : Nat) : Value := ofInt n

/-- The written form of a number. -/
def ofNumber (x : Binary64) : Value := .leaf (.number x.text.toList)

/-- The written form of a truth value. -/
def ofBool (value : Bool) : Value := .leaf (.bool value)

/-- The written form of nothing. -/
def null : Value := .leaf .null

/-- The written form of a list. -/
def ofList {α : Type} (item : α → Value) (items : List α) : Value := .list (items.map item)

/-- The written form of texts. -/
def ofTexts (texts : List String) : Value := ofList ofText texts

/-- The written form of what may be absent. -/
def ofOption {α : Type} (value : α → Value) : Option α → Value
  | some a => value a
  | none => null

/-- A member of a record. -/
abbrev Member := Lexeme × Value

/-- A member that is always written. -/
def member (name : String) (value : Value) : List Member :=
  [(.string (escape name.toList), value)]

/-- A member that is left out when it is absent. -/
def presentMember {α : Type} (name : String) (value : α → Value) : Option α → List Member
  | some a => member name (value a)
  | none => []

/-- The written form of a record. -/
def ofMembers (members : List (List Member)) : Value := .record members.flatten

end LayoutWatch.Json
