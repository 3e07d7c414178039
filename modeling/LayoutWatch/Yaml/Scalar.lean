import LayoutWatch.Text.Numeral
import LayoutWatch.Tree

/-!
# Scalars of indented text

A scalar is a text that stands between quotation marks or does not. Every scalar can be taken for
a text; only a plain one can be taken for a number or for nothing.
-/

namespace LayoutWatch.Yaml

/-- A scalar. -/
structure Scalar where
  /-- The text that it stands for. -/
  text : List Char
  /-- The scalar stands without quotation marks. -/
  plain : Bool
  deriving DecidableEq, Repr

/-- A written value. -/
abbrev Value := Tree Scalar

/-- The scalar that stands where nothing is written. -/
def Scalar.nothing : Scalar := ⟨[], true⟩

/-- The words for nothing. -/
def nullWords : List (List Char) :=
  [[], ['~'], ['n', 'u', 'l', 'l'], ['N', 'u', 'l', 'l'], ['N', 'U', 'L', 'L']]

/-- The base that a numeral names, and its digits. -/
def splitBase : List Char → Nat × List Char
  | '0' :: 'x' :: digits => (16, digits)
  | '0' :: 'o' :: digits => (8, digits)
  | '0' :: 'b' :: digits => (2, digits)
  | digits => (10, digits)

/-- Digits that begin with a zero and go on are no decimal numeral. -/
def hasLeadingZero (digits : List Char) : Bool :=
  digits.head? == some '0' && 1 < digits.length

/-- The whole number that a plain text stands for. A plus sign may stand in front. -/
def natural? (text : List Char) : Option Nat :=
  let unsigned :=
    match text with
    | '+' :: rest => rest
    | rest => rest
  match splitBase unsigned with
  | (10, digits) => if hasLeadingZero digits then none else Text.decimal? digits
  | (base, digits) => Text.numeral? base digits

instance : LayoutWatch.Scalar Scalar where
  text? s := some (String.ofList s.text)
  isNull s := s.plain && nullWords.contains s.text
  isUnwritten s := s.plain && s.text.isEmpty
  natural? s := if s.plain then natural? s.text else none

end LayoutWatch.Yaml
