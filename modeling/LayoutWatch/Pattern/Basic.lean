import LayoutWatch.Bytes
import LayoutWatch.Text.Blank
import LayoutWatch.Text.Numeral

/-!
# Byte patterns

A pattern is a list of cells, each a fixed byte or a wildcard. Its text is one token per cell:
two hexadecimal digits for a byte, a question mark or two for a wildcard.
-/

namespace LayoutWatch

/-- One position of a pattern. -/
inductive Pattern.Cell where
  /-- The byte must be this one. -/
  | fixed (byte : UInt8)
  /-- Any byte will do. -/
  | wildcard
  deriving DecidableEq, Repr

/-- A byte pattern with wildcards. -/
abbrev Pattern := List Pattern.Cell

namespace Pattern

/-- Why a text is not a pattern. -/
inductive Malformed where
  /-- The text has no token. -/
  | empty
  /-- The token at this index, counted from zero, is neither a wildcard nor a byte. -/
  | badToken (token : String) (position : Nat)
  deriving DecidableEq, Repr

/-- The wording of a malformed pattern. -/
def Malformed.message : Malformed → String
  | .empty => "Signature pattern is empty"
  | .badToken token position => s!"Invalid signature token '{token}' at position {position}"

/-- The cell that a token stands for. -/
def cell? : List Char → Option Cell
  | ['?'] => some .wildcard
  | ['?', '?'] => some .wildcard
  | [a, b] => do
    let high ← Text.hexValue? a
    let low ← Text.hexValue? b
    return .fixed (UInt8.ofNat (16 * high + low))
  | _ => none

/-- The cells of a list of tokens, the first of which has index `position`. -/
def ofTokens (position : Nat) : List (List Char) → Except Malformed Pattern
  | [] => .ok []
  | token :: rest =>
    match cell? token with
    | none => .error (.badToken (String.ofList token) position)
    | some cell => (ofTokens (position + 1) rest).map (cell :: ·)

/-- Read a pattern from its text. White space separates the tokens. -/
def parse (text : String) : Except Malformed Pattern :=
  match Text.words text.toList with
  | [] => .error .empty
  | tokens => ofTokens 0 tokens

/-- The pattern that matches these bytes alone. -/
def ofBytes (bytes : List UInt8) : Pattern := bytes.map .fixed

/-- The pattern that matches these bytes with the positions of a window left open. -/
def ofBytesMasked (bytes : List UInt8) (masked : Window) : Pattern :=
  bytes.zipIdx.map fun (b, i) => if masked.contains i then .wildcard else .fixed b

/-- The byte of a cell, zero for a wildcard. -/
def Cell.byte : Cell → UInt8
  | .fixed b => b
  | .wildcard => 0

/-- The cell is compared with the file. -/
def Cell.isFixed : Cell → Bool
  | .fixed _ => true
  | .wildcard => false

/-- The token of a cell. -/
def Cell.text : Cell → String
  | .fixed b => (Text.byteDigits b).map Char.toUpper
  | .wildcard => "??"

/-- The text of a pattern, one blank between tokens. -/
def text (p : Pattern) : String := " ".intercalate (p.map Cell.text)

/-- Bytes in the notation of patterns. -/
def textOfBytes (bytes : List UInt8) : String := text (ofBytes bytes)

/-- A pattern as two parallel lists, the form in which one is stored. Nothing ties their lengths,
so the stored form need not be a pattern. -/
structure Stored where
  /-- Bytes to compare. -/
  bytes : List UInt8
  /-- Which of them are compared. -/
  mask : List Bool
  deriving DecidableEq, Repr

/-- The stored form of a pattern. -/
def stored (p : Pattern) : Stored := ⟨p.map Cell.byte, p.map Cell.isFixed⟩

/-- The pattern of a stored form, as far as both lists go. -/
def Stored.pattern (s : Stored) : Pattern :=
  s.bytes.zipWith (fun byte isFixed => if isFixed then .fixed byte else .wildcard) s.mask

end Pattern

end LayoutWatch
