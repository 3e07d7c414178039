import LayoutWatch.Yaml.Scalar

/-!
# Scalars over several lines

Inside a scalar, white space is held back until more text follows. A single line break then becomes
a blank, and of several the first one is left out.
-/

namespace LayoutWatch.Yaml

/-- Place of the next character of a text. -/
structure Place where
  /-- Number of lines in front. -/
  line : Nat
  /-- Number of characters in front on the line. -/
  column : Nat
  /-- Number of characters in front. -/
  index : Nat
  deriving DecidableEq, Repr

/-- A blank or a tab. -/
def isBlank (c : Char) : Bool := c == ' ' || c == '\t'

/-- A line break. -/
def isBreak (c : Char) : Bool := c == '\n' || c == '\u2028' || c == '\u2029'

/-- White space, or the end of the text, stands in front. -/
def startsBlank : List Char → Bool
  | [] => true
  | c :: _ => isBlank c || isBreak c

/-- The place behind a character. -/
def Place.after (p : Place) (c : Char) : Place :=
  if isBreak c then ⟨p.line + 1, 0, p.index + 1⟩ else ⟨p.line, p.column + 1, p.index + 1⟩

/-- The place behind some characters of one line. -/
def Place.skip (p : Place) (count : Nat) : Place := { p with
  column := p.column + count
  index := p.index + count }

/-- A mark of three characters for the begin or the end of a document stands in front. -/
def startsDocumentMark (text : List Char) : Bool :=
  (text.take 3 == ['-', '-', '-'] || text.take 3 == ['.', '.', '.']) && startsBlank (text.drop 3)

/-- White space that is held back. -/
structure Held where
  /-- Blanks of the line, as long as no break follows; the last one first. -/
  blanks : List Char
  /-- A line break was passed. -/
  broken : Bool
  /-- The first line break, if it counts. -/
  first : List Char
  /-- Further line breaks, the last one first. -/
  further : List Char
  deriving DecidableEq, Repr

namespace Held

/-- Nothing is held back. -/
def none : Held := ⟨[], false, [], []⟩

/-- A line break that does not count was passed. -/
def joined : Held := ⟨[], true, [], []⟩

/-- Hold a blank back. -/
def addBlank (h : Held) (c : Char) : Held :=
  if h.broken then h else { h with blanks := c :: h.blanks }

/-- Hold a line break back. -/
def addBreak (h : Held) (c : Char) : Held :=
  if h.broken then { h with further := c :: h.further } else ⟨[], true, [c], []⟩

/-- What stands for the white space in the text, the last character first. -/
def folded (h : Held) : List Char :=
  if h.broken then
    if h.first = ['\n'] then if h.further.isEmpty then [' '] else h.further
    else h.further ++ h.first
  else h.blanks

end Held

/-- A scalar in the making. -/
structure Making where
  /-- Place of the next character. -/
  place : Place
  /-- White space that is held back. -/
  held : Held
  /-- The text so far, the last character first. -/
  text : List Char
  /-- The last character belongs to the text. -/
  inWord : Bool

namespace Making

/-- A scalar that begins at a place. -/
def start (p : Place) : Making := ⟨p, .none, [], false⟩

/-- White space was passed behind some text. -/
def isBetweenWords (m : Making) : Bool := !m.inWord && !m.text.isEmpty

/-- Pass white space. -/
def passSpace (m : Making) (c : Char) : Making := { m with
  place := m.place.after c
  held := if isBlank c then m.held.addBlank c else m.held.addBreak c
  inWord := false }

/-- The text so far with the white space behind it, the last character first. -/
def flushed (m : Making) : List Char := m.held.folded ++ m.text

/-- Add a character to the text that is written with a number of characters. -/
def add (m : Making) (c : Char) (width : Nat) : Making :=
  ⟨m.place.skip width, .none, c :: m.flushed, true⟩

end Making

/-- What surrounds a scalar. -/
structure Surroundings where
  /-- The scalar stands inside brackets. -/
  inBrackets : Bool
  /-- Least column of further lines of a plain scalar. -/
  indent : Nat

/-- A comma or a bracket. -/
def isBracketMark (c : Char) : Bool :=
  c == ',' || c == '[' || c == ']' || c == '{' || c == '}'

/-- A plain scalar ends in front of this text. -/
def endsPlain (s : Surroundings) : List Char → Bool
  | [] => true
  | c :: rest => c == ':' && startsBlank rest || s.inBrackets && isBracketMark c

/-- A comment or the mark of a document stands in front, which white space sets off from a plain
scalar. -/
def startsSetOff (column : Nat) (text : List Char) : Bool :=
  text.head? == some '#' || column == 0 && startsDocumentMark text

/-- A colon stands in front that brackets do not allow inside a plain scalar. -/
def hasStrayColon (s : Surroundings) : List Char → Bool
  | ':' :: c :: _ => s.inBrackets && (isBracketMark c || c == '?')
  | _ => false

/-- Read a plain scalar: the scalar, and the text behind it and the white space that follows. -/
def readPlain? (s : Surroundings) (m : Making) : List Char → Option (Making × List Char)
  | [] => some (m, [])
  | c :: rest =>
    if isBlank c || isBreak c then
      if m.held.broken && m.place.column < s.indent && c == '\t' then none
      else readPlain? s (m.passSpace c) rest
    else if m.isBetweenWords && !s.inBrackets && m.place.column < s.indent then some (m, c :: rest)
    else if m.isBetweenWords && startsSetOff m.place.column (c :: rest) then some (m, c :: rest)
    else if hasStrayColon s (c :: rest) then none
    else if endsPlain s (c :: rest) then some (m, c :: rest)
    else readPlain? s (m.add c 1) rest

/-- Read the rest of a scalar between apostrophes: the scalar, and the text behind it. Two
apostrophes stand for one. -/
def readSingle? (m : Making) : List Char → Option (Making × List Char)
  | [] => none
  | c :: rest =>
    if isBlank c || isBreak c then readSingle? (m.passSpace c) rest
    else if m.place.column == 0 && startsDocumentMark (c :: rest) then none
    else if c == '\'' then
      match rest with
      | '\'' :: behind => readSingle? (m.add '\'' 2) behind
      | _ => some ({ m with place := m.place.skip 1, text := m.flushed, held := .none }, rest)
    else readSingle? (m.add c 1) rest

/-- The character that a letter behind a backslash stands for. -/
def letterEscape? : Char → Option Char
  | '0' => some '\x00'
  | 'a' => some '\x07'
  | 'b' => some '\x08'
  | 't' => some '\t'
  | '\t' => some '\t'
  | 'n' => some '\n'
  | 'v' => some '\x0b'
  | 'f' => some '\x0c'
  | 'r' => some '\r'
  | 'e' => some '\x1b'
  | ' ' => some ' '
  | '"' => some '"'
  | '/' => some '/'
  | '\\' => some '\\'
  | 'N' => some '\x85'
  | '_' => some '\u00a0'
  | 'L' => some '\u2028'
  | 'P' => some '\u2029'
  | _ => none

/-- Number of digits behind a letter that gives a character by number. -/
def numberEscapeWidth? : Char → Option Nat
  | 'x' => some 2
  | 'u' => some 4
  | 'U' => some 8
  | _ => none

/-- The character with a number that is written with some digits. -/
def numberedChar? (width : Nat) (digits : List Char) : Option Char := do
  let n ← Text.numeral? 16 digits
  if digits.length = width ∧ n.isValidChar then some (Char.ofNat n) else none

/-- Read the rest of a scalar between quotation marks: the scalar, and the text behind it. `skip`
counts the characters that have been read already. -/
def readDouble? (m : Making) (skip : Nat) : List Char → Option (Making × List Char)
  | [] => none
  | c :: rest =>
    if 0 < skip then readDouble? m (skip - 1) rest
    else if isBlank c || isBreak c then readDouble? (m.passSpace c) 0 rest
    else if m.place.column == 0 && startsDocumentMark (c :: rest) then none
    else if c == '"' then
      some ({ m with place := m.place.skip 1, text := m.flushed, held := .none }, rest)
    else if c == '\\' then
      match rest with
      | [] => none
      | letter :: behind =>
        if isBreak letter then
          readDouble? { m with
            place := m.place.after letter
            text := m.flushed
            held := .joined
            inWord := false } 1 rest
        else
          match numberEscapeWidth? letter with
          | some width =>
            match numberedChar? width (behind.take width) with
            | some named => readDouble? (m.add named (2 + width)) (1 + width) rest
            | none => none
          | none =>
            match letterEscape? letter with
            | some named => readDouble? (m.add named 2) 1 rest
            | none => none
    else readDouble? (m.add c 1) 0 rest

end LayoutWatch.Yaml
