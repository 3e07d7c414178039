import LayoutWatch.Yaml.Folding

/-!
# Tokens of indented text

Text is cut into scalars and marks. Where a mapping or a sequence begins by indentation alone, and
where it ends, tokens are put in that no character stands for. A key is recognised by the colon
behind it, so its token is put in front of what has been read already.
-/

namespace LayoutWatch.Yaml

/-- A token. -/
inductive Token where
  /-- Begin of a sequence by indentation. -/
  | sequenceStart
  /-- Begin of a mapping by indentation. -/
  | mappingStart
  /-- End of a sequence or mapping by indentation. -/
  | blockEnd
  /-- Begin of a sequence in brackets. -/
  | listOpen
  /-- End of a sequence in brackets. -/
  | listClose
  /-- Begin of a mapping in brackets. -/
  | recordOpen
  /-- End of a mapping in brackets. -/
  | recordClose
  /-- Dash in front of an entry. -/
  | entry
  /-- Comma between entries. -/
  | comma
  /-- A key follows. -/
  | key
  /-- A value follows. -/
  | value
  /-- A scalar. -/
  | scalar (s : Scalar)
  /-- Mark at the begin of a document. -/
  | documentStart
  /-- Mark at the end of a document. -/
  | documentEnd
  deriving DecidableEq, Repr

/-- What may turn out to be a key when a colon follows. -/
structure PossibleKey where
  /-- Number of tokens in front. -/
  tokens : Nat
  /-- Where it begins. -/
  place : Place
  /-- Its mapping goes on at this column, so that it has to be a key. -/
  required : Bool

/-- How far the cutting has come. -/
structure Cutting where
  /-- The text that is left. -/
  rest : List Char
  /-- Place of the text that is left. -/
  place : Place
  /-- Columns of the open sequences and mappings, innermost first. -/
  indents : List Nat
  /-- A key may begin here. -/
  keyAllowed : Bool
  /-- What may turn out to be a key outside brackets or inside the outermost open ones. -/
  possible : Option PossibleKey
  /-- The same for the brackets around, innermost first; as many as brackets are open. -/
  around : List (Option PossibleKey)
  /-- The tokens so far. -/
  tokens : List Token

namespace Cutting

/-- The begin of a text. -/
def start (text : List Char) : Cutting := ⟨text, ⟨0, 0, 0⟩, [], true, none, [], []⟩

/-- Brackets are open. -/
def inBrackets (c : Cutting) : Bool := !c.around.isEmpty

/-- Least column of what belongs to the innermost open sequence or mapping. -/
def nextIndent (c : Cutting) : Nat :=
  match c.indents with
  | [] => 0
  | column :: _ => column + 1

/-- Add a token. -/
def push (c : Cutting) (t : Token) : Cutting := { c with tokens := c.tokens ++ [t] }

/-- Pass some characters of the line. -/
def skip (c : Cutting) (count : Nat) : Cutting :=
  { c with rest := c.rest.drop count, place := c.place.skip count }

/-- Put tokens in front of those from a number on. -/
def insertAt (c : Cutting) (position : Nat) (ts : List Token) : Cutting :=
  { c with tokens := c.tokens.take position ++ ts ++ c.tokens.drop position }

/-- Pass blanks, comments and line breaks in front of a token. Outside brackets a key may begin on
a new line, and tabs may not stand where a key may begin. -/
def passSpace (brackets : Bool) (place : Place) (allowed comment : Bool) :
    List Char → List Char × Place × Bool
  | [] => ([], place, allowed)
  | c :: rest =>
    if isBreak c then passSpace brackets (place.after c) (allowed || !brackets) false rest
    else if comment || c == ' ' || c == '\t' && (brackets || !allowed) then
      passSpace brackets (place.after c) allowed comment rest
    else if c == '#' then passSpace brackets (place.after c) allowed true rest
    else (c :: rest, place, allowed)

/-- Move on to the next token. -/
def toToken (c : Cutting) : Cutting :=
  let (rest, place, keyAllowed) :=
    passSpace c.inBrackets c.place c.keyAllowed false c.rest
  { c with rest, place, keyAllowed }

/-- Longest distance between the begin of a key and its colon. -/
def keyLimit : Nat := 1024

/-- What began on an earlier line or too far in front is no key. -/
def isStale (here : Place) (k : PossibleKey) : Bool :=
  k.place.line < here.line || k.place.index + keyLimit < here.index

/-- Give up a possible key, unless it has to be one. -/
def giveUp (k : Option PossibleKey) : Option (Option PossibleKey) :=
  match k with
  | some key => if key.required then none else some none
  | none => some none

/-- Give up a possible key if it is stale. -/
def giveUpStale (here : Place) (k : Option PossibleKey) : Option (Option PossibleKey) :=
  if k.any (isStale here) then giveUp k else some k

/-- Give up all stale keys. -/
def dropStale (c : Cutting) : Option Cutting := do
  let possible ← giveUpStale c.place c.possible
  let around ← c.around.mapM (giveUpStale c.place)
  return { c with possible, around }

/-- Give up the possible key of the innermost level. -/
def dropKey (c : Cutting) : Option Cutting := do
  let possible ← giveUp c.possible
  return { c with possible }

/-- What begins here may turn out to be a key. -/
def noteKey (c : Cutting) : Option Cutting :=
  if c.keyAllowed then do
    let c ← c.dropKey
    let required := !c.inBrackets && c.indents.head? == some c.place.column
    return { c with possible := some ⟨c.tokens.length, c.place, required⟩ }
  else some c

/-- Close the sequences and mappings of larger columns. -/
def closeFrom (column : Nat) : List Nat → List Nat × List Token
  | [] => ([], [])
  | indent :: rest =>
    if column < indent then
      let (kept, ends) := closeFrom column rest
      (kept, .blockEnd :: ends)
    else (indent :: rest, [])

/-- Close the sequences and mappings that end in front of a column. -/
def unindent (c : Cutting) (column : Nat) : Cutting :=
  if c.inBrackets then c
  else
    let (indents, ends) := closeFrom column c.indents
    { c with indents, tokens := c.tokens ++ ends }

/-- Close all sequences and mappings. -/
def unindentAll (c : Cutting) : Cutting :=
  if c.inBrackets then c
  else { c with indents := [], tokens := c.tokens ++ c.indents.map fun _ => .blockEnd }

/-- Begin a sequence or mapping at a column, unless one is open there. -/
def indent (c : Cutting) (column position : Nat) (t : Token) : Cutting :=
  if c.inBrackets || c.indents.any (column ≤ ·) then c
  else { c.insertAt position [t] with indents := column :: c.indents }

/-- Take a mark at the begin or the end of a document. -/
def takeDocumentMark (c : Cutting) (t : Token) : Option Cutting := do
  let c ← c.unindentAll.dropKey
  return ({ c with keyAllowed := false }.skip 3).push t

/-- Take an opening bracket. -/
def takeOpen (c : Cutting) (t : Token) : Option Cutting := do
  let c ← c.noteKey
  return ({ c with
    around := c.possible :: c.around
    possible := none
    keyAllowed := true }.skip 1).push t

/-- Take a closing bracket. -/
def takeClose (c : Cutting) (t : Token) : Option Cutting := do
  let c ← c.dropKey
  let levels :=
    match c.around with
    | outer :: more => (outer, more)
    | [] => (c.possible, [])
  return ({ c with possible := levels.1, around := levels.2, keyAllowed := false }.skip 1).push t

/-- Take a comma. -/
def takeComma (c : Cutting) : Option Cutting := do
  let c ← c.dropKey
  return ({ c with keyAllowed := true }.skip 1).push .comma

/-- Take the dash of an entry. -/
def takeEntry (c : Cutting) : Option Cutting := do
  if !c.inBrackets && !c.keyAllowed then none
  else
    let c ← (c.indent c.place.column c.tokens.length .sequenceStart).dropKey
    return ({ c with keyAllowed := true }.skip 1).push .entry

/-- Take the question mark of a key. -/
def takeKey (c : Cutting) : Option Cutting := do
  if !c.inBrackets && !c.keyAllowed then none
  else
    let c ← (c.indent c.place.column c.tokens.length .mappingStart).dropKey
    return ({ c with keyAllowed := !c.inBrackets }.skip 1).push .key

/-- Take the colon of a value. -/
def takeValue (c : Cutting) : Option Cutting :=
  match c.possible with
  | some k =>
    let c := (c.insertAt k.tokens [.key]).indent k.place.column k.tokens .mappingStart
    some (({ c with possible := none, keyAllowed := false }.skip 1).push .value)
  | none =>
    if !c.inBrackets && !c.keyAllowed then none
    else
      let c := c.indent c.place.column c.tokens.length .mappingStart
      some (({ c with keyAllowed := !c.inBrackets }.skip 1).push .value)

/-- Add a scalar that was read. -/
def pushScalar (c : Cutting) (m : Making) (rest : List Char) (plain allowed : Bool) : Cutting :=
  { c with rest, place := m.place, keyAllowed := allowed }.push
    (.scalar ⟨m.text.reverse, plain⟩)

/-- Take a quoted scalar. -/
def takeQuoted (c : Cutting) (double : Bool) : Option Cutting := do
  let c ← c.noteKey
  let m := Making.start (c.place.skip 1)
  let (m, rest) ← if double then readDouble? m 0 (c.rest.drop 1) else readSingle? m (c.rest.drop 1)
  return c.pushScalar m rest false false

/-- Take a plain scalar. After a line break behind it a key may begin. -/
def takePlain (c : Cutting) : Option Cutting := do
  let c ← c.noteKey
  let (m, rest) ← readPlain? ⟨c.inBrackets, c.nextIndent⟩ (Making.start c.place) c.rest
  return c.pushScalar m rest true m.held.broken

/-- Characters that do not begin a plain scalar. -/
def isIndicator (c : Char) : Bool :=
  ['-', '?', ':', ',', '[', ']', '{', '}', '#', '&', '*', '!', '|', '>', '\'', '"', '%', '@',
    '\x60'].contains c

/-- A plain scalar begins here. -/
def beginsPlain (brackets : Bool) (c : Char) (rest : List Char) : Bool :=
  !isIndicator c && !isBlank c || c == '-' && !startsBlank rest
    || !brackets && (c == '?' || c == ':') && !startsBlank rest

/-- Take the token that begins here. Anchors, aliases, tags, block scalars and directives are
refused. -/
def take (c : Cutting) : List Char → Option Cutting
  | [] => none
  | first :: rest =>
    if c.place.column == 0 && startsDocumentMark (first :: rest) then
      c.takeDocumentMark (if first == '-' then .documentStart else .documentEnd)
    else if first == '[' then c.takeOpen .listOpen
    else if first == '{' then c.takeOpen .recordOpen
    else if first == ']' then c.takeClose .listClose
    else if first == '}' then c.takeClose .recordClose
    else if first == ',' then c.takeComma
    else if first == '-' && startsBlank rest then c.takeEntry
    else if first == '?' && (c.inBrackets || startsBlank rest) then c.takeKey
    else if first == ':' && (c.inBrackets || startsBlank rest) then c.takeValue
    else if first == '\'' then c.takeQuoted false
    else if first == '"' then c.takeQuoted true
    else if beginsPlain c.inBrackets first rest then c.takePlain
    else none

/-- The tokens of the text that is left. Each token takes a character at least, so as many steps
as there are characters are enough. -/
def tokens? (c : Cutting) : Nat → Option (List Token)
  | 0 => none
  | steps + 1 => do
    let c ← c.toToken.dropStale
    if c.rest.isEmpty then return (← c.unindentAll.dropKey).tokens
    else
      let c := c.unindent c.place.column
      (← c.take c.rest).tokens? steps

end Cutting

/-- A text with one form of line break. -/
def normalizeBreaks : List Char → List Char
  | [] => []
  | '\r' :: '\n' :: rest => '\n' :: normalizeBreaks rest
  | c :: rest => (if c == '\r' || c == '\x85' then '\n' else c) :: normalizeBreaks rest

/-- Character of a text. -/
def isAllowed (c : Char) : Bool :=
  let n := c.toNat
  n == 0x09 || n == 0x0A || n == 0x0D || (0x20 ≤ n && n ≤ 0x7E) || n == 0x85
    || (0xA0 ≤ n && n ≤ 0xFFFD && n != 0xFEFF) || 0x10000 ≤ n

/-- The tokens of a text. A byte order mark may stand in front. -/
def tokens? (text : List Char) : Option (List Token) :=
  let text := if text.head? == some '\uFEFF' then text.drop 1 else text
  if text.all isAllowed then
    (Cutting.start (normalizeBreaks text)).tokens? (text.length + 1)
  else none

end LayoutWatch.Yaml
