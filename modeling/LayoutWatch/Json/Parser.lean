import LayoutWatch.Json.Lexeme

/-!
# Reading structured text

Text is cut into tokens one character at a time, and the tokens are put together by a machine that
keeps the lists and records that are still open. Both go once through their input.
-/

namespace LayoutWatch.Json

/-- A token. -/
inductive Token where
  /-- Begin of a list. -/
  | listOpen
  /-- End of a list. -/
  | listClose
  /-- Begin of a record. -/
  | recordOpen
  /-- End of a record. -/
  | recordClose
  /-- Separator of items and members. -/
  | comma
  /-- Separator of the name and the value of a member. -/
  | colon
  /-- A scalar. -/
  | scalar (lexeme : Lexeme)
  deriving DecidableEq, Repr

/-! ## Tokens -/

/-- Where the cutting stands. Characters that belong to the token in the making are kept last
first. -/
inductive Cut where
  /-- Between tokens. -/
  | between
  /-- Inside a word or a numeral. -/
  | word (read : List Char)
  /-- Inside a string. -/
  | string (read : List Char)
  /-- Behind a backslash. -/
  | escape (read : List Char)
  /-- Inside the number of a character, of which this many digits have to follow. -/
  | unit (left : Nat) (read : List Char)
  deriving DecidableEq, Repr

/-- White space between tokens. -/
def isSpace (c : Char) : Bool := c == ' ' || c == '\t' || c == '\n' || c == '\r'

/-- Character of a word or a numeral. -/
def isWordChar (c : Char) : Bool := c.isAlphanum || c == '-' || c == '+' || c == '.'

/-- The scalar that a word stands for. -/
def wordToken? (word : List Char) : Option Token :=
  if word = ['n', 'u', 'l', 'l'] then some (.scalar .null)
  else if word = ['t', 'r', 'u', 'e'] then some (.scalar (.bool true))
  else if word = ['f', 'a', 'l', 's', 'e'] then some (.scalar (.bool false))
  else if isNumeral word then some (.scalar (.number word))
  else none

/-- The token of a punctuation mark. -/
def mark? : Char → Option Token
  | '[' => some .listOpen
  | ']' => some .listClose
  | '{' => some .recordOpen
  | '}' => some .recordClose
  | ',' => some .comma
  | ':' => some .colon
  | _ => none

/-- Take a character between tokens. -/
def begin? (c : Char) : Option (List Token × Cut) :=
  if isSpace c then some ([], .between)
  else if c = '"' then some ([], .string [])
  else if isWordChar c then some ([], .word [c])
  else (mark? c).map fun token => ([token], .between)

/-- Take a character: the tokens that it completes, and where the cutting stands then. -/
def Cut.step : Cut → Char → Option (List Token × Cut)
  | .between, c => begin? c
  | .word read, c =>
    if isWordChar c then some ([], .word (c :: read))
    else do
      let token ← wordToken? read.reverse
      let (tokens, cut) ← begin? c
      return (token :: tokens, cut)
  | .string read, c =>
    if c = '"' then some ([.scalar (.string read.reverse)], .between)
    else if c = '\\' then some ([], .escape (c :: read))
    else if c.toNat < 0x20 then none
    else some ([], .string (c :: read))
  | .escape read, c =>
    if c = 'u' then some ([], .unit 4 (c :: read))
    else if (shortEscape? c).isSome then some ([], .string (c :: read))
    else none
  | .unit left read, c =>
    if (Text.hexValue? c).isNone then none
    else if left ≤ 1 then some ([], .string (c :: read))
    else some ([], .unit (left - 1) (c :: read))

/-- The tokens of a text from where the cutting stands. -/
def Cut.tokens? : Cut → List Char → Option (List Token)
  | .between, [] => some []
  | .word read, [] => (wordToken? read.reverse).map ([·])
  | .string _, [] | .escape _, [] | .unit _ _, [] => none
  | cut, c :: rest => do
    let (tokens, next) ← cut.step c
    return tokens ++ (← next.tokens? rest)

/-! ## Values -/

/-- A list or record around the value that is being read. Items and members are kept last
first. -/
inductive Frame where
  /-- A list with the items in front of the value. -/
  | list (items : List Value)
  /-- A record with the members in front of the value, and the name of the value. -/
  | member (members : List Member) (name : Lexeme)

/-- What may follow, inside the frames that are still open. -/
inductive Expect where
  /-- A value. -/
  | value (frames : List Frame)
  /-- The first item of a list, or its end. -/
  | firstItem (frames : List Frame)
  /-- A comma, or the end of a list with these items. -/
  | afterItem (items : List Value) (frames : List Frame)
  /-- The first name of a record, or its end. -/
  | firstName (frames : List Frame)
  /-- The name of another member of a record. -/
  | name (members : List Member) (frames : List Frame)
  /-- A colon behind the name of a member. -/
  | colon (members : List Member) (name : Lexeme) (frames : List Frame)
  /-- A comma, or the end of a record with these members. -/
  | afterMember (members : List Member) (frames : List Frame)
  /-- Nothing, because this value is complete. -/
  | nothing (value : Value)

/-- Put a value into the innermost frame. -/
def deliver (value : Value) : List Frame → Expect
  | [] => .nothing value
  | .list items :: frames => .afterItem (value :: items) frames
  | .member members name :: frames => .afterMember ((name, value) :: members) frames

/-- Take the first token of a value. -/
def beginValue? (frames : List Frame) : Token → Option Expect
  | .scalar lexeme => some (deliver (.leaf lexeme) frames)
  | .listOpen => some (.firstItem frames)
  | .recordOpen => some (.firstName frames)
  | _ => none

/-- Take a token. -/
def Expect.step : Expect → Token → Option Expect
  | .value frames, token => beginValue? frames token
  | .firstItem frames, .listClose => some (deliver (.list []) frames)
  | .firstItem frames, token => beginValue? (.list [] :: frames) token
  | .afterItem items frames, .comma => some (.value (.list items :: frames))
  | .afterItem items frames, .listClose => some (deliver (.list items.reverse) frames)
  | .firstName frames, .recordClose => some (deliver (.record []) frames)
  | .firstName frames, .scalar (.string raw) => some (.colon [] (.string raw) frames)
  | .name members frames, .scalar (.string raw) => some (.colon members (.string raw) frames)
  | .colon members key frames, .colon => some (.value (.member members key :: frames))
  | .afterMember members frames, .comma => some (.name members frames)
  | .afterMember members frames, .recordClose =>
    some (deliver (.record members.reverse) frames)
  | _, _ => none

/-- The value that a list of tokens completes. -/
def Expect.value? : Expect → List Token → Option Value
  | .nothing result, [] => some result
  | _, [] => none
  | expect, token :: rest => (expect.step token).bind (·.value? rest)

/-- The value that a text is written for. -/
def parse? (text : List Char) : Option Value :=
  (Cut.between.tokens? text).bind (Expect.value [] |>.value? ·)

end LayoutWatch.Json
