import LayoutWatch.Json.Lexeme

/-!
# Writing structured text

A value is written on one line, or on lines that are indented by two blanks for each list and
record around them.
-/

namespace LayoutWatch.Json

/-- The characters of a scalar. -/
def Lexeme.text : Lexeme → List Char
  | .null => ['n', 'u', 'l', 'l']
  | .bool true => ['t', 'r', 'u', 'e']
  | .bool false => ['f', 'a', 'l', 's', 'e']
  | .number text => text
  | .string raw => '"' :: raw ++ ['"']

/-- White space between tokens. -/
structure Spacing where
  /-- In front of items, members and closing marks at a depth. -/
  gap : Nat → List Char
  /-- Behind the name of a member. -/
  afterColon : List Char

/-- Everything on one line. -/
def Spacing.oneLine : Spacing := ⟨fun _ => [], []⟩

/-- Every item and member on a line of its own. -/
def Spacing.indented : Spacing :=
  ⟨fun depth => '\n' :: List.replicate (2 * depth) ' ', [' ']⟩

mutual

/-- The characters of a value at a depth. -/
def print (spacing : Spacing) (depth : Nat) : Value → List Char
  | .leaf scalar => scalar.text
  | .list [] => ['[', ']']
  | .list (item :: rest) =>
    '[' :: printItems spacing (depth + 1) (item :: rest) ++ (spacing.gap depth ++ [']'])
  | .record [] => ['{', '}']
  | .record (member :: rest) =>
    '{' :: printMembers spacing (depth + 1) (member :: rest) ++ (spacing.gap depth ++ ['}'])

/-- The characters of the items of a list. -/
def printItems (spacing : Spacing) (depth : Nat) : List Value → List Char
  | [] => []
  | [item] => spacing.gap depth ++ print spacing depth item
  | item :: next :: rest =>
    spacing.gap depth ++ print spacing depth item
      ++ ',' :: printItems spacing depth (next :: rest)

/-- The characters of the members of a record. -/
def printMembers (spacing : Spacing) (depth : Nat) : List Member → List Char
  | [] => []
  | [(name, value)] =>
    spacing.gap depth ++ name.text ++ ':' :: spacing.afterColon ++ print spacing depth value
  | (name, value) :: next :: rest =>
    spacing.gap depth ++ name.text ++ ':' :: spacing.afterColon ++ print spacing depth value
      ++ ',' :: printMembers spacing depth (next :: rest)

end

/-- A value on one line. -/
def compact (value : Value) : String := String.ofList (print .oneLine 0 value)

/-- A value on indented lines. -/
def pretty (value : Value) : String := String.ofList (print .indented 0 value)

end LayoutWatch.Json
