/-!
# Paths

A path is a text of segments between slashes. Empty segments and single dots lead nowhere, two
dots lead up. Joining and taking apart never look at a file.
-/

namespace LayoutWatch.Path

/-- The path begins at the root of all files. -/
def isAbsolute (path : String) : Bool := path.toList.head? == some '/'

/-- A path seen from another one. -/
def join (base path : String) : String :=
  if isAbsolute path then path
  else if base.isEmpty || base.toList.getLast? == some '/' then base ++ path
  else base ++ "/" ++ path

/-- The texts between the slashes. -/
def splitSlashes : List Char → List (List Char)
  | [] => [[]]
  | c :: rest =>
    if c = '/' then [] :: splitSlashes rest
    else
      match splitSlashes rest with
      | segment :: more => (c :: segment) :: more
      | [] => [[c]]

/-- The texts between the slashes of a path. -/
def segments (path : String) : List String := (splitSlashes path.toList).map String.ofList

/-- One step of a path. -/
inductive Step where
  /-- To the root of all files. -/
  | root
  /-- Nowhere, at the beginning of a path. -/
  | here
  /-- Up. -/
  | up
  /-- To this name. -/
  | name (text : String)
  deriving DecidableEq, Repr

/-- The step that a segment stands for, unless it leads nowhere. -/
def step? (segment : String) : Option Step :=
  if segment = "" ∨ segment = "." then none
  else if segment = ".." then some .up
  else some (.name segment)

/-- A segment of a path with the step that it stands for, if it leads anywhere. -/
abbrev Marked := String × Option Step

/-- The segments of a path with their steps. The first one may stand for the root or for a dot. -/
def marked (path : String) : List Marked :=
  match segments path with
  | [] => []
  | first :: rest =>
    let start : Option Step :=
      if isAbsolute path then some .root else if first = "." then some .here else step? first
    (first, start) :: rest.map fun segment => (segment, step? segment)

/-- The steps of a path. -/
def steps (path : String) : List Step := (marked path).filterMap (·.2)

/-- The name that a path leads to in its last step. -/
def fileName? (path : String) : Option String :=
  match (steps path).getLast? with
  | some (.name text) => some text
  | _ => none

/-- The text of segments. Where they only lead to the root, it is the slash of the root. -/
def textOf (parts : List Marked) : String :=
  if parts.map (·.2) = [some .root] then "/" else "/".intercalate (parts.map (·.1))

/-- The path without its last step and without segments that lead nowhere in front of that one.
Nothing is above the root, and nothing above an empty path. -/
def parent? (path : String) : Option String :=
  match (marked path).reverse.dropWhile (·.2.isNone) with
  | [] => none
  | (_, some .root) :: _ => none
  | _ :: above => some (textOf (above.dropWhile (·.2.isNone)).reverse)

/-- What stands behind the last dot of a file name, unless nothing stands in front of that dot. -/
def extensionOfName? (name : String) : Option String :=
  let reversed := name.toList.reverse
  let behind := reversed.takeWhile (· != '.')
  let front := (reversed.dropWhile (· != '.')).drop 1
  if front.isEmpty then none else some (String.ofList behind.reverse)

/-- The extension of the file name of a path. -/
def extension? (path : String) : Option String := (fileName? path).bind extensionOfName?

/-- The segments behind some steps, if the path begins with them. -/
def behind? : List Step → List Marked → Option (List Marked)
  | [], rest => some rest
  | _ :: _, [] => none
  | s :: more, (_, none) :: rest => behind? (s :: more) rest
  | s :: more, (_, some taken) :: rest => if s = taken then behind? more rest else none

/-- Segments without those at the beginning and the end that lead nowhere. -/
def trim (parts : List Marked) : List Marked :=
  let started := parts.dropWhile (·.2.isNone)
  (started.reverse.dropWhile (·.2.isNone)).reverse

/-- A path as seen from one that it leads through. -/
def relativeTo? (base path : String) : Option String :=
  (behind? (steps base) (marked path)).map fun rest => "/".intercalate ((trim rest).map (·.1))

end LayoutWatch.Path
