import LayoutWatch.Bytes
import LayoutWatch.Project.Registry

/-!
# Files

What commands ask of the files around them: what stands at a path, the contents of a file, the
names in a folder, and the registry that a file holds. Everything a command does goes through this
interface, so a command can be run on the files of a computer or on a tree of files that is only a
value.
-/

namespace LayoutWatch

/-- Why a file was not read or written. -/
inductive FileFault where
  /-- Nothing stands at the path. -/
  | notFound
  /-- A folder stands at the path. -/
  | isFolder
  /-- The path leads through a file. -/
  | notFolder
  /-- Something stands at the path already. -/
  | exists
  /-- The file holds no text. -/
  | notText
  /-- Another reason, in words. -/
  | other (reason : String)
  deriving DecidableEq, Repr

/-- The wording of a fault. -/
def FileFault.message : FileFault → String
  | .notFound => "No such file or directory (os error 2)"
  | .isFolder => "Is a directory (os error 21)"
  | .notFolder => "Not a directory (os error 20)"
  | .exists => "File exists (os error 17)"
  | .notText => "stream did not contain valid UTF-8"
  | .other reason => reason

/-- What stands at a path. -/
inductive FileKind where
  /-- A file. -/
  | file
  /-- A folder. -/
  | folder
  deriving DecidableEq, Repr

/-- The files around a command. -/
class FileSystem (m : Type → Type) where
  /-- The folder that relative paths are seen from. -/
  workingFolder : m String
  /-- The present time. -/
  now : m String
  /-- The path from the root to what stands at a path, without detours. -/
  canonical? : String → m (Option String)
  /-- What stands at a path. -/
  kind? : String → m (Option FileKind)
  /-- Contents of a file. -/
  read : String → m (Except FileFault Bytes)
  /-- Replace the contents of a file, or make a new one. -/
  write : String → Bytes → m (Except FileFault Unit)
  /-- Make a folder and those that it stands in. -/
  makeFolders : String → m (Except FileFault Unit)
  /-- Names in a folder. -/
  names : String → m (Except FileFault (List String))
  /-- The registry that a file holds. A missing or empty file holds a fresh one. -/
  readRegistry : String → m (Except Project.Registry.Fault Project.Registry)
  /-- Replace the registry that a file holds. -/
  writeRegistry : String → Project.Registry → m (Except Project.Registry.Fault Unit)

/-- The text that bytes stand for. -/
def Bytes.text? (bytes : Bytes) : Option String := String.fromUTF8? ⟨bytes⟩

/-- The bytes of a text. -/
def Bytes.ofText (text : String) : Bytes := text.toUTF8.data

namespace FileSystem

variable {m : Type → Type} [Monad m] [FileSystem m]

/-- Contents of a text file. -/
def readText (path : String) : m (Except FileFault String) := do
  match ← read path with
  | .error fault => return .error fault
  | .ok bytes =>
    match bytes.text? with
    | some text => return .ok text
    | none => return .error .notText

/-- Replace the contents of a text file, or make a new one. -/
def writeText (path text : String) : m (Except FileFault Unit) := write path (.ofText text)

/-- Open the registry at a path: bring it up to the current form and keep it so. -/
def openRegistry (path : String) : m (Except Project.Registry.Fault Project.Registry) := do
  match ← readRegistry path with
  | .error fault => return .error fault
  | .ok stored =>
    match stored.migrate with
    | .error fault => return .error fault
    | .ok current => return (← writeRegistry path current).map fun _ => current

end FileSystem

end LayoutWatch
