import LayoutWatch.Command.Sources

/-!
# Registering binaries

A binary is registered under a name with its path seen from the root of the project. What is not
given about it is found out from the file.
-/

namespace LayoutWatch.Command

open Project Json

variable {m : Type → Type} [Monad m] [FileSystem m]

/-- What is given about a binary. -/
structure Registration where
  /-- Root of the project. -/
  root : String
  /-- Path of the file. -/
  path : String
  /-- Name in the project. -/
  name : Option String
  /-- Name of the architecture. -/
  arch : Option String
  /-- Digest of the file. -/
  hash : Option String
  /-- A digest that is not given is left out. -/
  skipHash : Bool
  deriving DecidableEq, Repr

namespace Registration

/-- The file has to be read: something that is to be registered is not given. -/
def needsFile (r : Registration) : Bool :=
  r.arch.isNone || r.hash.isNone && !r.skipHash

/-- The name that the binary is registered under. -/
def registeredName (r : Registration) : String :=
  r.name.getD ((Path.fileName? r.path).getD r.path)

/-- The architecture that is registered. -/
def registeredArch (r : Registration) (binary : Option Binary) : Option String :=
  r.arch.or (binary.bind (·.image.architecture?))

/-- The digest that is registered. -/
def registeredHash (r : Registration) (binary : Option Binary) : Option String :=
  r.hash.or (if r.skipHash then none else binary.map (·.hash))

end Registration

/-- A path of an existing file, seen from the root of a project where that is possible. -/
def pathInProject (root path : String) : m String := do
  let straight ← FileSystem.canonical? path
  let straightRoot ← FileSystem.canonical? root
  let inside := do Path.relativeTo? (← straightRoot) (← straight)
  return (inside.or (Path.relativeTo? root path)).getD path

/-- What is said about a registered binary. -/
def registeredLines (number : Nat) (b : RegisteredBinary) (registryPath : String) :
    List String := [
  "Added binary:",
  "  Id: " ++ toString number,
  "  Name: " ++ b.name,
  "  Path (relative): " ++ b.path,
  "  Arch: " ++ b.arch.getD "(unknown)",
  "  DB: " ++ registryPath]

/-- Register a binary. -/
def addBinary (r : Registration) : Work m Report := do
  let w ← Workspace.enter r.root
  let path := w.folders.resolve r.path
  if (← Work.ask (FileSystem.kind? path)).isNone then Work.giveUp (.missingBinary path)
  else
    let inProject ← Work.ask (pathInProject w.folders.root path)
    let binary ← if r.needsFile then some <$> Work.during (.readBinary path) (loadBinary path)
      else pure none
    let registered : RegisteredBinary := {
      name := r.registeredName
      path := inProject
      arch := r.registeredArch binary
      hash := r.registeredHash binary }
    let number ← w.register registered
    return .clean (registeredLines number registered w.registryPath)

/-- The line about a binary. -/
def binaryLine (b : RegisteredBinary) : String :=
  "- " ++ b.name ++ " (path: " ++ b.path ++ ", arch: " ++ b.arch.getD "(unspecified)" ++ ", hash: "
    ++ b.hash.getD "(none)" ++ ")"

/-- Items under a heading, or the remark that there are none. -/
def headedLines (heading : String) (items : List String) : List String :=
  heading :: if items.isEmpty then ["(none)"] else items

/-- List the registered binaries. -/
def listBinaries (root : String) (json : Bool) : Work m Report := do
  let w ← Workspace.enter root
  let binaries ← w.binaries
  return .clean <|
    if json then valueLines (ofList RegisteredBinary.toValue binaries)
    else headedLines "Binaries:" (binaries.map binaryLine)

end LayoutWatch.Command
