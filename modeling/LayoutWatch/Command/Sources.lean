import LayoutWatch.Codec.Layout
import LayoutWatch.Codec.Signature
import LayoutWatch.Command.Workspace
import LayoutWatch.Yaml.Document

/-!
# What commands read and write

Layouts, signatures and binaries are read from files, and reports are written to files. A binary is
known by its registered name or by a path.
-/

namespace LayoutWatch.Command

variable {m : Type → Type} [Monad m] [FileSystem m]

/-- The notation of a layout file, by its extension. -/
def notationOf (path : String) : Notation :=
  match Path.extension? path with
  | some extension => if extension = "yaml" ∨ extension = "yml" then .yaml else .json
  | none => .json

/-- Read the text of a layout. -/
def parseLayout? (form : Notation) (text : String) : Option Layout :=
  match form with
  | .json => (Json.parse? text.toList).bind Layout.ofTree?
  | .yaml => (Yaml.parse? text.toList).bind Layout.ofTree?

/-- Load a layout. -/
def loadLayout (path : String) : Work m Layout := do
  let form := notationOf path
  let text ← Work.during (.readLayout path) (Work.ofAction .file (FileSystem.readText path))
  Work.during (.parseLayout form path) (Work.ofOption (.malformed form) (parseLayout? form text))

/-- Read the sets of a signature file. -/
def readSignatures (path : String) : Work m (List SignatureSet) := do
  let text ← Work.ofAction .file (FileSystem.readText path)
  return (← Work.ofOption (.malformed .json) (SignatureFile.parse? text)).sets

/-- Load the sets of a signature file. -/
def loadSignatures (path : String) : Work m (List SignatureSet) :=
  Work.during (.loadSignatures path) (readSignatures path)

/-- Load a binary. It is identified by the name of its file. -/
def loadBinary (path : String) : Work m Binary := do
  let bytes ← Work.ofAction (.unreadableBinary path) (FileSystem.read path)
  return ⟨(Path.fileName? path).getD path, bytes⟩

/-- Something of a kind stands at a path. -/
def isThere (kind : FileKind) (path : String) : m Bool := do
  return (← FileSystem.kind? path) = some kind

/-- Name and path of a binary. A registered name comes before a path. -/
def Workspace.locateBinary (w : Workspace) (binary : String) : Work m (String × String) := do
  match ← Work.during .findBinary (Work.ofResult .registry (w.registry.findBinary binary)) with
  | some registered => return (registered.name, w.folders.resolve registered.path)
  | none =>
    let path := w.folders.resolve binary
    if ← Work.ask (isThere .file path) then return ((Path.fileName? path).getD binary, path)
    else Work.giveUp (.unknownBinary binary path)

/-- A name with the extension of signature files. -/
def isSignatureFileName (name : String) : Bool := Path.extension? name == some "json"

/-- The signature files in a folder, by name. A folder that is not there has none. -/
def signatureFiles (folder : String) : Work m (List String) := do
  if ← Work.ask (isThere .folder folder) then
    let names ← Work.during (.readFolder folder) (Work.ofAction .file (FileSystem.names folder))
    let ordered := (names.filter isSignatureFileName).mergeSort fun a b => decide (a ≤ b)
    (ordered.map (Path.join folder)).filterM fun path => Work.ask (isThere .file path)
  else return []

/-- Write a value to a file of a folder, which is made if need be. -/
def writeValue (folder path : String) (value : Json.Value) : Work m Unit := do
  makeFolder (.createFolder folder) folder
  Work.during (.writeFile path)
    (Work.ofAction .file (FileSystem.writeText path (Json.pretty value)))

/-- The lines of a value. -/
def valueLines (value : Json.Value) : List String := [Json.pretty value]

end LayoutWatch.Command
