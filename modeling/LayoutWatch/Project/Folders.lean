import LayoutWatch.Files.Path

/-!
# Folders of a project

Where a project keeps its settings, registry, signatures, reports and layouts. The names of files
are made from names of structs and binaries, of which only harmless characters are kept.
-/

namespace LayoutWatch.Project

/-- The folders of a project, known by its root. -/
structure Folders where
  /-- Root of the project. -/
  root : String
  deriving DecidableEq, Repr

namespace Folders

/-- Folder of the settings and the registry. -/
def metaDir (f : Folders) : String := Path.join f.root ".drift"

/-- File of the settings. -/
def settings (f : Folders) : String := Path.join f.metaDir "project.json"

/-- File of the registry. -/
def registry (f : Folders) : String := Path.join f.metaDir "project.db"

/-- Folder of signature files. -/
def signatures (f : Folders) : String := Path.join f.root "signatures"

/-- Folder of reports. -/
def reports (f : Folders) : String := Path.join f.root "reports"

/-- Folder of layouts. -/
def layouts (f : Folders) : String := Path.join f.root "layouts"

/-- The registry as the settings name it: seen from the root where that is possible. -/
def registryInSettings (f : Folders) : String :=
  (Path.relativeTo? f.root f.registry).getD f.registry

/-- A path that was given for a file of the project. -/
def resolve (f : Folders) (path : String) : String := Path.join f.root path

/-- Character of a file name. -/
def isPlain (c : Char) : Bool := c.isAlphanum || c == '-' || c == '_' || c == '.'

/-- A name with every other character replaced. -/
def plainName (name : String) : String :=
  String.ofList (name.toList.map fun c => if isPlain c then c else '_')

/-- Name of the signature file of a struct. -/
def signatureFileName (structName : String) : String := plainName structName ++ ".json"

/-- Name of the report of a scan. -/
def scanReportName (binaryName : String) : String := "scan-" ++ plainName binaryName ++ ".json"

/-- The signature file of a struct. -/
def signatureFile (f : Folders) (structName : String) : String :=
  Path.join f.signatures (signatureFileName structName)

/-- The report of a scan. -/
def scanReport (f : Folders) (binaryName : String) : String :=
  Path.join f.reports (scanReportName binaryName)

/-- A project without a name is called after its root. -/
def nameOf (root : String) : String := (Path.fileName? root).getD "unnamed-project"

end Folders

end LayoutWatch.Project
