import LayoutWatch.Codec.Layout
import LayoutWatch.Command.Sources

/-!
# Setting up a project and looking at it

A new project gets its folders, its settings and an empty registry. A project that is there can be
described.
-/

namespace LayoutWatch.Command

open Project Json

variable {m : Type → Type} [Monad m] [FileSystem m]

/-- The folders of a project, each with its label. -/
def labelledFolders (f : Folders) : List (String × String) := [
  ("meta dir", f.metaDir),
  ("signatures dir", f.signatures),
  ("reports dir", f.reports),
  ("layouts dir", f.layouts)]

/-- What is said about a new project. -/
def newProjectLines (f : Folders) (s : Settings) : List String := [
  "Initialized drift project:",
  "  Name: " ++ s.name,
  "  Root: " ++ f.root,
  "  Config: " ++ f.settings,
  "  DB path (relative): " ++ s.registry,
  "  Signatures dir: " ++ f.signatures,
  "  Reports dir: " ++ f.reports,
  "  Layouts dir: " ++ f.layouts]

/-- Set up a project. -/
def initProject (root : String) (name : Option String) : Work m Report := do
  let f ← Work.ask (foldersOf root)
  for (label, folder) in labelledFolders f do
    makeFolder (.createProjectFolder label folder) folder
  let settings := Settings.new (name.getD (Folders.nameOf f.root)) f.registryInSettings
  saveSettings f settings
  let _ ← Work.during (.initializeRegistry f.registry)
    (Work.ofAction .registry (FileSystem.openRegistry f.registry))
  return .clean (newProjectLines f settings)

/-- A project as it is described. -/
structure ProjectInfo where
  /-- Folders of the project. -/
  folders : Folders
  /-- Settings of the project. -/
  settings : Settings
  /-- Registered binaries. -/
  binaries : List RegisteredBinary
  /-- Number of signature files. -/
  signatureFiles : Nat
  /-- Number of scans. -/
  scans : Nat

namespace ProjectInfo

/-- Write the folders of a project. -/
def foldersToValue (f : Folders) : Value :=
  ofMembers [
    member "meta_dir" (ofText f.metaDir),
    member "signatures_dir" (ofText f.signatures),
    member "reports_dir" (ofText f.reports),
    member "layouts_dir" (ofText f.layouts)]

/-- Write the description of a project. -/
def toValue (p : ProjectInfo) : Value :=
  ofMembers [
    member "name" (ofText p.settings.name),
    member "root" (ofText p.folders.root),
    member "config_file" (ofText p.folders.settings),
    member "config_version" (ofText p.settings.configVersion),
    member "db_path" (ofText p.settings.registry),
    member "scan" p.settings.scan.toValue,
    member "layout" (foldersToValue p.folders),
    member "binaries" (ofList RegisteredBinary.toValue p.binaries),
    member "signature_files" (ofNat p.signatureFiles),
    member "scan_runs" (ofNat p.scans)]

/-- The line about what an extraction accepts. -/
def scanLine (s : ScanSettings) : String :=
  "Scan defaults: min_confidence=" ++ toString s.minConfidence.toNat ++ " max_occurrences="
    ++ toString s.maxOccurrences.toNat ++ " context_bytes=" ++ toString s.contextBytes.toNat

/-- The lines about the names and paths of a project. -/
def headLines (p : ProjectInfo) : List String :=
  ["Drift Project Info", "==================", "Name: " ++ p.settings.name]
    ++ (p.settings.description.map ("Description: " ++ ·)).toList
    ++ [
      "Root: " ++ p.folders.root,
      "Config file: " ++ p.folders.settings,
      "Config version: " ++ p.settings.configVersion,
      "DB path (config): " ++ p.settings.registry,
      scanLine p.settings.scan]

/-- The lines about what a project has. -/
def countLines (p : ProjectInfo) : List String := [
  "Binaries: " ++ toString p.binaries.length,
  "Signature files: " ++ toString p.signatureFiles,
  "Scan runs: " ++ toString p.scans]

end ProjectInfo

/-- The line that says whether a folder is there. -/
def folderLine (label path : String) : m String := do
  let there ← isThere .folder path
  return "- " ++ label ++ ": " ++ (if there then "OK" else "MISSING") ++ " (" ++ path ++ ")"

/-- The lines that say which folders of a project are there. -/
def folderLines (f : Folders) : m (List String) :=
  [("Meta dir (.drift)", f.metaDir), ("Signatures dir", f.signatures),
    ("Reports dir", f.reports), ("Layouts dir", f.layouts)].mapM
    fun (label, path) => folderLine label path

/-- Describe a project. -/
def projectInfo (root : String) (json : Bool) : Work m Report := do
  let w ← Workspace.enter root
  let binaries ← w.binaries
  let scans ← w.scans none
  let files ← signatureFiles w.folders.signatures
  let info : ProjectInfo := {
    folders := w.folders
    settings := w.settings
    binaries
    signatureFiles := files.length
    scans := scans.length }
  if json then return .clean (valueLines info.toValue)
  else
    let folders ← Work.ask (folderLines w.folders)
    return .clean (info.headLines ++ "" :: "Directories:" :: folders ++ "" :: info.countLines)

end LayoutWatch.Command
