import LayoutWatch.Command.Failure
import LayoutWatch.Project.Folders
import LayoutWatch.Project.Settings

/-!
# The workspace of a command

Most commands work inside a project: they find its root, load its settings, and open the registry
that the settings name.
-/

namespace LayoutWatch.Command

open Project

variable {m : Type → Type} [Monad m] [FileSystem m]

/-- The root of a project. A single dot is the working folder; a root that is not there yet is seen
from the working folder. -/
def rootOf (path : String) : m String := do
  let here ← FileSystem.workingFolder
  if Path.steps path = [.here] then return here
  else return (← FileSystem.canonical? path).getD (Path.join here path)

/-- The folders of the project with a root. -/
def foldersOf (path : String) : m Folders := do return ⟨← rootOf path⟩

/-- Make a folder and those that it stands in. -/
def makeFolder (activity : Activity) (path : String) : Work m Unit :=
  Work.during activity (Work.ofAction .file (FileSystem.makeFolders path))

/-- Load the settings of a project. -/
def loadSettings (f : Folders) : Work m Settings := do
  let text ← Work.during (.readSettings f.settings)
    (Work.ofAction .file (FileSystem.readText f.settings))
  Work.during .parseSettings (Work.ofOption (.malformed .json) (Settings.parse? text))

/-- Save the settings of a project. -/
def saveSettings (f : Folders) (s : Settings) : Work m Unit := do
  makeFolder (.createFolder f.metaDir) f.metaDir
  Work.during (.writeSettings f.settings)
    (Work.ofAction .file (FileSystem.writeText f.settings s.fileText))

/-- A project that a command works inside. -/
structure Workspace where
  /-- Folders of the project. -/
  folders : Folders
  /-- Settings of the project. -/
  settings : Settings
  /-- Path of the registry. -/
  registryPath : String
  /-- The registry. -/
  registry : Registry

namespace Workspace

/-- Enter the project with these folders. -/
def enterFolders (folders : Folders) : Work m Workspace := do
  let settings ← loadSettings folders
  let registryPath := folders.resolve settings.registry
  let registry ← Work.during (.openRegistry registryPath)
    (Work.ofAction .registry (FileSystem.openRegistry registryPath))
  return { folders, settings, registryPath, registry }

/-- Enter the project with a root. -/
def enter (root : String) : Work m Workspace := do
  enterFolders (← Work.ask (foldersOf root))

/-- The binaries of the registry. -/
def binaries (w : Workspace) : Work m (List RegisteredBinary) :=
  Work.during .listBinaries (Work.ofResult .registry w.registry.listBinaries)

/-- The scans of the registry, or those of one binary. -/
def scans (w : Workspace) (binary : Option String) : Work m (List ScanRun) :=
  Work.during .listScans (Work.ofResult .registry (w.registry.listScans binary))

/-- Add something to the registry as it is kept by now, and keep the registry. -/
def add (w : Workspace) (activity : Activity)
    (insert : Registry → Except Registry.Fault (Registry × Nat)) : Work m Nat :=
  Work.during activity do
    let stored ← Work.ofAction .registry (FileSystem.readRegistry w.registryPath)
    let (registry, number) ← Work.ofResult .registry (insert stored)
    Work.ofAction .registry (FileSystem.writeRegistry w.registryPath registry)
    return number

/-- Add a binary to the registry. -/
def register (w : Workspace) (b : RegisteredBinary) : Work m Nat :=
  w.add .insertBinary (·.insertBinary b)

/-- Add a scan to the registry. -/
def record (w : Workspace) (s : ScanRun) : Work m Nat :=
  w.add .recordScan (·.insertScan s)

end Workspace

end LayoutWatch.Command
