import LayoutWatch.Proofs.Command.Reading
import LayoutWatch.Proofs.Files.Writing

/-!
# Entering a project

A project is entered only where its root is a folder, since its settings are read from there. The
files stay as they are but for the registry, which is kept where no folder stands.
-/

namespace LayoutWatch.Command

open Project LayoutWatch.Path Work

/-- The folders of the project with a root, as they are seen among these files. -/
def foldersIn (w : FileWorld) (root : String) : Folders :=
  ((foldersOf root : StateM FileWorld Folders).run w).1

/-- Looking for the root of a project leaves the files as they are. -/
theorem run_foldersOf (w : FileWorld) (root : String) :
    (foldersOf root : StateM FileWorld Folders).run w = (foldersIn w root, w) := by
  have hroot : ((rootOf root : StateM FileWorld String).run w).2 = w := by
    rw [rootOf, run_bind]
    split <;> rfl
  have hrun : (foldersOf root : StateM FileWorld Folders).run w =
      (⟨((rootOf root : StateM FileWorld String).run w).1⟩,
        ((rootOf root : StateM FileWorld String).run w).2) := rfl
  rw [foldersIn, hrun, hroot]

/-- The folders of a project are found, and the files are left as they are. -/
theorem completes_foldersOf {w w' : FileWorld} {root : String} {f : Folders} :
    Completes (ask (foldersOf root)) w f w' ↔ foldersIn w root = f ∧ w = w' := by
  have hrun : (ask (foldersOf root) : Work (StateM FileWorld) Folders).run.run w =
      (.ok ((foldersOf root : StateM FileWorld Folders).run w).1,
        ((foldersOf root : StateM FileWorld Folders).run w).2) := rfl
  rw [Completes, hrun, run_foldersOf, Prod.mk.injEq, Except.ok.injEq]

/-- Loading settings changes nothing. -/
theorem keepsFiles_loadSettings (f : Folders) :
    KeepsFiles (loadSettings f : Work (StateM FileWorld) _) :=
  ((keepsFiles_readText _).during _).bind fun _ => (keepsFiles_ofOption _ _).during _

/-- A registry that is opened is brought up to the current form and put where it is kept. -/
theorem exists_put_of_openRegistry {w w' : FileWorld} {path : String} {registry : Registry}
    (h : Completes (ofAction .registry (FileSystem.openRegistry path)) w registry w') :
    ∃ stored l, w.tree.readRegistry w.workingFolder path = .ok stored ∧
      stored.migrate = .ok registry ∧ w.tree.KeepsRegistry w.workingFolder path l ∧
      w' = { w with tree := w.tree.put l (.registry registry) } := by
  obtain ⟨stored, tree, hstored, hmigrate, hwritten, rfl⟩ := completes_openRegistry.mp h
  obtain ⟨l, hl⟩ := FileTree.exists_keepsRegistry hstored
  rw [hl.writeRegistry_eq] at hwritten
  cases hwritten
  exact ⟨stored, l, hstored, hmigrate, hl, rfl⟩

/-- A project is entered by loading its settings and opening the registry that they name. -/
theorem opens_of_enter {w w' : FileWorld} {root : String} {workspace : Workspace}
    (h : Completes (Workspace.enter root) w workspace w') :
    workspace.folders = foldersIn w root ∧
      Completes (loadSettings workspace.folders) w workspace.settings w ∧
      workspace.registryPath = workspace.folders.resolve workspace.settings.registry ∧
      Completes (ofAction .registry (FileSystem.openRegistry workspace.registryPath)) w
        workspace.registry w' := by
  obtain ⟨f, between, hask, henter⟩ := completes_bind.mp h
  obtain ⟨rfl, rfl⟩ := completes_foldersOf.mp hask
  obtain ⟨settings, between, hsettings, hopen⟩ := completes_bind.mp henter
  obtain rfl := (keepsFiles_loadSettings _).eq_of_completes hsettings
  obtain ⟨registry, last, hregistry, hworkspace⟩ := completes_bind.mp hopen
  obtain ⟨rfl, rfl⟩ := completes_pure.mp hworkspace
  exact ⟨rfl, hsettings, rfl, completes_during.mp hregistry⟩

/-- A project was entered: its root is a folder, and its registry is kept where no folder
stands. -/
structure Entered (w w' : FileWorld) (f : Folders) : Prop where
  /-- The root is a folder. -/
  root : ∃ l, w.tree.Reaches w.workingFolder f.root l
  /-- Nothing but the registry changes. -/
  registry : ∃ l kept, l ≠ [] ∧ w.tree.node? l ≠ some .folder ∧ (∀ s ∈ l, IsFileName s) ∧
    w' = { w with tree := w.tree.put l (.registry kept) }

/-- The folder of the settings has a name that leads somewhere. -/
theorem isFileName_metaDir : IsFileName ".drift" :=
  ⟨by decide, by decide, by decide, by decide⟩

/-- So has the file of the settings. -/
theorem isFileName_settings : IsFileName "project.json" :=
  ⟨by decide, by decide, by decide, by decide⟩

/-- So has the file of the registry. -/
theorem isFileName_registry : IsFileName "project.db" :=
  ⟨by decide, by decide, by decide, by decide⟩

/-- Settings stand in a folder of the root. -/
theorem exists_reaches_of_locate_settings {w : FileWorld} {f : Folders} {place : Location}
    (hfolder : w.workingFolder ≠ "") (h : w.tree.locate w.workingFolder f.settings = .ok place) :
    ∃ l, w.tree.Reaches w.workingFolder f.root l ∧
      w.tree.node? (l ++ [".drift"]) = some .folder ∧
      place = l ++ [".drift"] ++ ["project.json"] := by
  obtain ⟨inner, hinner, rfl⟩ := FileTree.reaches_of_locate_join hfolder isFileName_settings h
  obtain ⟨l, hl, rfl⟩ := FileTree.reaches_of_reaches_join hfolder isFileName_metaDir hinner
  exact ⟨l, hl, hinner.isFolder, rfl⟩

/-- What is read as a text at a path has a location. -/
theorem exists_locate_of_readText {w w' : FileWorld} {path text : String}
    (h : Completes (ofAction .file (FileSystem.readText path)) w text w') :
    ∃ l, w.tree.locate w.workingFolder path = .ok l := by
  obtain ⟨hread, -⟩ := completes_readText.mp h
  cases hl : w.tree.locate w.workingFolder path with
  | ok l => exact ⟨l, rfl⟩
  | error fault =>
    rw [FileTree.read, FileTree.find, hl] at hread
    cases hread

/-- Settings are read in a project whose root is a folder. -/
theorem exists_reaches_of_loadSettings {w w' : FileWorld} {f : Folders} {settings : Settings}
    (hfolder : w.workingFolder ≠ "") (h : Completes (loadSettings f) w settings w') :
    ∃ l, w.tree.Reaches w.workingFolder f.root l := by
  obtain ⟨text, between, htext, -⟩ := completes_bind.mp h
  obtain ⟨place, hplace⟩ := exists_locate_of_readText (completes_during.mp htext)
  obtain ⟨l, hl, -⟩ := exists_reaches_of_locate_settings hfolder hplace
  exact ⟨l, hl⟩

/-- A project is entered in its folders. -/
theorem entered_of_completes {w w' : FileWorld} {root : String} {workspace : Workspace}
    (hfolder : w.workingFolder ≠ "") (h : Completes (Workspace.enter root) w workspace w') :
    workspace.folders = foldersIn w root ∧ Entered w w' (foldersIn w root) := by
  obtain ⟨hfolders, hsettings, -, hopen⟩ := opens_of_enter h
  obtain ⟨stored, l, -, -, hl, rfl⟩ := exists_put_of_openRegistry hopen
  rw [hfolders] at hsettings
  have hroot := exists_reaches_of_loadSettings hfolder hsettings
  have hnames := FileTree.isFileName_of_registryLocation hl.location_eq
  exact ⟨hfolders, hroot, l, _, hl.ne_root, hl.not_folder, hnames, rfl⟩

/-- What is added to the registry goes behind what is kept there by then. -/
theorem exists_put_of_add {w w' : FileWorld} {workspace : Workspace} {activity : Activity}
    {insert : Registry → Except Registry.Fault (Registry × Nat)} {number : Nat}
    (h : Completes (workspace.add activity insert) w number w') :
    ∃ stored kept l,
      w.tree.readRegistry w.workingFolder workspace.registryPath = .ok stored ∧
      insert stored = .ok (kept, number) ∧
      w.tree.KeepsRegistry w.workingFolder workspace.registryPath l ∧
      w' = { w with tree := w.tree.put l (.registry kept) } := by
  obtain ⟨stored, between, hread, h⟩ := completes_bind.mp (completes_during.mp h)
  have hrun : (FileSystem.readRegistry workspace.registryPath : StateM FileWorld _).run w =
      (w.tree.readRegistry w.workingFolder workspace.registryPath, w) := rfl
  rw [completes_ofAction, hrun, Prod.mk.injEq] at hread
  obtain ⟨hstored, rfl⟩ := hread
  obtain ⟨⟨kept, given⟩, between, hinsert, h⟩ := completes_bind.mp h
  obtain ⟨hkept, rfl⟩ := completes_ofResult.mp hinsert
  obtain ⟨⟨⟩, last, hwrite, h⟩ := completes_bind.mp h
  obtain ⟨rfl, rfl⟩ := completes_pure.mp h
  obtain ⟨l, hl⟩ := FileTree.exists_keepsRegistry hstored
  obtain ⟨tree, hwritten, rfl⟩ := run_change.mp (completes_ofAction.mp hwrite)
  rw [hl.writeRegistry_eq] at hwritten
  cases hwritten
  exact ⟨stored, kept, l, hstored, hkept, hl, rfl⟩

end LayoutWatch.Command
