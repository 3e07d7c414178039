import LayoutWatch.Proofs.Command.Workspace

/-!
# What commands change

Opening a registry brings it up to the current form and keeps its rows. Writing a value changes one
file, and makes folders where nothing stood. What is added to a registry goes behind its rows.
-/

/-! ## Rows of a registry -/

namespace LayoutWatch.Project.Registry

variable {r r' : Registry}

/-- The numbered scans. -/
def scanRows (r : Registry) : List (Nat × ScanRun) := (r.scans.getD .empty).rows

/-- The numbered binaries. -/
def binaryRows (r : Registry) : List (Nat × RegisteredBinary) := (r.binaries.getD .empty).rows

/-- A registry that is brought up to the current form keeps its rows. -/
theorem rows_of_migrate (h : r.migrate = .ok r') :
    r'.scanRows = r.scanRows ∧ r'.binaryRows = r.binaryRows := by
  rw [migrate] at h
  split at h
  · cases h
  · cases h
    refine ⟨?_, ?_⟩
    · dsimp only [scanRows]
      split <;> rfl
    · dsimp only [binaryRows]
      split <;> rfl

/-- A scan is added behind the rows that are there. -/
theorem rows_of_insertScan {s : ScanRun} {number : Nat} (h : r.insertScan s = .ok (r', number)) :
    r'.scanRows = r.scanRows ++ [(number, s)] ∧ r'.binaryRows = r.binaryRows := by
  cases ht : r.scans with
  | none =>
    simp only [insertScan, require, ht] at h
    cases h
  | some t =>
    simp only [insertScan, require, ht] at h
    cases h
    refine ⟨?_, rfl⟩
    rw [scanRows, scanRows, ht]
    rfl

end LayoutWatch.Project.Registry

namespace LayoutWatch.Command

open Project Work

variable {w w' : FileWorld} {path : String}

/-- The registry at a path. One that cannot be read has no rows. -/
def registryAt (w : FileWorld) (path : String) : Registry :=
  (w.tree.readRegistry w.workingFolder path).toOption.getD .fresh

/-- A registry that is read is the one at the path. -/
theorem registryAt_eq {registry : Registry}
    (h : w.tree.readRegistry w.workingFolder path = .ok registry) :
    registryAt w path = registry := by
  rw [registryAt, h]
  rfl

/-! ## Opening a registry -/

/-- All files are as they were, and so are the rows of the registry at a path. The form of the
registry may be another one. -/
structure Untouched (w w' : FileWorld) (path : String) : Prop where
  /-- What stands elsewhere is the same. -/
  node?_eq : ∀ l, w.tree.registryLocation w.workingFolder path ≠ some l →
    w'.tree.node? l = w.tree.node? l
  /-- The scans are the same. -/
  scanRows_eq : (registryAt w' path).scanRows = (registryAt w path).scanRows
  /-- The binaries are the same. -/
  binaryRows_eq : (registryAt w' path).binaryRows = (registryAt w path).binaryRows

/-- A registry is open: it stands where it is kept. -/
structure IsOpen (w : FileWorld) (path : String) (l : Location) (registry : Registry) : Prop where
  /-- The path leads there. -/
  location_eq : w.tree.registryLocation w.workingFolder path = some l
  /-- The registry stands there. -/
  node?_eq : w.tree.node? l = some (.registry registry)

/-- The registry that is open is read. -/
theorem IsOpen.readRegistry_eq {l : Location} {registry : Registry}
    (h : IsOpen w path l registry) :
    w.tree.readRegistry w.workingFolder path = .ok registry :=
  FileTree.readRegistry_of_registry h.location_eq h.node?_eq

/-- Opening a registry touches nothing, and it is open then. -/
theorem untouched_of_openRegistry {registry : Registry}
    (h : Completes (ofAction .registry (FileSystem.openRegistry path)) w registry w') :
    Untouched w w' path ∧ ∃ l, w.tree.registryLocation w.workingFolder path = some l ∧
      IsOpen w' path l registry := by
  obtain ⟨stored, l, hstored, hmigrate, hl, rfl⟩ := exists_put_of_openRegistry h
  have hbefore := registryAt_eq hstored
  have hafter : registryAt { w with tree := w.tree.put l (.registry registry) } path = registry :=
    registryAt_eq (hl.readRegistry_put registry)
  obtain ⟨hscans, hbinaries⟩ := Registry.rows_of_migrate hmigrate
  refine ⟨⟨fun other hother => ?_, ?_, ?_⟩, l, hl.location_eq, hl.location_put _, hl.node?_eq _⟩
  · refine hl.node?_eq_of_ne registry ?_
    rintro rfl
    exact hother hl.location_eq
  · rw [hbefore, hafter, hscans]
  · rw [hbefore, hafter, hbinaries]

/-! ## Writing a value -/

/-- A text was written to the file at a path: nothing else was changed but that folders were made
where nothing stood. -/
structure Written (w w' : FileWorld) (path text : String) (place : Location) : Prop where
  /-- The working folder is the same. -/
  workingFolder_eq : w'.workingFolder = w.workingFolder
  /-- The path leads to the file. -/
  locate_eq : w'.tree.locate w'.workingFolder path = .ok place
  /-- The text is in the file. -/
  node?_eq : w'.tree.node? place = some (.file (.ofText text))
  /-- The folders are still there. -/
  foldersStay : FileTree.FoldersStay w.tree w'.tree
  /-- Elsewhere at most folders were made. -/
  others : ∀ l, l ≠ place → w'.tree.node? l = w.tree.node? l ∨
    (w.tree.node? l = none ∧ w'.tree.node? l = some .folder)

/-- A text that is written to a file of a folder, which is made if need be, stands in its file. -/
theorem exists_written {folder text : String} {making writing : Activity}
    (h : Completes (makeFolder making folder >>= fun _ =>
      during writing (ofAction .file (FileSystem.writeText path text))) w () w') :
    ∃ place, Written w w' path text place := by
  obtain ⟨⟨⟩, made, hmake, hwrite⟩ := completes_bind.mp h
  obtain ⟨tree, hfolders, rfl⟩ := completes_makeFolder.mp hmake
  have hadds : FileTree.OnlyAddsFolders w.tree tree := by
    have hmade := FileTree.onlyAddsFolders_makeFolders w.tree w.workingFolder folder
    rwa [hfolders] at hmade
  obtain ⟨written, hwritten, rfl⟩ := completes_writeText.mp (completes_during.mp hwrite)
  obtain ⟨place, hplace, hroot, hfree, rfl⟩ := FileTree.exists_put_of_write hwritten
  have hstay := FileTree.foldersStay_put hroot hfree (.file (.ofText text))
  refine ⟨place, rfl, FileTree.locate_mono hstay hplace, ?_, ?_, fun l hl => ?_⟩
  · rw [FileTree.node?_put hroot, if_pos rfl]
  · exact fun p hp => hstay p (hadds.foldersStay p hp)
  · rw [FileTree.node?_put hroot, if_neg hl]
    exact hadds l

/-- A value that is written stands in its file. -/
theorem exists_written_of_writeValue {folder : String} {value : Json.Value}
    (h : Completes (writeValue folder path value) w () w') :
    ∃ place, Written w w' path (Json.pretty value) place := exists_written h

/-- Settings that are saved stand in their file. -/
theorem exists_written_of_saveSettings {f : Folders} {s : Settings}
    (h : Completes (saveSettings f s) w () w') :
    ∃ place, Written w w' f.settings s.fileText place := exists_written h

/-- The path of a registry goes on leading to its location. -/
theorem Written.registryLocation_eq {text file : String} {place l : Location}
    (h : Written w w' file text place)
    (hl : w.tree.registryLocation w.workingFolder path = some l) :
    w'.tree.registryLocation w'.workingFolder path = some l := by
  rw [h.workingFolder_eq]
  exact FileTree.registryLocation_mono h.foldersStay hl

/-- A registry stays open while a text is written to another file. -/
theorem Written.isOpen {text file : String} {place l : Location} {registry : Registry}
    (h : Written w w' file text place) (hl : l ≠ place) (hopen : IsOpen w path l registry) :
    IsOpen w' path l registry where
  location_eq := h.registryLocation_eq hopen.location_eq
  node?_eq := by
    rcases h.others l hl with hsame | ⟨hnone, -⟩
    · rw [hsame, hopen.node?_eq]
    · rw [hopen.node?_eq] at hnone
      cases hnone

/-- A scan is not added to what stands in the file of a report. -/
theorem ne_place_of_insertScan {text file : String} {place l : Location} {registry : Registry}
    {stored kept : Registry} {s : ScanRun} {number : Nat} (hopen : IsOpen w path l registry)
    (hwritten : Written w w' file text place)
    (hstored : w'.tree.readRegistry w'.workingFolder path = .ok stored)
    (hinsert : stored.insertScan s = .ok (kept, number)) : l ≠ place := by
  rintro rfl
  have hlocation := hwritten.registryLocation_eq hopen.location_eq
  rw [FileTree.readRegistry_of_file hlocation hwritten.node?_eq] at hstored
  split at hstored
  · -- An empty file would hold a fresh registry, which has no table of scans.
    cases hstored
    cases hinsert
  · cases hstored

end LayoutWatch.Command
