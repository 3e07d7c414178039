import LayoutWatch.Proofs.Codec.Settings
import LayoutWatch.Proofs.Command.SignatureFolder
import LayoutWatch.Proofs.Files.Writing

/-!
# Saved files load back unchanged

What a project saves is loaded again as it was: a list of signature sets from a single file, one
set from a file of its own, and the settings from their place in the project. This holds of the
texts, whatever is in them, and of the files that they are written to.
-/

namespace LayoutWatch.Command

open Project Work

variable {w w' : FileWorld}

/-- A text that was written to a file is read from it. -/
theorem completes_readText_of_write {path text : String}
    (h : Completes (ofAction .file (FileSystem.writeText path text)) w () w') :
    Completes (ofAction .file (FileSystem.readText path)) w' text w' := by
  obtain ⟨tree, hwritten, rfl⟩ := completes_writeText.mp h
  exact completes_readText_of_read (FileTree.read_write hwritten)

/-- The sets of a file that was written are loaded from it. -/
theorem completes_loadSignatures_of_write {path text : String} {f : SignatureFile}
    (htext : SignatureFile.parse? text = some f)
    (h : Completes (ofAction .file (FileSystem.writeText path text)) w () w') :
    Completes (loadSignatures path) w' f.sets w' := by
  have hread := (completes_readText.mp (completes_readText_of_write h)).1
  refine completes_loadSignatures.mpr ⟨?_, rfl⟩
  rw [setsAt?, hread, Option.bind_some, htext, Option.map_some]

/-- Sets that were saved to a single file are loaded from it. -/
theorem completes_loadSignatures_of_writeSets {path : String} {sets : List SignatureSet}
    (h : Completes (writeSets path sets) w () w') :
    Completes (loadSignatures path) w' sets w' :=
  completes_loadSignatures_of_write (SignatureFile.parse?_fileText sets) (completes_during.mp h)

/-- A set that was saved to a file of its own is loaded from it. -/
theorem completes_loadSignatures_of_writeValue {folder path : String} {s : SignatureSet}
    (h : Completes (writeValue folder path s.toValue) w () w') :
    Completes (loadSignatures path) w' [s] w' := by
  obtain ⟨⟨⟩, between, -, hwrite⟩ := completes_bind.mp h
  exact completes_loadSignatures_of_write (SignatureFile.parse?_pretty s)
    (completes_during.mp hwrite)

/-- Settings that were saved are loaded. -/
theorem completes_loadSettings_of_saveSettings {f : Folders} {s : Settings}
    (h : Completes (saveSettings f s) w () w') : Completes (loadSettings f) w' s w' := by
  obtain ⟨⟨⟩, between, -, hwrite⟩ := completes_bind.mp h
  have hread := completes_readText_of_write (completes_during.mp hwrite)
  refine completes_bind.mpr ⟨s.fileText, w', completes_during.mpr hread, ?_⟩
  exact completes_during.mpr (completes_ofOption.mpr ⟨s.parse?_fileText, rfl⟩)

/-- Everything that a project saves is loaded back unchanged, from its text and from its file. -/
theorem savedFiles_loadBack :
    (∀ sets : List SignatureSet,
      (SignatureFile.parse? (SignatureSet.fileText sets)).map SignatureFile.sets = some sets) ∧
    (∀ s : SignatureSet,
      (SignatureFile.parse? (Json.pretty s.toValue)).map SignatureFile.sets = some [s]) ∧
    (∀ s : Settings, Settings.parse? s.fileText = some s) ∧
    (∀ w w' path sets, Completes (writeSets path sets) w () w' →
      Completes (loadSignatures path) w' sets w') ∧
    (∀ w w' folder path (s : SignatureSet), Completes (writeValue folder path s.toValue) w () w' →
      Completes (loadSignatures path) w' [s] w') ∧
    ∀ w w' f s, Completes (saveSettings f s) w () w' → Completes (loadSettings f) w' s w' := by
  refine ⟨fun sets => ?_, fun s => ?_, Settings.parse?_fileText, ?_, ?_, ?_⟩
  · rw [SignatureFile.parse?_fileText]
    rfl
  · rw [SignatureFile.parse?_pretty]
    rfl
  · exact fun _ _ _ _ => completes_loadSignatures_of_writeSets
  · exact fun _ _ _ _ _ => completes_loadSignatures_of_writeValue
  · exact fun _ _ _ _ => completes_loadSettings_of_saveSettings

/-- Nothing is there yet. -/
def noFiles : FileWorld := ⟨.empty, "/", ""⟩

/-- A set with quotation marks, a backslash, a control character, a letter beyond the usual ones,
the largest offset, and members that are left out. -/
def awkwardSet : SignatureSet where
  structName := "ns::\"Foo\"\\\x01名"
  binaryHash := ""
  binaryVersion := none
  formatVersion := 0xFFFFFFFF
  extractedAt := "\n"
  signatures := [{
    kind := .stringReference
    structName := ""
    fieldName := "\t"
    expectedOffset := 0xFFFFFFFFFFFFFFFF
    pattern := "??"
    contextBefore := none
    contextAfter := some "00"
    baseConfidence := 255
    instruction := some .address
    notes := none }]

/-- Such a set is saved to a file with all signatures. -/
def allSaved : Work (StateM FileWorld) Unit := writeSets "all.json" [awkwardSet]

/-- Such a set is saved to a file of its own. -/
def oneSaved : Work (StateM FileWorld) Unit :=
  writeValue "signatures" "signatures/one.json" awkwardSet.toValue

/-- The settings of a new project are saved. -/
def newSaved : Work (StateM FileWorld) Unit := saveSettings ⟨"/p"⟩ (.new "p" "r.db")

/-- The files of such a set and of the settings of a new project can be written, and load back. -/
theorem savedFiles_loadBack_awkward : ∃ w₁ w₂ w₃,
    (Completes allSaved noFiles () w₁ ∧
      Completes (loadSignatures "all.json") w₁ [awkwardSet] w₁) ∧
    (Completes oneSaved noFiles () w₂ ∧
      Completes (loadSignatures "signatures/one.json") w₂ [awkwardSet] w₂) ∧
    (Completes newSaved noFiles () w₃ ∧
      Completes (loadSettings ⟨"/p"⟩) w₃ (.new "p" "r.db") w₃) := by
  obtain ⟨-, -, -, hsets, hset, hsettings⟩ := savedFiles_loadBack
  have hall : ((allSaved.run.run noFiles).1.toOption.map fun _ => true) = some true := by
    decide +kernel
  have hone : ((oneSaved.run.run noFiles).1.toOption.map fun _ => true) = some true := by
    decide +kernel
  have hnew : ((newSaved.run.run noFiles).1.toOption.map fun _ => true) = some true := by
    decide +kernel
  obtain ⟨⟨⟩, hall, -⟩ := exists_completes hall
  obtain ⟨⟨⟩, hone, -⟩ := exists_completes hone
  obtain ⟨⟨⟩, hnew, -⟩ := exists_completes hnew
  exact ⟨_, _, _, ⟨hall, hsets _ _ _ _ hall⟩, ⟨hone, hset _ _ _ _ _ hone⟩,
    ⟨hnew, hsettings _ _ _ _ hnew⟩⟩

end LayoutWatch.Command
