import LayoutWatch.Command.Extracting
import LayoutWatch.Proofs.Codec.Signature
import LayoutWatch.Proofs.Command.Workspace
import LayoutWatch.Proofs.Outcome

/-!
# The folder of signature files

Each set of signatures is written to the file of its struct, and a later set replaces an earlier one
in the same file. Loading the folder gives the last set of each file that has the extension of
signature files.
-/

namespace LayoutWatch.Command

open Project LayoutWatch.Path Work

/-! ## Writing sets -/

/-- The file that a set is written to. -/
def fileNameOf (s : SignatureSet) : String := Folders.signatureFileName s.structName

/-- The last of the sets that are written to a file. -/
def lastOf? (sets : List SignatureSet) (name : String) : Option SignatureSet :=
  (sets.filter fun s => fileNameOf s = name).getLast?

/-- A later set replaces the first one in its file. -/
theorem lastOf?_cons (s : SignatureSet) (sets : List SignatureSet) (name : String) :
    lastOf? (s :: sets) name =
      (lastOf? sets name).or (if fileNameOf s = name then some s else none) := by
  rw [lastOf?, lastOf?, List.filter_cons]
  by_cases hname : fileNameOf s = name
  · rw [if_pos (by simpa using hname), if_pos hname, List.getLast?_cons]
    cases (sets.filter fun s => fileNameOf s = name).getLast? <;> rfl
  · rw [if_neg (by simpa using hname), if_neg hname, Option.or_none]

/-- The last set of a file is one of the sets, and it is written to the file. -/
theorem mem_of_lastOf? {sets : List SignatureSet} {name : String} {s : SignatureSet}
    (h : lastOf? sets name = some s) : s ∈ sets ∧ fileNameOf s = name := by
  obtain ⟨hmem, hname⟩ := List.mem_filter.mp (List.mem_of_getLast? h)
  exact ⟨hmem, of_decide_eq_true hname⟩

/-- A file that a set is written to has a last set. -/
theorem exists_lastOf? {sets : List SignatureSet} {s : SignatureSet} (h : s ∈ sets) :
    ∃ last, lastOf? sets (fileNameOf s) = some last := by
  have hmem : s ∈ sets.filter fun other => fileNameOf other = fileNameOf s :=
    List.mem_filter.mpr ⟨h, decide_eq_true rfl⟩
  exact ⟨_, List.getLast?_eq_some_getLast (List.ne_nil_of_mem hmem)⟩

/-- What a set leaves in its file. -/
def fileOf (s : SignatureSet) : FileNode := .file (.ofText (Json.pretty s.toValue))

/-- Files were written to a location: nothing else was changed inside it, and all folders are
still there. -/
structure Wrote (w w' : FileWorld) (l : Location) (files : String → Option FileNode) : Prop where
  /-- The working folder is the same. -/
  workingFolder_eq : w'.workingFolder = w.workingFolder
  /-- The folders are still there. -/
  isFolder : ∀ p, w.tree.node? p = some .folder → w'.tree.node? p = some .folder
  /-- The files stand there, and besides them what stood there before. -/
  node?_eq : ∀ name, w'.tree.node? (l ++ [name]) = (files name).or (w.tree.node? (l ++ [name]))
  /-- No name is listed twice if none was. -/
  nodup : (w.tree.childNames l).Nodup → (w'.tree.childNames l).Nodup

/-- Files are written one after the other. -/
theorem Wrote.trans {w between w' : FileWorld} {l : Location}
    {first rest : String → Option FileNode} (hfirst : Wrote w between l first)
    (hrest : Wrote between w' l rest) : Wrote w w' l fun name => (rest name).or (first name) where
  workingFolder_eq := hrest.workingFolder_eq.trans hfirst.workingFolder_eq
  isFolder p hp := hrest.isFolder p (hfirst.isFolder p hp)
  node?_eq name := by rw [hrest.node?_eq, hfirst.node?_eq, Option.or_assoc]
  nodup h := hrest.nodup (hfirst.nodup h)

/-- A file that is put into a location is written there, where no folder stands. -/
theorem wrote_put {w : FileWorld} {l : Location} {name : String} (n : FileNode)
    (hfree : w.tree.node? (l ++ [name]) ≠ some .folder) :
    Wrote w { w with tree := w.tree.put (l ++ [name]) n } l
      (fun other => if name = other then some n else none) where
  workingFolder_eq := rfl
  isFolder p hp := by
    have hne : p ≠ l ++ [name] := by
      rintro rfl
      exact hfree hp
    rw [FileTree.node?_put (by simp), if_neg hne, hp]
  node?_eq other := by
    rw [FileTree.node?_put (by simp)]
    by_cases hname : name = other
    · subst hname
      simp
    · have hne : l ++ [other] ≠ l ++ [name] := by simpa using Ne.symm hname
      rw [if_neg hne, if_neg hname, Option.none_or]
  nodup h := FileTree.nodup_childNames_put h _ _

/-- The folder of signature files has a name of a folder. -/
theorem isFileName_signatures : IsFileName "signatures" :=
  ⟨by decide, by decide, by decide, by decide⟩

section Writing

variable {w w' : FileWorld} {f : Folders} {l : Location} (hfolder : w.workingFolder ≠ "")
  (hroot : w.tree.Reaches w.workingFolder f.root l)

include hfolder hroot

/-- The folder of signatures is made if need be. -/
theorem wrote_of_makeFolder {activity : Activity}
    (h : Completes (makeFolder activity f.signatures) w () w') :
    Wrote w w' (l ++ ["signatures"]) (fun _ => none) ∧
      w'.tree.Reaches w.workingFolder f.signatures (l ++ ["signatures"]) := by
  obtain ⟨tree, hmade, rfl⟩ := completes_makeFolder.mp h
  rcases hroot.makeFolders_join hfolder isFileName_signatures hmade with
    ⟨hthere, rfl⟩ | ⟨hfree, rfl⟩
  · refine ⟨⟨rfl, fun _ hp => hp, fun _ => rfl, fun h => h⟩, ?_⟩
    exact hroot.join hfolder isFileName_signatures hthere
  · have hstay : ∀ p, w.tree.node? p = some .folder →
        (w.tree.put (l ++ ["signatures"]) .folder).node? p = some .folder := by
      intro p hp
      rw [FileTree.node?_put (by simp), hp, ite_self]
    refine ⟨⟨rfl, hstay, fun name => ?_, fun h => FileTree.nodup_childNames_put h _ _⟩, ?_⟩
    · have hne : l ++ ["signatures"] ++ [name] ≠ l ++ ["signatures"] := by simp
      rw [FileTree.node?_put (by simp), if_neg hne, Option.none_or]
    · refine (hroot.mono hstay).join hfolder isFileName_signatures ?_
      rw [FileTree.node?_put (by simp), if_pos rfl]

/-- A set is written to its file in the folder of signatures. -/
theorem wrote_of_writeValue {s : SignatureSet}
    (h : Completes (writeValue f.signatures (f.signatureFile s.structName) s.toValue) w () w') :
    w'.tree.node? (l ++ ["signatures"]) = some .folder ∧
      Wrote w w' (l ++ ["signatures"])
        (fun name => if fileNameOf s = name then some (fileOf s) else none) := by
  obtain ⟨⟨⟩, between, hmake, hwrite⟩ := completes_bind.mp h
  obtain ⟨hmade, hreaches⟩ := wrote_of_makeFolder hfolder hroot hmake
  obtain ⟨tree, hwritten, rfl⟩ := completes_writeText.mp (completes_during.mp hwrite)
  rw [hmade.workingFolder_eq] at hwritten
  obtain ⟨hfree, rfl⟩ := hreaches.write_join hfolder
    (Folders.isFileName_signatureFileName s.structName) hwritten
  have hput := wrote_put (fileOf s) hfree
  refine ⟨hput.isFolder _ hreaches.isFolder, ?_⟩
  have htrans := hmade.trans hput
  simp only [Option.or_none] at htrans
  exact htrans

/-- All sets are written to their files. -/
theorem wrote_of_writeEachSet {sets : List SignatureSet} {written : List String}
    (h : Completes (writeEachSet f sets) w written w') :
    (sets ≠ [] → w'.tree.node? (l ++ ["signatures"]) = some .folder) ∧
      Wrote w w' (l ++ ["signatures"]) (fun name => (lastOf? sets name).map fileOf) := by
  induction sets generalizing w written with
  | nil =>
    obtain ⟨-, rfl⟩ := completes_mapM_nil.mp h
    exact ⟨fun hne => absurd rfl hne, ⟨rfl, fun _ hp => hp, fun _ => rfl, fun h => h⟩⟩
  | cons s sets ih =>
    obtain ⟨path, between, paths, hfirst, hrest, -⟩ := completes_mapM_cons.mp h
    obtain ⟨⟨⟩, last, hvalue, hpath⟩ := completes_bind.mp hfirst
    obtain ⟨-, rfl⟩ := completes_pure.mp hpath
    obtain ⟨hthere, hset⟩ := wrote_of_writeValue hfolder hroot hvalue
    rw [← hset.workingFolder_eq] at hfolder hroot
    obtain ⟨-, hsets⟩ := ih hfolder (hroot.mono hset.isFolder) hrest
    refine ⟨fun _ => hsets.isFolder _ hthere, ?_⟩
    have hfiles : (fun name => (lastOf? (s :: sets) name).map fileOf) = fun name =>
        ((lastOf? sets name).map fileOf).or
          (if fileNameOf s = name then some (fileOf s) else none) := by
      funext name
      rw [lastOf?_cons, Option.map_or, apply_ite (Option.map fileOf)]
      rfl
    rw [hfiles]
    exact hset.trans hsets

end Writing

/-! ## Loading files -/

/-- Load all signature files in a folder. -/
def loadFolder {m : Type → Type} [Monad m] [FileSystem m] (folder : String) :
    Work m (List SignatureSet) := do
  let files ← signatureFiles folder
  return (← files.mapM loadSignatures).flatten

/-- The sets of the file at a path, if it is a signature file. -/
def setsAt? (w : FileWorld) (path : String) : Option (List SignatureSet) :=
  ((w.tree.read w.workingFolder path).toOption.bind Bytes.text?).bind fun text =>
    (SignatureFile.parse? text).map SignatureFile.sets

/-- Loading a signature file gives its sets. -/
theorem completes_loadSignatures {w w' : FileWorld} {path : String} {sets : List SignatureSet} :
    Completes (loadSignatures path) w sets w' ↔ setsAt? w path = some sets ∧ w = w' := by
  rw [loadSignatures, completes_during, readSignatures, completes_bind, setsAt?]
  constructor
  · rintro ⟨text, between, htext, hparse⟩
    obtain ⟨hread, rfl⟩ := completes_readText.mp htext
    obtain ⟨file, between, hfile, hsets⟩ := completes_bind.mp hparse
    obtain ⟨hresult, rfl⟩ := completes_ofOption.mp hfile
    obtain ⟨rfl, rfl⟩ := completes_pure.mp hsets
    rw [hread, Option.bind_some, hresult]
    exact ⟨rfl, rfl⟩
  · rintro ⟨hsets, rfl⟩
    obtain ⟨text, hread, hparse⟩ := Option.bind_eq_some_iff.mp hsets
    obtain ⟨file, hfile, rfl⟩ := Option.map_eq_some_iff.mp hparse
    refine ⟨text, w, completes_readText.mpr ⟨hread, rfl⟩, completes_bind.mpr ⟨file, w, ?_, ?_⟩⟩
    · exact completes_ofOption.mpr ⟨hfile, rfl⟩
    · exact completes_pure.mpr ⟨rfl, rfl⟩

/-- A text is read back from its bytes. -/
@[simp] theorem text?_ofText (text : String) : Bytes.text? (.ofText text) = some text := by
  have hvalid : (⟨text.toUTF8.data⟩ : ByteArray).IsValidUTF8 := text.isValidUTF8
  rw [Bytes.text?, Bytes.ofText, String.fromUTF8?, dif_pos hvalid]
  rfl

/-- A text is read from a file that holds its bytes. -/
theorem completes_readText_of_read {w : FileWorld} {path text : String}
    (h : w.tree.read w.workingFolder path = .ok (.ofText text)) :
    Completes (ofAction .file (FileSystem.readText path)) w text w := by
  refine completes_readText.mpr ⟨?_, rfl⟩
  rw [h]
  exact text?_ofText text

/-- A folder of signature files after sets were written to it: the last set of each file stands
there, and besides that at most registries. -/
structure Stored (w : FileWorld) (folder : String) (l : Location) (sets : List SignatureSet) :
    Prop where
  /-- The folder has a location. -/
  locate_eq : w.tree.locate w.workingFolder folder = .ok l
  /-- If something is there, then it is a folder that can be entered. -/
  reaches : w.tree.node? l = some .folder → w.tree.Reaches w.workingFolder folder l
  /-- The folder is there if a set was written. -/
  isFolder : sets ≠ [] → w.tree.node? l = some .folder
  /-- No name is listed twice. -/
  nodup : (w.tree.childNames l).Nodup
  /-- The last set of a file is what it holds. -/
  written : ∀ name s, lastOf? sets name = some s → w.tree.node? (l ++ [name]) = some (fileOf s)
  /-- Nothing else stands there but registries. -/
  other : ∀ name n, lastOf? sets name = none → w.tree.node? (l ++ [name]) = some n →
    IsFileName name ∧ ∃ kept, n = .registry kept

/-- The names of the signature files in a folder, in order. -/
def listedNames (w : FileWorld) (l : Location) : List String :=
  ((w.tree.childNames l).filter isSignatureFileName).mergeSort fun a b => decide (a ≤ b)

/-- What is listed is what stands in the folder under the name of a signature file. -/
@[simp] theorem mem_listedNames {w : FileWorld} {l : Location} {name : String} :
    name ∈ listedNames w l ↔
      (w.tree.node? (l ++ [name])).isSome ∧ isSignatureFileName name = true := by
  rw [listedNames, List.mem_mergeSort, List.mem_filter, FileTree.mem_childNames]

namespace Stored

variable {w w' : FileWorld} {folder : String} {l : Location} {sets : List SignatureSet}
  (hfolder : w.workingFolder ≠ "") (h : Stored w folder l sets)

include h

/-- No signature file is listed twice. -/
theorem nodup_listedNames : (listedNames w l).Nodup :=
  (List.mergeSort_perm _ _).nodup_iff.mpr (h.nodup.filter _)

/-- What stands in the folder has a name of a file. -/
theorem isFileName {name : String} (hthere : (w.tree.node? (l ++ [name])).isSome) :
    IsFileName name := by
  obtain ⟨n, hn⟩ := Option.isSome_iff_exists.mp hthere
  cases hlast : lastOf? sets name with
  | none => exact (h.other name n hlast hn).1
  | some s =>
    rw [← (mem_of_lastOf? hlast).2]
    exact Folders.isFileName_signatureFileName s.structName

/-- What stands in the folder is no folder. -/
theorem node?_ne_folder (name : String) : w.tree.node? (l ++ [name]) ≠ some .folder := by
  intro hthere
  cases hlast : lastOf? sets name with
  | none =>
    obtain ⟨-, kept, hkept⟩ := h.other name _ hlast hthere
    cases hkept
  | some s =>
    rw [h.written name s hlast] at hthere
    cases hthere

include hfolder

/-- A name in the folder leads into it. -/
theorem locate_join (hl : w.tree.node? l = some .folder) {name : String}
    (hthere : (w.tree.node? (l ++ [name])).isSome) :
    w.tree.locate w.workingFolder (join folder name) = .ok (l ++ [name]) :=
  (h.reaches hl).locate_join hfolder (h.isFileName hthere)

/-- The signature files are listed. -/
theorem completes_signatureFiles (hl : w.tree.node? l = some .folder) {files : List String} :
    Completes (signatureFiles folder) w files w' ↔
      (listedNames w l).map (join folder) = files ∧ w = w' := by
  have hfind : w.tree.find w.workingFolder folder = .ok (l, .folder) := by
    rw [FileTree.find_eq h.locate_eq, hl]
    rfl
  have hkind : decide (kindAt? w folder = some .folder) = true := by
    rw [kindAt?, hfind]
    rfl
  have hnames : w.tree.names w.workingFolder folder = .ok (w.tree.childNames l) := by
    rw [FileTree.names, hfind]
    rfl
  have hfiles : ∀ path ∈ (listedNames w l).map (join folder),
      decide (kindAt? w path = some .file) = true := by
    intro path hpath
    obtain ⟨name, hname, rfl⟩ := List.mem_map.mp hpath
    have hthere := (mem_listedNames.mp hname).1
    obtain ⟨n, hn⟩ := Option.isSome_iff_exists.mp hthere
    rw [kindAt?, FileTree.find_eq (h.locate_join hfolder hl hthere), hn]
    cases n with
    | folder => exact absurd hn (h.node?_ne_folder name)
    | file bytes => rfl
    | registry kept => rfl
  rw [signatureFiles, completes_bind_of_reads fun _ _ => completes_isThere, hkind, if_pos rfl,
    completes_bind_of_reads fun names _ => ?_]
  · refine (completes_filterM fun _ _ _ _ => completes_isThere).trans ?_
    rw [← listedNames, List.filter_eq_self.mpr hfiles]
  · rw [completes_during, completes_names, hnames, Except.ok.injEq]

/-- A file that is there holds the last set that was written to it. -/
theorem setsAt?_join (hl : w.tree.node? l = some .folder) {name : String}
    (hthere : (w.tree.node? (l ++ [name])).isSome) :
    setsAt? w (join folder name) = (lastOf? sets name).map ([·]) := by
  obtain ⟨n, hn⟩ := Option.isSome_iff_exists.mp hthere
  rw [setsAt?, FileTree.read_eq (h.locate_join hfolder hl hthere) hn]
  cases hlast : lastOf? sets name with
  | none =>
    obtain ⟨-, kept, rfl⟩ := h.other name n hlast hn
    have hbytes : Bytes.text? FileTree.registryBytes = none := by decide
    simp [FileTree.contents, Except.toOption, hbytes]
  | some s =>
    obtain rfl : fileOf s = n := Option.some.inj ((h.written name s hlast).symm.trans hn)
    simp [FileTree.contents, fileOf, Except.toOption, SignatureFile.sets]

/-- Loading the folder gives the last set of each file, unless a registry is among them. -/
theorem completes_loadFolder (hl : w.tree.node? l = some .folder) {loaded : List SignatureSet} :
    Completes (loadFolder folder) w loaded w' ↔
      ((∀ name ∈ listedNames w l, (lastOf? sets name).isSome) ∧
        (listedNames w l).filterMap (lastOf? sets) = loaded) ∧ w = w' := by
  have hsets : ∀ name ∈ listedNames w l,
      setsAt? w (join folder name) = (lastOf? sets name).map ([·]) :=
    fun name hname => h.setsAt?_join hfolder hl (mem_listedNames.mp hname).1
  have hread : ∀ path ∈ (listedNames w l).map (join folder), ∀ loaded w',
      Completes (loadSignatures path) w loaded w' ↔ setsAt? w path = some loaded ∧ w = w' :=
    fun _ _ _ _ => completes_loadSignatures
  have hall : (∀ path ∈ (listedNames w l).map (join folder), (setsAt? w path).isSome) ↔
      ∀ name ∈ listedNames w l, (lastOf? sets name).isSome := by
    rw [List.forall_mem_map]
    refine forall₂_congr fun name hname => ?_
    rw [hsets name hname, Option.isSome_map]
  have hflat : (((listedNames w l).map (join folder)).filterMap (setsAt? w)).flatten =
      (listedNames w l).filterMap (lastOf? sets) := by
    have hsame : (listedNames w l).filterMap (setsAt? w ∘ join folder) =
        (listedNames w l).filterMap fun name => (lastOf? sets name).map ([·]) :=
      List.filterMap_congr hsets
    rw [List.filterMap_map, hsame, ← List.map_filterMap, ← List.flatMap_def,
      List.flatMap_singleton']
  rw [loadFolder, completes_bind_of_reads fun _ _ => h.completes_signatureFiles hfolder hl,
    completes_bind]
  constructor
  · rintro ⟨results, between, hresults, hloaded⟩
    obtain ⟨hfiles, rfl⟩ := (completes_mapM hread).mp hresults
    obtain ⟨rfl, rfl⟩ := completes_pure.mp hloaded
    obtain ⟨hsome, rfl⟩ := mapM_eq_some_iff.mp hfiles
    exact ⟨⟨hall.mp hsome, hflat.symm⟩, rfl⟩
  · rintro ⟨⟨hsome, rfl⟩, rfl⟩
    refine ⟨_, w, (completes_mapM hread).mpr ⟨?_, rfl⟩, completes_pure.mpr ⟨hflat, rfl⟩⟩
    exact mapM_eq_some_iff.mpr ⟨hall.mpr hsome, rfl⟩

omit hfolder in
/-- A folder that is not there has no files. -/
theorem completes_loadFolder_nil (hl : w.tree.node? l ≠ some .folder)
    {loaded : List SignatureSet} :
    Completes (loadFolder folder) w loaded w' ↔ loaded = [] ∧ w = w' := by
  have hkind : decide (kindAt? w folder = some .folder) = false := by
    rw [kindAt?, FileTree.find_eq h.locate_eq, decide_eq_false_iff_not]
    cases hn : w.tree.node? l with
    | none => simp [Except.toOption]
    | some n =>
      cases n with
      | folder => exact absurd hn hl
      | file bytes => simp [Except.toOption]
      | registry kept => simp [Except.toOption]
  have hfiles : ∀ files w', Completes (signatureFiles folder) w files w' ↔
      [] = files ∧ w = w' := by
    intro files w'
    rw [signatureFiles, completes_bind_of_reads fun _ _ => completes_isThere, hkind,
      if_neg Bool.false_ne_true, completes_pure]
  rw [loadFolder, completes_bind_of_reads hfiles, List.mapM_nil,
    completes_bind_of_reads fun _ _ => completes_pure, completes_pure]
  exact and_congr_left fun _ => eq_comm

end Stored

end LayoutWatch.Command
