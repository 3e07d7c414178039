import LayoutWatch.Proofs.Command.SignatureFolder
import LayoutWatch.Proofs.SelfScan
import Mathlib.Data.List.Perm.Basic

/-!
# Signature files of a project

An extraction writes one file for each set of signatures. The name of the file is the name of the
struct with harmless characters only, so two structs can share a file, and the file of a struct
without a name has no extension. Loading all signature files of the project brings every set back
exactly where neither happens and no registry is kept among the files.
-/

namespace LayoutWatch.Command

open Project LayoutWatch.Path Work

/-! ## Which sets are kept -/

section Keeping

variable {sets : List SignatureSet} {names : List String}

/-- The last set of a file is written to it. -/
theorem map_fileNameOf_filterMap (h : ∀ name ∈ names, (lastOf? sets name).isSome) :
    (names.filterMap (lastOf? sets)).map fileNameOf = names := by
  induction names with
  | nil => rfl
  | cons name names ih =>
    obtain ⟨hname, hnames⟩ := List.forall_mem_cons.mp h
    obtain ⟨s, hs⟩ := Option.isSome_iff_exists.mp hname
    rw [List.filterMap_cons_some hs, List.map_cons, ih hnames, (mem_of_lastOf? hs).2]

/-- Where no two sets share a file, each is the last one of its file. -/
theorem lastOf?_fileNameOf (hsets : (sets.map fileNameOf).Nodup) {s : SignatureSet}
    (h : s ∈ sets) : lastOf? sets (fileNameOf s) = some s := by
  obtain ⟨last, hlast⟩ := exists_lastOf? h
  obtain ⟨hmem, hname⟩ := mem_of_lastOf? hlast
  rw [hlast, List.inj_on_of_nodup_map hsets hmem h hname]

/-- The last sets of files are all sets exactly where each set is written to one of them, and no
two sets to the same. -/
theorem filterMap_lastOf?_perm_iff (hnames : names.Nodup)
    (h : ∀ name ∈ names, (lastOf? sets name).isSome) :
    (names.filterMap (lastOf? sets)).Perm sets ↔
      (∀ s ∈ sets, fileNameOf s ∈ names) ∧ (sets.map fileNameOf).Nodup := by
  have hmap := map_fileNameOf_filterMap h
  constructor
  · intro hperm
    have hfiles : names.Perm (sets.map fileNameOf) := hmap ▸ hperm.map fileNameOf
    exact ⟨fun s hs => hfiles.mem_iff.mpr (List.mem_map_of_mem hs), hfiles.nodup_iff.mp hnames⟩
  · rintro ⟨hlisted, hsets⟩
    have hkept : (names.filterMap (lastOf? sets)).Nodup :=
      List.Nodup.of_map fileNameOf (hmap.symm ▸ hnames)
    refine (List.perm_ext_iff_of_nodup hkept (hsets.of_map _)).mpr fun s => ?_
    rw [List.mem_filterMap]
    constructor
    · rintro ⟨name, -, hs⟩
      exact (mem_of_lastOf? hs).1
    · intro hs
      exact ⟨fileNameOf s, hlisted s hs, lastOf?_fileNameOf hsets hs⟩

/-- The file of a set is taken for a signature file unless its struct has no name. -/
theorem isSignatureFileName_fileNameOf {s : SignatureSet} :
    isSignatureFileName (fileNameOf s) = true ↔ s.structName ≠ "" := by
  rw [isSignatureFileName, fileNameOf, Folders.extension?_signatureFileName, beq_iff_eq]
  split
  · next hname => simp [hname]
  · next hname => simp [hname]

/-- Two sets share a file exactly where their structs share a plain name. -/
theorem nodup_map_fileNameOf_iff :
    (sets.map fileNameOf).Nodup ↔ (sets.map fun s => Folders.plainName s.structName).Nodup := by
  have hfiles : sets.map fileNameOf =
      (sets.map fun s => Folders.plainName s.structName).map (· ++ ".json") := by
    rw [List.map_map]
    rfl
  have hinj : Function.Injective (· ++ ".json") := fun _ _ => String.append_left_inj _ |>.mp
  rw [hfiles, List.nodup_map_iff hinj]

/-- No registry is kept in a folder under the name of a signature file. -/
def RegistryApart (w : FileWorld) (folder : String) : Prop :=
  ∀ l name kept, w.tree.find w.workingFolder folder = .ok (l, .folder) →
    w.tree.node? (l ++ [name]) = some (.registry kept) → isSignatureFileName name = false

variable {w w' : FileWorld} {folder : String} {l : Location}

/-- The names under which registries are kept, anywhere. -/
def registryNames (t : FileTree) : List String :=
  t.nodes.filterMap fun
    | (l, .registry _) => l.getLast?
    | _ => none

/-- A registry stands apart if it has another name than a signature file. -/
theorem registryApart_of_names
    (h : ∀ name ∈ registryNames w.tree, isSignatureFileName name = false) :
    RegistryApart w folder := by
  intro l name kept _ hkept
  rw [FileTree.node?_eq_lookup (by simp), List.lookup_eq_some_iff] at hkept
  obtain ⟨front, behind, hnodes, -⟩ := hkept
  refine h name (List.mem_filterMap.mpr ⟨(l ++ [name], .registry kept), ?_, ?_⟩)
  · rw [hnodes]
    exact List.mem_append_right _ List.mem_cons_self
  · exact List.getLast?_concat

/-- A folder of signature files is as it was found. -/
theorem Stored.find_eq_iff (h : Stored w folder l sets) {l' : Location} {n : FileNode} :
    w.tree.find w.workingFolder folder = .ok (l', n) ↔ l' = l ∧ w.tree.node? l = some n := by
  rw [FileTree.find_eq h.locate_eq]
  cases w.tree.node? l with
  | none => simp
  | some stands => simp [eq_comm]

/-- A registry stands apart exactly where every listed file is one that a set was written to. -/
theorem Stored.registryApart_iff (h : Stored w folder l sets)
    (hl : w.tree.node? l = some .folder) :
    RegistryApart w folder ↔ ∀ name ∈ listedNames w l, (lastOf? sets name).isSome := by
  constructor
  · intro hapart name hname
    obtain ⟨hthere, hlisted⟩ := mem_listedNames.mp hname
    obtain ⟨n, hn⟩ := Option.isSome_iff_exists.mp hthere
    cases hlast : lastOf? sets name with
    | some s => rfl
    | none =>
      obtain ⟨-, kept, rfl⟩ := h.other name n hlast hn
      rw [hapart l name kept (h.find_eq_iff.mpr ⟨rfl, hl⟩) hn] at hlisted
      cases hlisted
  · intro hall l' name kept hfind hkept
    obtain ⟨rfl, -⟩ := h.find_eq_iff.mp hfind
    by_contra hlisted
    have hname : name ∈ listedNames w l' :=
      mem_listedNames.mpr ⟨hkept ▸ rfl, Bool.not_eq_false _ ▸ hlisted⟩
    obtain ⟨s, hs⟩ := Option.isSome_iff_exists.mp (hall name hname)
    rw [h.written name s hs] at hkept
    cases hkept

/-- All sets that were written are loaded, each once, exactly where every struct has a name, no two
structs share a plain name, and no registry is kept among the files. -/
theorem Stored.loadsAll_iff (h : Stored w folder l sets) (hfolder : w.workingFolder ≠ "") :
    (∃ loaded, Completes (loadFolder folder) w loaded w ∧ loaded.Perm sets) ↔
      (∀ s ∈ sets, s.structName ≠ "") ∧
        (sets.map fun s => Folders.plainName s.structName).Nodup ∧ RegistryApart w folder := by
  rw [← nodup_map_fileNameOf_iff]
  by_cases hl : w.tree.node? l = some .folder
  · have hlisted : ∀ s ∈ sets, fileNameOf s ∈ listedNames w l ↔ s.structName ≠ "" := by
      intro s hs
      obtain ⟨last, hlast⟩ := exists_lastOf? hs
      rw [mem_listedNames, h.written _ _ hlast, isSignatureFileName_fileNameOf]
      exact and_iff_right rfl
    rw [h.registryApart_iff hl]
    constructor
    · rintro ⟨loaded, hloaded, hperm⟩
      obtain ⟨⟨hall, rfl⟩, -⟩ := (h.completes_loadFolder hfolder hl).mp hloaded
      obtain ⟨hfiles, hdistinct⟩ := (filterMap_lastOf?_perm_iff h.nodup_listedNames hall).mp hperm
      exact ⟨fun s hs => (hlisted s hs).mp (hfiles s hs), hdistinct, hall⟩
    · rintro ⟨hnamed, hdistinct, hall⟩
      refine ⟨_, (h.completes_loadFolder hfolder hl).mpr ⟨⟨hall, rfl⟩, rfl⟩, ?_⟩
      exact (filterMap_lastOf?_perm_iff h.nodup_listedNames hall).mpr
        ⟨fun s hs => (hlisted s hs).mpr (hnamed s hs), hdistinct⟩
  · -- No set was written at all.
    obtain rfl : sets = [] := by
      by_contra hsets
      exact hl (h.isFolder hsets)
    refine iff_of_true ⟨[], (h.completes_loadFolder_nil hl).mpr ⟨rfl, rfl⟩, List.Perm.nil⟩ ?_
    refine ⟨fun s hs => absurd hs List.not_mem_nil, List.nodup_nil, ?_⟩
    intro l' name kept hfind
    exact absurd (h.find_eq_iff.mp hfind).2 hl

end Keeping

/-! ## Extracting -/

section Extracting

variable {w w' : FileWorld} {r : ExtractRequest} {report : ExtractionReport}
  (hfolder : w.workingFolder ≠ "") (hout : r.out = none)
  (h : Completes (extractToFiles r) w report w')

include hfolder hout h

/-- An extraction enters the project and then writes all sets to their files. -/
theorem exists_entered_of_extractToFiles :
    ∃ entered, Entered w entered (foldersIn w r.root) ∧
      Completes (writeEachSet (foldersIn w r.root) report.extraction.sets) entered
        report.written w' := by
  obtain ⟨workspace, entered, henter, h⟩ := completes_bind.mp h
  obtain ⟨hfolders, hentered⟩ := entered_of_completes hfolder henter
  obtain ⟨⟨name, path⟩, between, hbinary, h⟩ := completes_bind.mp h
  obtain rfl := (keepsFiles_locateBinary _ _).eq_of_completes hbinary
  obtain ⟨layout, between, hlayout, h⟩ := completes_bind.mp h
  obtain rfl := (keepsFiles_loadLayout _).eq_of_completes hlayout
  obtain ⟨binary, between, hload, h⟩ := completes_bind.mp h
  obtain rfl := (keepsFiles_loadBinary _).eq_of_completes hload
  obtain ⟨extraction, between, hextract, h⟩ := completes_bind.mp h
  obtain rfl := (((keepsFiles_ask _).bind fun _ =>
    keepsFiles_ofResult _ _).during _).eq_of_completes hextract
  rw [hout, hfolders] at h
  obtain ⟨written, last, hwrite, h⟩ := completes_bind.mp h
  obtain ⟨rfl, rfl⟩ := completes_pure.mp h
  exact ⟨entered, hentered, hwrite⟩

/-- After an extraction to an empty folder, the files of all sets are stored there. -/
theorem exists_stored_of_extractToFiles
    (hempty : ∀ l, w.tree.locate w.workingFolder (foldersIn w r.root).signatures = .ok l →
      ∀ name, w.tree.node? (l ++ [name]) = none) :
    w'.workingFolder = w.workingFolder ∧
      ∃ l, Stored w' (foldersIn w r.root).signatures l report.extraction.sets := by
  obtain ⟨_, ⟨⟨root, hroot⟩, place, kept, hne, hfree, hnames, rfl⟩, hwrite⟩ :=
    exists_entered_of_extractToFiles hfolder hout h
  have hfresh := hempty _ (hroot.locate_join hfolder isFileName_signatures)
  -- The registry takes the place of no folder, so the root is still one.
  have hentered : (w.tree.put place (.registry kept)).Reaches w.workingFolder
      (foldersIn w r.root).root root := by
    refine hroot.mono fun p hp => ?_
    rwa [FileTree.node?_put hne, if_neg]
    rintro rfl
    exact hfree hp
  obtain ⟨hthere, hwrote⟩ := wrote_of_writeEachSet
    (w := ⟨w.tree.put place (.registry kept), w.workingFolder, w.now⟩) hfolder hentered hwrite
  have hreaches := hentered.mono hwrote.isFolder
  refine ⟨hwrote.workingFolder_eq, root ++ ["signatures"], ?_, ?_, hthere, ?_, ?_, ?_⟩
  · rw [hwrote.workingFolder_eq]
    exact hreaches.locate_join hfolder isFileName_signatures
  · rw [hwrote.workingFolder_eq]
    exact hreaches.join hfolder isFileName_signatures
  · have hnone : w.tree.childNames (root ++ ["signatures"]) = [] := by
      refine List.eq_nil_iff_forall_not_mem.mpr fun name => ?_
      rw [FileTree.mem_childNames, hfresh name]
      exact Bool.false_ne_true
    refine hwrote.nodup (FileTree.nodup_childNames_put ?_ _ _)
    rw [hnone]
    exact List.nodup_nil
  · intro name s hlast
    rw [hwrote.node?_eq, hlast]
    rfl
  · intro name n hlast hn
    rw [hwrote.node?_eq, hlast, Option.map_none, Option.none_or, FileTree.node?_put hne,
      hfresh name] at hn
    split at hn
    · next hplace =>
      cases hn
      refine ⟨hnames name ?_, kept, rfl⟩
      rw [← hplace]
      exact List.mem_append_right _ List.mem_cons_self
    · cases hn

end Extracting

/-- All sets of an extraction to an empty folder are loaded from there again, each once, exactly
where every struct has a name, no two structs share a plain name, and no registry is kept among
the files. -/
theorem extractToFiles_loadsAll_iff {w w' : FileWorld} {r : ExtractRequest}
    {report : ExtractionReport} (hfolder : w.workingFolder ≠ "") (hout : r.out = none)
    (hempty : ∀ l, w.tree.locate w.workingFolder (foldersIn w r.root).signatures = .ok l →
      ∀ name, w.tree.node? (l ++ [name]) = none)
    (h : Completes (extractToFiles r) w report w') :
    (∃ loaded, Completes (loadFolder (foldersIn w r.root).signatures) w' loaded w' ∧
        loaded.Perm report.extraction.sets) ↔
      (∀ s ∈ report.extraction.sets, s.structName ≠ "") ∧
        (report.extraction.sets.map fun s => Folders.plainName s.structName).Nodup ∧
        RegistryApart w' (foldersIn w r.root).signatures := by
  obtain ⟨hsame, l, hstored⟩ := exists_stored_of_extractToFiles hfolder hout h hempty
  exact hstored.loadsAll_iff (hsame ▸ hfolder)

/-! ## A project with two structs -/

/-- The text of a layout of two structs, each with a field at offset 16. -/
def pairLayout (first second : String) : String :=
  "\x7b\"version\":\"1\",\"structs\":["
    ++ "\x7b\"name\":\"" ++ first ++ "\",\"fields\":[\x7b\"offset\":16\x7d]\x7d,"
    ++ "\x7b\"name\":\"" ++ second ++ "\",\"fields\":[\x7b\"offset\":16\x7d]\x7d]\x7d"

/-- The text of the settings of a project. -/
def pairSettings : String :=
  "\x7b\"name\":\"p\",\"config_version\":\"1\",\"db\":\x7b\"path\":\".drift/project.db\"\x7d\x7d"

/-- A project with such a layout and a binary that loads from offset 16, without signatures. -/
def pairProject (first second : String) : FileWorld where
  tree := ⟨[
    (["p"], .folder),
    (["p", ".drift"], .folder),
    (["p", ".drift", "project.json"], .file (.ofText pairSettings)),
    (["p", "layout.json"], .file (.ofText (pairLayout first second))),
    (["p", "loner.exe"], .file Binary.loner.bytes)]⟩
  workingFolder := "/"
  now := ""

/-- The signatures of the layout are extracted from the binary to their files. -/
def pairRequest : ExtractRequest where
  root := "/p"
  binary := "loner.exe"
  layout := "layout.json"
  out := none
  minConfidence := none
  maxOccurrences := none
  contextBytes := none
  noTypeNames := true
  binaryVersion := none
  json := false

/-- The extraction in such a project. -/
def pairExtraction : Work (StateM FileWorld) ExtractionReport := extractToFiles pairRequest

/-- The folder of signatures of the project. -/
def pairFolder (first second : String) : String :=
  (foldersIn (pairProject first second) pairRequest.root).signatures

/-- The names of the structs of an extraction. -/
def structNames (r : ExtractionReport) : List String := r.extraction.sets.map (·.structName)

/-- The plain names of the structs are made from their names. -/
theorem plainNames_eq {r : ExtractionReport} {names plain : List String}
    (hnames : structNames r = names) (hplain : names.map Folders.plainName = plain) :
    (r.extraction.sets.map fun s => Folders.plainName s.structName) = plain := by
  rw [← hplain, ← hnames, structNames, List.map_map]
  rfl

/-- The project has no signature files to begin with. -/
theorem pairProject_empty {first second : String}
    (hplace : ((pairProject first second).tree.locate "/" (pairFolder first second)).toOption =
      some ["p", "signatures"]) {l : Location}
    (h : (pairProject first second).tree.locate "/" (pairFolder first second) = .ok l)
    (name : String) : (pairProject first second).tree.node? (l ++ [name]) = none := by
  rw [h] at hplace
  cases hplace
  simp [pairProject, FileTree.node?, List.lookup_cons]

/-- Two structs with different plain names are both loaded. -/
theorem loadsAll_apart : ∃ report w',
    Completes pairExtraction (pairProject "Foo" "Bar") report w' ∧
      structNames report = ["Foo", "Bar"] ∧
      ∃ loaded, Completes (loadFolder (pairFolder "Foo" "Bar")) w' loaded w' ∧
        loaded.Perm report.extraction.sets := by
  have hplace : ((pairProject "Foo" "Bar").tree.locate "/"
      (pairFolder "Foo" "Bar")).toOption = some ["p", "signatures"] := by decide +kernel
  have houtcome : (pairExtraction.run.run (pairProject "Foo" "Bar")).1.toOption.map structNames =
      some ["Foo", "Bar"] := by decide +kernel
  have hregistry : registryNames (pairExtraction.run.run (pairProject "Foo" "Bar")).2.tree =
      ["project.db"] := by decide +kernel
  obtain ⟨report, h, hnames⟩ := exists_completes houtcome
  generalize (pairExtraction.run.run (pairProject "Foo" "Bar")).2 = w' at h hregistry
  have hplain : (report.extraction.sets.map fun s => Folders.plainName s.structName) =
      ["Foo", "Bar"] := plainNames_eq hnames (by decide)
  have hnamed : ∀ s ∈ report.extraction.sets, s.structName ≠ "" := by
    intro s hs
    have hname : s.structName ∈ ["Foo", "Bar"] := hnames ▸ List.mem_map_of_mem hs
    intro hempty
    rw [hempty] at hname
    exact absurd hname (by decide)
  have hapart : RegistryApart w' (pairFolder "Foo" "Bar") := by
    refine registryApart_of_names ?_
    rw [hregistry]
    decide
  refine ⟨report, w', h, hnames, ?_⟩
  refine (extractToFiles_loadsAll_iff (by decide) rfl (fun _ => pairProject_empty hplace) h).mpr ?_
  exact ⟨hnamed, hplain ▸ (by decide), hapart⟩

/-- Of two structs with the same plain name one is lost. -/
theorem not_loadsAll_alike : ∃ report w',
    pairRequest.out = none ∧
      (∀ l, (pairProject "a::b" "a__b").tree.locate "/" (pairFolder "a::b" "a__b") = .ok l →
        ∀ name, (pairProject "a::b" "a__b").tree.node? (l ++ [name]) = none) ∧
      Completes pairExtraction (pairProject "a::b" "a__b") report w' ∧
      structNames report = ["a::b", "a__b"] ∧
      ¬∃ loaded, Completes (loadFolder (pairFolder "a::b" "a__b")) w' loaded w' ∧
        loaded.Perm report.extraction.sets := by
  have hplace : ((pairProject "a::b" "a__b").tree.locate "/"
      (pairFolder "a::b" "a__b")).toOption = some ["p", "signatures"] := by decide +kernel
  have hempty := fun l => pairProject_empty (l := l) hplace
  have houtcome : (pairExtraction.run.run (pairProject "a::b" "a__b")).1.toOption.map structNames =
      some ["a::b", "a__b"] := by decide +kernel
  obtain ⟨report, h, hnames⟩ := exists_completes houtcome
  generalize (pairExtraction.run.run (pairProject "a::b" "a__b")).2 = w' at h
  have hplain : (report.extraction.sets.map fun s => Folders.plainName s.structName) =
      ["a__b", "a__b"] := plainNames_eq hnames (by decide)
  obtain ⟨hsame, l, hstored⟩ := exists_stored_of_extractToFiles (by decide) rfl h hempty
  have hfolder : w'.workingFolder ≠ "" := by
    rw [hsame]
    decide
  refine ⟨report, w', rfl, hempty, h, hnames, fun hloaded => ?_⟩
  have hdistinct := ((hstored.loadsAll_iff hfolder).mp hloaded).2.1
  rw [hplain] at hdistinct
  exact absurd hdistinct (by decide)

end LayoutWatch.Command
