import LayoutWatch.Command.Setup
import LayoutWatch.Proofs.Codec.Settings
import LayoutWatch.Proofs.Command.Effects
import LayoutWatch.Proofs.Command.SignatureFolder
import LayoutWatch.Proofs.Files.Location
import LayoutWatch.Proofs.Files.RelativePath

/-!
# The registry of a new project is found again

A new project gets a registry, and settings that name it. Seen from the root, the name leads to the
registry however the root is spelled. So whoever enters the project afterwards opens the registry
that was made for it, and finds everything as it was left. This is so although the root can be
spelled differently by then: a folder that was not there yet is known by the path that was given for
it, and one that is there by the path of its location.
-/

namespace LayoutWatch.Project

/-- A registry that was brought up to the current form is in it already. -/
theorem Registry.migrate_of_migrate {r current : Registry} (h : r.migrate = .ok current) :
    current.migrate = .ok current := by
  rw [migrate] at h
  split at h
  · cases h
  · cases h
    rfl

/-- From every root, the name of the registry in the settings leads to the registry. -/
theorem Folders.resolve_registryName (f : Folders) : f.resolve registryName = f.registry :=
  f.registry_eq_join.symm

end LayoutWatch.Project

namespace LayoutWatch.Command

open Project LayoutWatch.Path Work

variable {w w' : FileWorld} {f g : Folders} {path root : String} {registry : Registry}

/-! ## One root with two paths -/

/-- The roots of the folders are one folder. -/
def SameRoot (w : FileWorld) (f g : Folders) : Prop :=
  ∃ l, w.tree.Reaches w.workingFolder f.root l ∧ w.tree.Reaches w.workingFolder g.root l

/-- The registry is kept at one place in both. -/
theorem SameRoot.registryLocation_eq (h : SameRoot w f g) (hfolder : w.workingFolder ≠ "") :
    w.tree.registryLocation w.workingFolder g.registry =
      w.tree.registryLocation w.workingFolder f.registry := by
  obtain ⟨l, hf, hg⟩ := h
  have hlocation := fun {base} (hbase : w.tree.Reaches w.workingFolder base l) =>
    hbase.registryLocation_join_join hfolder isFileName_metaDir isFileName_registry
  exact (hlocation hg).trans (hlocation hf).symm

/-- The settings stand at one place in both. -/
theorem SameRoot.locate_settings {place : Location} (h : SameRoot w f g)
    (hfolder : w.workingFolder ≠ "")
    (hplace : w.tree.locate w.workingFolder f.settings = .ok place) :
    w.tree.locate w.workingFolder g.settings = .ok place := by
  obtain ⟨l, hf, hg⟩ := h
  obtain ⟨l', hl', hmeta, rfl⟩ := exists_reaches_of_locate_settings hfolder hplace
  obtain rfl : l' = l := Except.ok.inj (hl'.follow_eq.symm.trans hf.follow_eq)
  exact (hg.join hfolder isFileName_metaDir hmeta).locate_join hfolder isFileName_settings

/-- The root of a project that is not the working folder is known by its location where something
stands, and else by the path that was given. -/
theorem root_foldersIn (w : FileWorld) (root : String) :
    (foldersIn w root).root =
      if steps root = [.here] then w.workingFolder
      else ((w.tree.find w.workingFolder root).toOption.map fun found =>
        FileTree.pathOf found.1).getD (join w.workingFolder root) := by
  have hrun : (foldersIn w root).root = ((rootOf root : StateM FileWorld String).run w).1 := rfl
  rw [hrun, rootOf, run_bind]
  split <;> rfl

/-- While folders stay, a root that leads to a folder by the path that it was known by goes on
leading there by the path that it is known by then. -/
theorem reaches_foldersIn {l : Location} (habsolute : isAbsolute w.workingFolder = true)
    (hworking : w'.workingFolder = w.workingFolder)
    (hstay : FileTree.FoldersStay w.tree w'.tree)
    (h : w'.tree.Reaches w'.workingFolder (foldersIn w root).root l) :
    w'.tree.Reaches w'.workingFolder (foldersIn w' root).root l := by
  rw [root_foldersIn] at h ⊢
  rw [hworking] at h ⊢
  by_cases hhere : steps root = [.here]
  · rwa [if_pos hhere] at h ⊢
  rw [if_neg hhere] at h ⊢
  cases hfind : w.tree.find w.workingFolder root with
  | ok found =>
    -- The root was there already, and is known by its location before and after.
    obtain ⟨place, n⟩ := found
    rw [hfind] at h
    have hplace := FileTree.locate_of_find hfind
    obtain rfl : l = place := h.eq_of_pathOf (FileTree.isFileName_of_locate hplace)
    rw [FileTree.find_eq (FileTree.locate_mono hstay hplace), h.isFolder]
    exact h
  | error fault =>
    rw [hfind] at h
    by_cases hroot : root = ""
    · subst hroot
      exact h
    · -- The root was made, and is known by its location from now on.
      have hreaches : w'.tree.Reaches w.workingFolder root l := by
        refine ⟨?_, h.isFolder⟩
        rw [← FileTree.segmentsFrom_join_self habsolute root]
        exact h.follow_eq
      rw [FileTree.find_eq (hreaches.locate_eq hroot), hreaches.isFolder]
      exact hreaches.pathOf

/-! ## Setting up -/

/-- Making folders one after the other does not change the working folder, and no folder is lost. -/
theorem foldersStay_of_makeFolders {folders : List (String × String)} {done : PUnit}
    (h : Completes (forIn folders PUnit.unit fun (label, folder) _ => do
      makeFolder (.createProjectFolder label folder) folder
      pure (ForInStep.yield PUnit.unit)) w done w') :
    w'.workingFolder = w.workingFolder ∧ FileTree.FoldersStay w.tree w'.tree := by
  induction folders generalizing w with
  | nil =>
    obtain ⟨-, rfl⟩ := completes_pure.mp h
    exact ⟨rfl, fun _ hp => hp⟩
  | cons folder folders ih =>
    rw [List.forIn_cons] at h
    obtain ⟨step, between, hstep, hrest⟩ := completes_bind.mp h
    obtain ⟨⟨⟩, made, hmake, hyield⟩ := completes_bind.mp hstep
    obtain ⟨rfl, rfl⟩ := completes_pure.mp hyield
    obtain ⟨tree, hfolders, rfl⟩ := completes_makeFolder.mp hmake
    have hadds := FileTree.onlyAddsFolders_makeFolders w.tree w.workingFolder folder.2
    rw [hfolders] at hadds
    obtain ⟨hsame, hstay⟩ := ih hrest
    exact ⟨hsame, fun p hp => hstay p (hadds.foldersStay p hp)⟩

/-- The settings and the registry of a project are kept at different places. -/
theorem ne_of_registryLocation {place l : Location} (hfolder : w.workingFolder ≠ "")
    (hplace : w.tree.locate w.workingFolder f.settings = .ok place)
    (hl : w.tree.registryLocation w.workingFolder f.registry = some l) : place ≠ l := by
  have hlocation := FileTree.eq_foldl_of_follow (FileTree.follow_of_registryLocation hl)
  rw [FileTree.straighten_eq_foldl, Folders.registry,
    FileTree.segmentsFrom_join hfolder isFileName_registry.isName, List.foldl_concat,
    FileTree.advance_name isFileName_registry, List.foldl_concat,
    FileTree.advance_name isFileName_registry] at hlocation
  obtain ⟨m, -, -, rfl⟩ := exists_reaches_of_locate_settings hfolder hplace
  rintro rfl
  have hlast := congrArg List.getLast? hlocation
  rw [List.getLast?_concat, List.getLast?_concat] at hlast
  exact absurd hlast (by decide)

/-- A project is set up in its folders: its settings are loaded and its registry is opened, and
neither changes a file. -/
structure SetUp (w : FileWorld) (f : Folders) (s : Settings) (registry : Registry) : Prop where
  /-- The settings are loaded. -/
  load : Completes (loadSettings f) w s w
  /-- The registry is opened. -/
  openRegistry :
    Completes (ofAction .registry (FileSystem.openRegistry f.registry)) w registry w

/-- A project whose settings were saved and whose registry was opened then is set up. -/
theorem setUp_of_openRegistry {between : FileWorld} {s : Settings} (hfolder : w.workingFolder ≠ "")
    (hsave : Completes (saveSettings f s) w () between)
    (hopen : Completes (ofAction .registry (FileSystem.openRegistry f.registry)) between registry
      w') : SetUp w' f s registry := by
  obtain ⟨place, hwritten⟩ := exists_written_of_saveSettings hsave
  obtain ⟨stored, l, -, hmigrate, hl, rfl⟩ := exists_put_of_openRegistry hopen
  rw [← hwritten.workingFolder_eq] at hfolder
  refine ⟨?_, ?_⟩
  · have happart := ne_of_registryLocation hfolder hwritten.locate_eq hl.location_eq
    have hlocate := FileTree.locate_mono (hl.foldersStay registry) hwritten.locate_eq
    have hnode := (hl.node?_eq_of_ne registry happart).trans hwritten.node?_eq
    have htext := completes_readText_of_read
      (w := { between with tree := between.tree.put l (.registry registry) })
      (FileTree.read_eq hlocate hnode)
    refine completes_bind.mpr ⟨s.fileText, _, completes_during.mpr htext, ?_⟩
    exact completes_during.mpr (completes_ofOption.mpr ⟨s.parse?_fileText, rfl⟩)
  · refine completes_openRegistry.mpr ⟨registry, between.tree.put l (.registry registry),
      hl.readRegistry_put registry, Registry.migrate_of_migrate hmigrate, ?_, rfl⟩
    rw [FileTree.writeRegistry, hl.location_put]
    exact congrArg Except.ok (FileTree.put_put _ _ _ _)

/-- A new project has its settings saved and then its registry opened. -/
theorem exists_saved_of_initProject {name : Option String} {report : Report}
    (h : Completes (initProject root name) w report w') :
    ∃ s before between registry, s.registry = (foldersIn w root).registryInSettings ∧
      before.workingFolder = w.workingFolder ∧ FileTree.FoldersStay w.tree before.tree ∧
      Completes (saveSettings (foldersIn w root) s) before () between ∧
      Completes (ofAction .registry (FileSystem.openRegistry (foldersIn w root).registry)) between
        registry w' := by
  unfold initProject at h
  obtain ⟨f, start, hask, h⟩ := completes_bind.mp h
  obtain ⟨rfl, rfl⟩ := completes_foldersOf.mp hask
  obtain ⟨done, before, hfolders, h⟩ := completes_bind.mp h
  obtain ⟨⟨⟩, between, hsave, h⟩ := completes_bind.mp h
  obtain ⟨registry, last, hopen, hreport⟩ := completes_bind.mp h
  obtain ⟨-, rfl⟩ := completes_pure.mp hreport
  obtain ⟨hworking, hstay⟩ := foldersStay_of_makeFolders hfolders
  have hname : ∀ name registry, (Settings.new name registry).registry = registry := fun _ _ => rfl
  exact ⟨_, before, between, registry, hname _ _, hworking, hstay, hsave,
    completes_during.mp hopen⟩

/-- A new project is set up, and names its registry. No folder was lost by that. -/
theorem setUp_of_initProject {name : Option String} {report : Report}
    (hfolder : w.workingFolder ≠ "") (h : Completes (initProject root name) w report w') :
    ∃ s registry, s.registry = (foldersIn w root).registryInSettings ∧
      SetUp w' (foldersIn w root) s registry ∧ w'.workingFolder = w.workingFolder ∧
      FileTree.FoldersStay w.tree w'.tree := by
  obtain ⟨s, before, between, registry, hname, hworking, hstay, hsave, hopen⟩ :=
    exists_saved_of_initProject h
  rw [← hworking] at hfolder
  refine ⟨s, registry, hname, setUp_of_openRegistry hfolder hsave hopen, ?_⟩
  obtain ⟨place, hwritten⟩ := exists_written_of_saveSettings hsave
  obtain ⟨stored, l, -, -, hl, rfl⟩ := exists_put_of_openRegistry hopen
  refine ⟨hwritten.workingFolder_eq.trans hworking, fun p hp => ?_⟩
  exact hl.foldersStay registry p (hwritten.foldersStay p (hstay p hp))

namespace SetUp

variable {s : Settings}

/-- The root is a folder. -/
theorem exists_reaches (h : SetUp w f s registry) (hfolder : w.workingFolder ≠ "") :
    ∃ l, w.tree.Reaches w.workingFolder f.root l :=
  exists_reaches_of_loadSettings hfolder h.load

/-- The registry is read as it is opened. -/
theorem readRegistry_eq (h : SetUp w f s registry) :
    w.tree.readRegistry w.workingFolder f.registry = .ok registry := by
  obtain ⟨stored, l, -, -, hl, hput⟩ := exists_put_of_openRegistry h.openRegistry
  rw [hput]
  exact hl.readRegistry_put registry

/-- A project is set up by whatever path its root is known. -/
theorem of_sameRoot (h : SetUp w f s registry) (hsame : SameRoot w f g)
    (hfolder : w.workingFolder ≠ "") : SetUp w g s registry := by
  refine ⟨?_, ?_⟩
  · obtain ⟨text, between, htext, hparse⟩ := completes_bind.mp h.load
    obtain ⟨place, hplace⟩ := exists_locate_of_readText (completes_during.mp htext)
    obtain ⟨hread, rfl⟩ := completes_readText.mp (completes_during.mp htext)
    have hagain := hsame.locate_settings hfolder hplace
    rw [FileTree.read, FileTree.find, hplace, ← hagain, ← FileTree.find, ← FileTree.read] at hread
    exact completes_bind.mpr ⟨text, w, completes_during.mpr (completes_readText.mpr ⟨hread, rfl⟩),
      hparse⟩
  · obtain ⟨stored, tree, hstored, hmigrate, hwritten, hlast⟩ :=
      completes_openRegistry.mp h.openRegistry
    have hlocation := hsame.registryLocation_eq hfolder
    rw [FileTree.readRegistry, ← hlocation, ← FileTree.readRegistry] at hstored
    rw [FileTree.writeRegistry, ← hlocation, ← FileTree.writeRegistry] at hwritten
    exact completes_openRegistry.mpr ⟨stored, tree, hstored, hmigrate, hwritten, hlast⟩

/-- A project that is set up and names its registry is entered, which changes no file. -/
theorem completes_enter (h : SetUp w f s registry) (hroot : foldersIn w root = f)
    (hname : f.resolve s.registry = f.registry) :
    Completes (Workspace.enter root) w ⟨f, s, f.registry, registry⟩ w := by
  refine completes_bind.mpr ⟨f, w, completes_foldersOf.mpr ⟨hroot, rfl⟩, ?_⟩
  refine completes_bind.mpr ⟨s, w, h.load, ?_⟩
  rw [hname]
  refine completes_bind.mpr ⟨registry, w, completes_during.mpr h.openRegistry, ?_⟩
  exact completes_pure.mpr ⟨rfl, rfl⟩

end SetUp

/-! ## The registry is found -/

/-- The settings of a new project name its registry by a path that leads there from every spelling
of the root. So each path to the root enters the project, which opens the registry that was made and
changes no file. -/
theorem newRegistry_isFound :
    (∀ f : Folders, isAbsolute f.registryInSettings = false ∧
      f.resolve f.registryInSettings = f.registry) ∧
    ∀ w w' root name report, isAbsolute w.workingFolder = true →
      Completes (initProject root name) w report w' →
        SameRoot w' (foldersIn w root) (foldersIn w' root) ∧
        ∀ later, SameRoot w' (foldersIn w root) (foldersIn w' later) →
          ∃ workspace, Completes (Workspace.enter later) w' workspace w' ∧
            workspace.settings.registry = (foldersIn w root).registryInSettings ∧
            workspace.registryPath = workspace.folders.registry ∧
            w'.tree.registryLocation w'.workingFolder workspace.registryPath =
              w'.tree.registryLocation w'.workingFolder (foldersIn w root).registry ∧
            w'.tree.readRegistry w'.workingFolder (foldersIn w root).registry =
              .ok workspace.registry := by
  refine ⟨fun f => ?_, fun w w' root name report habsolute hinit => ?_⟩
  · rw [Folders.registryInSettings_eq, Folders.resolve_registryName]
    exact ⟨by decide, rfl⟩
  have hfolder : w.workingFolder ≠ "" := fun hempty => absurd (hempty ▸ habsolute) (by decide)
  obtain ⟨s, registry, hname, hsetUp, hworking, hstay⟩ := setUp_of_initProject hfolder hinit
  rw [← hworking] at hfolder
  refine ⟨?_, fun later hlater => ?_⟩
  · obtain ⟨l, hl⟩ := hsetUp.exists_reaches hfolder
    exact ⟨l, hl, reaches_foldersIn habsolute hworking hstay hl⟩
  · have hregistry : (foldersIn w' later).resolve s.registry = (foldersIn w' later).registry := by
      rw [hname, Folders.registryInSettings_eq, Folders.resolve_registryName]
    have henter := (hsetUp.of_sameRoot hlater hfolder).completes_enter rfl hregistry
    have hlocation := hlater.registryLocation_eq hfolder
    refine ⟨_, henter, ?_⟩
    dsimp only
    exact ⟨hname, rfl, hlocation, hsetUp.readRegistry_eq⟩

/-- One folder, in which one works. -/
def oneFolder : FileWorld := ⟨FileTree.empty.put ["w"] .folder, "/w", ""⟩

/-- A project is set up in a new folder, whose path has a dot and too many slashes in it. -/
def roundaboutInit : Work (StateM FileWorld) Report := initProject "new/.//" none

/-- Such a project can be set up, and is entered by the path that was given. -/
theorem newRegistry_isFound_roundabout : ∃ report w',
    Completes roundaboutInit oneFolder report w' ∧
      SameRoot w' (foldersIn oneFolder "new/.//") (foldersIn w' "new/.//") ∧
      ∃ workspace, Completes (Workspace.enter "new/.//") w' workspace w' ∧
        w'.tree.readRegistry w'.workingFolder (foldersIn oneFolder "new/.//").registry =
          .ok workspace.registry := by
  have hrun : ((roundaboutInit.run.run oneFolder).1.toOption.map fun _ => true) = some true := by
    decide +kernel
  obtain ⟨report, hinit, -⟩ := exists_completes hrun
  obtain ⟨hsame, hfound⟩ := newRegistry_isFound.2 _ _ _ _ _ (by decide) hinit
  obtain ⟨workspace, henter, -, -, -, hregistry⟩ := hfound _ hsame
  exact ⟨report, _, hinit, hsame, workspace, henter, hregistry⟩

end LayoutWatch.Command
