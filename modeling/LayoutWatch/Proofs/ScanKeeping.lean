import LayoutWatch.Command.Scanning
import LayoutWatch.Proofs.Codec.Scan
import LayoutWatch.Proofs.Command.Effects
import LayoutWatch.Proofs.Command.SignatureFolder
import LayoutWatch.Proofs.Scan
import LayoutWatch.Proofs.SelfScan

/-!
# A scan is kept as a whole or not at all

A scan first examines the binary, and only then writes anything down. What is wrong with the binary
or with the signatures is found out by then, so a scan that is rejected leaves all files and all
rows of the registry as they were. A scan that comes to its end adds one row and writes one report,
which agree with each other and with the verdict.
-/

namespace LayoutWatch.Command

open Project Work

variable {w entered w' : FileWorld} {path : String} {r : ScanRequest} {e : Examination}
  {f : Failure}

/-! ## Examining -/

/-- An examination of a project: its settings name the registry, its signatures are those of the
files, and its report is that of a scan of the binary. -/
structure Examined (w entered : FileWorld) (r : ScanRequest) (e : Examination) : Prop where
  /-- The folders are those of the project. -/
  folders_eq : e.workspace.folders = foldersIn w r.root
  /-- The settings are those of the project. -/
  settings : Completes (loadSettings e.workspace.folders) w e.workspace.settings w
  /-- The settings name the registry. -/
  registryPath_eq :
    e.workspace.registryPath = e.workspace.folders.resolve e.workspace.settings.registry
  /-- The sets are those of the signature files. -/
  sets : ∃ files loaded,
    Completes (scanFiles e.workspace.folders r.signatures) entered files entered ∧
      files.mapM (setsAt? entered) = some loaded ∧ e.sets = loaded.flatten
  /-- The report is that on the binary. -/
  report : ∃ place binary,
    Completes (e.workspace.locateBinary r.binary) entered (e.name, place) entered ∧
      Completes (loadBinary place) entered binary entered ∧
      binary.scan e.sets entered.now = .ok e.report

/-- Finding the signature files of a scan changes nothing. -/
theorem keepsFiles_scanFiles (folders : Folders) (given : List String) :
    KeepsFiles (scanFiles folders given : Work (StateM FileWorld) _) := by
  have hend : ∀ files : List String, KeepsFiles (if files.isEmpty then
      giveUp (.noSignatureFiles folders.signatures) else pure files) := by
    intro files
    split
    · exact keepsFiles_giveUp _
    · exact keepsFiles_pure _
  rw [scanFiles]
  split
  · exact (keepsFiles_signatureFiles _).bind hend
  · exact (keepsFiles_pure _).bind hend

/-- Examining a binary enters the project and changes nothing after that. -/
theorem examined_of_completes (h : Completes (examine r) w e w') :
    Examined w w' r e ∧ Untouched w w' e.workspace.registryPath ∧
      ∃ l, w.tree.registryLocation w.workingFolder e.workspace.registryPath = some l ∧
        IsOpen w' e.workspace.registryPath l e.workspace.registry := by
  rw [examine] at h
  obtain ⟨workspace, entered, henter, h⟩ := completes_bind.mp h
  obtain ⟨⟨name, place⟩, between, hbinary, h⟩ := completes_bind.mp h
  obtain rfl := (keepsFiles_locateBinary _ _).eq_of_completes hbinary
  obtain ⟨files, between, hfiles, h⟩ := completes_bind.mp h
  obtain rfl := (keepsFiles_scanFiles _ _).eq_of_completes hfiles
  obtain ⟨loaded, between, hloaded, h⟩ := completes_bind.mp h
  obtain ⟨hsets, rfl⟩ := (completes_mapM fun _ _ _ _ => completes_loadSignatures).mp hloaded
  obtain ⟨binary, between, hload, h⟩ := completes_bind.mp h
  obtain rfl := (keepsFiles_loadBinary _).eq_of_completes hload
  obtain ⟨report, between, hscan, h⟩ := completes_bind.mp h
  obtain ⟨now, last, hnow, hresult⟩ := completes_bind.mp (completes_during.mp hscan)
  obtain ⟨rfl, rfl⟩ := completes_ask.mp hnow
  obtain ⟨hreport, rfl⟩ := completes_ofResult.mp hresult
  obtain ⟨rfl, rfl⟩ := completes_pure.mp h
  obtain ⟨hfolders, hsettings, hpath, hopen⟩ := opens_of_enter henter
  obtain ⟨huntouched, hthere⟩ := untouched_of_openRegistry hopen
  exact ⟨⟨hfolders, hsettings, hpath, ⟨files, loaded, hfiles, hsets, rfl⟩,
    ⟨place, binary, hbinary, hload, hreport⟩⟩, huntouched, hthere⟩

/-! ## Keeping -/

/-- A scan was kept: its report stands in its file and is read back from there, its row tells the
report and is the last one, and nothing else was changed but that folders were made. -/
structure Kept (w w' : FileWorld) (e : Examination) : Prop where
  /-- The report is in its file. -/
  report : w'.tree.read w'.workingFolder (e.workspace.folders.scanReport e.name) =
    .ok (.ofText (Json.pretty e.report.toValue))
  /-- The text of the file is read as the report, where its counts are those of words. -/
  readsBack : e.report.InWords → ∃ text,
    w'.tree.read w'.workingFolder (e.workspace.folders.scanReport e.name) = .ok (.ofText text) ∧
      (Json.parse? text.toList).bind ScanReport.ofValue? = some e.report.stored
  /-- The scan is added to the registry, with the digest, the counts and the time of its report. -/
  scanRows_eq : ∃ number, (registryAt w' e.workspace.registryPath).scanRows =
    (registryAt w e.workspace.registryPath).scanRows ++ [(number, {
      binary := e.name
      binaryHash := e.report.binaryHash
      total := e.report.total
      matched := e.report.matched
      missing := e.report.missing
      changes := e.report.changes.length
      patterns := e.report.shifts.length
      scannedAt := e.report.scannedAt })]
  /-- The binaries of the registry are the same. -/
  binaryRows_eq : (registryAt w' e.workspace.registryPath).binaryRows =
    (registryAt w e.workspace.registryPath).binaryRows
  /-- Elsewhere at most folders were made where nothing stood. -/
  others : ∀ l, w.tree.registryLocation w.workingFolder e.workspace.registryPath ≠ some l →
    w'.tree.locate w'.workingFolder (e.workspace.folders.scanReport e.name) ≠ .ok l →
      w'.tree.node? l = w.tree.node? l ∨
        (w.tree.node? l = none ∧ w'.tree.node? l = some .folder)

/-- An examination is kept in a project whose registry is open. -/
theorem kept_of_completes {l : Location} {registry : Registry} {binary : Binary} {now : String}
    (hscan : binary.scan e.sets now = .ok e.report)
    (hopen : IsOpen w e.workspace.registryPath l registry) (h : Completes e.keep w () w') :
    Kept w w' e := by
  obtain ⟨⟨⟩, between, hwrite, h⟩ := completes_bind.mp h
  obtain ⟨place, hwritten⟩ := exists_written_of_writeValue hwrite
  obtain ⟨number, last, hrecord, h⟩ := completes_bind.mp h
  obtain ⟨-, rfl⟩ := completes_pure.mp h
  obtain ⟨stored, kept, l', hstored, hinsert, hl', rfl⟩ := exists_put_of_add hrecord
  have hapart := ne_place_of_insertScan hopen hwritten hstored hinsert
  have hstill := hwritten.isOpen hapart hopen
  obtain rfl : registry = stored := Except.ok.inj (hstill.readRegistry_eq.symm.trans hstored)
  obtain rfl : l = l' := Option.some.inj (hstill.location_eq.symm.trans hl'.location_eq)
  have hbefore := registryAt_eq hopen.readRegistry_eq
  have hafter : registryAt { between with tree := between.tree.put l (.registry kept) }
      e.workspace.registryPath = kept :=
    registryAt_eq (hl'.readRegistry_put kept)
  have hplace := FileTree.locate_mono (hl'.foldersStay kept) hwritten.locate_eq
  have hnode : (between.tree.put l (.registry kept)).node? place =
      some (.file (.ofText (Json.pretty e.report.toValue))) := by
    rw [hl'.node?_eq_of_ne kept hapart.symm, hwritten.node?_eq]
  obtain ⟨hscans, hbinaries⟩ := Registry.rows_of_insertScan hinsert
  have hread := FileTree.read_eq hplace hnode
  refine ⟨hread, fun hwords => ⟨_, hread, Binary.bind_parse?_pretty hscan hwords⟩, ⟨number, ?_⟩,
    ?_, fun other hregistry hother => ?_⟩
  · rw [hbefore, hafter, hscans]
    rfl
  · rw [hbefore, hafter, hbinaries]
  · have hne : other ≠ l := by
      rintro rfl
      exact hregistry hopen.location_eq
    have hne' : other ≠ place := by
      rintro rfl
      exact hother hplace
    rw [hl'.node?_eq_of_ne kept hne]
    exact hwritten.others other hne'

/-- A scan that is kept after its registry was opened is kept as a whole. -/
theorem Kept.of_untouched {l : Location} {registry : Registry}
    (huntouched : Untouched w entered e.workspace.registryPath)
    (hl : w.tree.registryLocation w.workingFolder e.workspace.registryPath = some l)
    (hopen : IsOpen entered e.workspace.registryPath l registry) (h : Kept entered w' e) :
    Kept w w' e := by
  obtain ⟨number, hscans⟩ := h.scanRows_eq
  refine ⟨h.report, h.readsBack, ⟨number, ?_⟩, ?_, fun other hregistry hother => ?_⟩
  · rw [hscans, huntouched.scanRows_eq]
  · rw [h.binaryRows_eq, huntouched.binaryRows_eq]
  · rw [← huntouched.node?_eq other hregistry]
    rw [hl, ← hopen.location_eq] at hregistry
    exact h.others other hregistry hother

/-! ## Rejections -/

/-- A scan is rejected for what is wrong with the binary or with the signatures. -/
inductive Rejection : Failure → Prop
  /-- The binary is neither registered nor a file. -/
  | unknownBinary (binary path : String) : Rejection ⟨[], .unknownBinary binary path⟩
  /-- There are no signature files. -/
  | noSignatureFiles (folder : String) : Rejection ⟨[], .noSignatureFiles folder⟩
  /-- A signature file is not read. -/
  | unreadableSignatures (path : String) (fault : FileFault) :
      Rejection ⟨[.loadSignatures path], .file fault⟩
  /-- A signature file holds something else. -/
  | malformedSignatures (path : String) : Rejection ⟨[.loadSignatures path], .malformed .json⟩
  /-- The binary is not read. -/
  | unreadableBinary (path : String) (fault : FileFault) :
      Rejection ⟨[], .unreadableBinary path fault⟩
  /-- The binary is no valid image, or a text of a signature is no pattern. -/
  | unscannable (name : String) (fault : ScanFault) : Rejection ⟨[.scan name], .scan fault⟩

/-- Activities in the course of which a scan can be rejected. -/
def Activity.isExamining : Activity → Bool
  | .loadSignatures _ | .scan _ => true
  | _ => false

/-- A rejection happens in the course of an examining activity, or of none. -/
theorem Rejection.isExamining (h : Rejection f) :
    ∀ activity ∈ f.activities, activity.isExamining = true := by
  intro activity hactivity
  cases h with
  | unknownBinary | noSignatureFiles | unreadableBinary => cases hactivity
  | unreadableSignatures | malformedSignatures | unscannable =>
    rw [List.mem_singleton.mp hactivity]
    rfl

/-- The work fails for other reasons only than those for which a scan is rejected. -/
def NeverRejects {α : Type} (work : Work (StateM FileWorld) α) : Prop :=
  ∀ w f w', Fails work w f w' → ¬Rejection f

section NeverRejects

variable {α β : Type}

/-- An activity rejects nothing unless it is an examining one. -/
theorem neverRejects_during {activity : Activity} (hactivity : activity.isExamining = false)
    (work : Work (StateM FileWorld) α) : NeverRejects (during activity work) := by
  intro w f w' hfails hrejection
  obtain ⟨inner, -, rfl⟩ := fails_during.mp hfails
  have hexamining := hrejection.isExamining activity List.mem_cons_self
  rw [hactivity] at hexamining
  cases hexamining

/-- A result that is there rejects nothing. -/
theorem neverRejects_pure (a : α) : NeverRejects (pure a : Work (StateM FileWorld) α) :=
  fun _ _ _ hfails => absurd hfails (not_fails_pure a)

/-- A question rejects nothing. -/
theorem neverRejects_ask (question : StateM FileWorld α) :
    NeverRejects (ask question : Work (StateM FileWorld) α) :=
  fun _ _ _ hfails => absurd hfails (not_fails_ask question)

/-- Work in two steps rejects nothing if neither does. -/
theorem NeverRejects.bind {first : Work (StateM FileWorld) α}
    {next : α → Work (StateM FileWorld) β} (hfirst : NeverRejects first)
    (hnext : ∀ a, NeverRejects (next a)) : NeverRejects (first >>= next) := by
  intro w f w' hfails
  rcases fails_bind.mp hfails with h | ⟨a, between, -, h⟩
  · exact hfirst w f w' h
  · exact hnext a between f w' h

end NeverRejects

/-- Entering a project rejects nothing. -/
theorem neverRejects_enter (root : String) :
    NeverRejects (Workspace.enter root : Work (StateM FileWorld) Workspace) := by
  have hsettings : ∀ folders : Folders,
      NeverRejects (loadSettings folders : Work (StateM FileWorld) Settings) := fun _ =>
    (neverRejects_during rfl _).bind fun _ => neverRejects_during rfl _
  exact (neverRejects_ask _).bind fun folders => (hsettings folders).bind fun settings =>
    (neverRejects_during rfl _).bind fun registry => neverRejects_pure _

/-- Keeping an examination rejects nothing. -/
theorem neverRejects_keep (e : Examination) :
    NeverRejects (e.keep : Work (StateM FileWorld) Unit) := by
  have hwrite : ∀ folder path value,
      NeverRejects (writeValue folder path value : Work (StateM FileWorld) Unit) := fun _ _ _ =>
    (neverRejects_during rfl _).bind fun _ => neverRejects_during rfl _
  exact (hwrite _ _ _).bind fun _ => (neverRejects_during rfl _).bind fun _ =>
    neverRejects_pure _

/-- A scan that is rejected has opened the registry of its project, and nothing else. -/
theorem exists_untouched_of_rejection (h : Fails (scan r) w f w') (hrejection : Rejection f) :
    ∃ settings, Completes (loadSettings (foldersIn w r.root)) w settings w ∧
      Untouched w w' ((foldersIn w r.root).resolve settings.registry) := by
  rcases fails_bind.mp h with hexamine | ⟨e, between, -, hkeep⟩
  · rw [examine] at hexamine
    rcases fails_bind.mp hexamine with henter | ⟨workspace, between, henter, hrest⟩
    · exact absurd hrejection (neverRejects_enter r.root w f w' henter)
    · obtain ⟨hfolders, hsettings, hpath, hopen⟩ := opens_of_enter henter
      obtain ⟨huntouched, -⟩ := untouched_of_openRegistry hopen
      obtain rfl : between = w' := by
        refine KeepsFiles.eq_of_fails ?_ hrest
        refine (keepsFiles_locateBinary _ _).bind fun ⟨name, place⟩ => ?_
        refine (keepsFiles_scanFiles _ _).bind fun files => ?_
        refine (keepsFiles_mapM keepsFiles_loadSignatures _).bind fun loaded => ?_
        refine (keepsFiles_loadBinary _).bind fun binary => ?_
        refine ((((keepsFiles_ask _).bind fun now => keepsFiles_ofResult _ _)).during _).bind ?_
        exact fun report => keepsFiles_pure _
      rw [hpath, hfolders] at huntouched
      rw [hfolders] at hsettings
      exact ⟨workspace.settings, hsettings, huntouched⟩
  · have hnever := (neverRejects_keep e).bind fun _ => neverRejects_pure (e.outcome r.json)
    exact absurd hrejection (hnever between f w' hkeep)

/-! ## Scanning -/

/-- The verdict on an examination tells whether a signature is missing. -/
theorem verdict_outcome (e : Examination) (json : Bool) :
    (e.outcome json).verdict = if e.report.missing = 0 then .clean else .needsAttention := by
  rw [Examination.outcome, Report.ofFinding, ScanReport.isComplete]
  by_cases hmissing : e.report.missing = 0 <;> simp [hmissing]

/-- A scan that is rejected leaves everything as it was, and a scan that comes to its end adds one
row and writes one report, which agree with each other and with the verdict. -/
theorem scan_allOrNothing (w w' : FileWorld) (r : ScanRequest) :
    (∀ f, Fails (scan r) w f w' → Rejection f →
      ∃ settings, Completes (loadSettings (foldersIn w r.root)) w settings w ∧
        Untouched w w' ((foldersIn w r.root).resolve settings.registry)) ∧
    ∀ outcome, Completes (scan r) w outcome w' →
      ∃ e entered, Completes (examine r) w e entered ∧ Examined w entered r e ∧
        Untouched w entered e.workspace.registryPath ∧ Kept w w' e ∧
        e.report.matched + e.report.missing = e.report.total ∧
        e.report.total = (e.sets.flatMap (·.signatures)).length ∧
        outcome.verdict = if e.report.missing = 0 then .clean else .needsAttention := by
  refine ⟨fun f => exists_untouched_of_rejection, fun outcome h => ?_⟩
  obtain ⟨e, entered, hexamine, h⟩ := completes_bind.mp h
  obtain ⟨⟨⟩, last, hkeep, h⟩ := completes_bind.mp h
  obtain ⟨rfl, rfl⟩ := completes_pure.mp h
  obtain ⟨hexamined, huntouched, l, hl, hopen⟩ := examined_of_completes hexamine
  obtain ⟨place, binary, -, -, hreport⟩ := hexamined.report
  have hkept := (kept_of_completes hreport hopen hkeep).of_untouched huntouched hl hopen
  obtain ⟨hsum, htotal⟩ := Binary.counts_of_scan hreport
  exact ⟨e, entered, hexamine, hexamined, huntouched, hkept, hsum, htotal,
    verdict_outcome e r.json⟩

/-! ## A project with one signature -/

/-- The text of a set with one signature, which its binary does not hold. -/
def lostSignature : String :=
  "[\"Foo\",\"\",null,1,\"\",[[\"field_access\",\"Foo\",\"health\",16,\"0F 0B\",null,null,80]]]"

/-- The text of settings that name a registry. -/
def terseSettings : String := "[\"p\",null,\"1\",[\"project.db\"]]"

/-- A project with this signature and a binary. -/
def scanProject : FileWorld where
  tree := ⟨[
    (["p"], .folder),
    (["p", ".drift"], .folder),
    (["p", ".drift", "project.json"], .file (.ofText terseSettings)),
    (["p", "signatures"], .folder),
    (["p", "signatures", "Foo.json"], .file (.ofText lostSignature)),
    (["p", "loner.exe"], .file Binary.loner.bytes)]⟩
  workingFolder := "/"
  now := "today"

/-- The request for a scan of a binary of the project. -/
def requestOf (binary : String) : ScanRequest := ⟨"/p", binary, [], false⟩

/-- A scan of a binary of the project. -/
def scanOf (binary : String) : Work (StateM FileWorld) Report := scan (requestOf binary)

/-- The examination of a binary of the project. -/
def examineOf (binary : String) : Work (StateM FileWorld) Examination := examine (requestOf binary)

/-- The report on the binary. -/
def lostReport : ScanReport where
  binaryIdentifier := "loner.exe"
  binaryHash := "c61115c3eeb9078e43cede75ccd99b7439f3aa2ac9944fbf2fa123b929216084"
  scannedAt := "today"
  matched := 0
  missing := 1
  total := 1
  sightings := [⟨"Foo", "health", .fieldAccess, 16, false, none, none, 0, 0, false⟩]
  changes := []
  shifts := []

/-- The counts of the report are small. -/
theorem inWords_lostReport : lostReport.InWords := by
  refine ⟨by decide, fun s hs => ?_⟩
  rw [List.mem_singleton.mp hs]
  exact ⟨fun _ hoffset => absurd hoffset (Option.not_mem_none _), by decide⟩

/-- The binary is scanned, and its signature is missing. -/
theorem verdict_scanOf : ((scanOf "loner.exe").run.run scanProject).1.toOption.map (·.verdict) =
    some .needsAttention := by decide +kernel

/-- The report is made, and it is to be kept in the project. -/
theorem report_examineOf :
    ((examineOf "loner.exe").run.run scanProject).1.toOption.map (fun e =>
      (e.workspace.registryPath, e.workspace.folders.scanReport e.name, e.name, e.report)) =
        some ("/p/project.db", "/p/reports/scan-loner.exe.json", "loner.exe", lostReport) := by
  decide +kernel

/-- A binary that is not there is not scanned. -/
theorem failure_scanOf : failure? ((scanOf "gone.exe").run.run scanProject).1 =
    some ⟨[], .unknownBinary "gone.exe" "/p/gone.exe"⟩ := by decide +kernel

/-- The scan with a missing signature is kept, and the scan of no binary is rejected. -/
theorem scan_allOrNothing_lost : ∃ outcome w₁ e f w₂, ∃ number : Nat, ∃ settings : Settings,
    (Completes (scanOf "loner.exe") scanProject outcome w₁ ∧
      outcome.verdict = .needsAttention ∧ Kept scanProject w₁ e ∧
      (registryAt w₁ "/p/project.db").scanRows = [(number, {
        binary := "loner.exe"
        binaryHash := "c61115c3eeb9078e43cede75ccd99b7439f3aa2ac9944fbf2fa123b929216084"
        total := 1
        matched := 0
        missing := 1
        changes := 0
        patterns := 0
        scannedAt := "today" })] ∧
      ∃ text, w₁.tree.read w₁.workingFolder "/p/reports/scan-loner.exe.json" = .ok (.ofText text) ∧
        (Json.parse? text.toList).bind ScanReport.ofValue? = some lostReport) ∧
    (Fails (scanOf "gone.exe") scanProject f w₂ ∧ Rejection f ∧
      Untouched scanProject w₂ ((foldersIn scanProject "/p").resolve settings.registry)) := by
  obtain ⟨outcome, hscan, hneeds⟩ := exists_completes verdict_scanOf
  have hfails := fails_of_failure? failure_scanOf
  have hrejection := Rejection.unknownBinary "gone.exe" "/p/gone.exe"
  obtain ⟨e, entered, hexamine, -, -, hkept, -⟩ := (scan_allOrNothing _ _ _).2 outcome hscan
  obtain ⟨settings, -, huntouched⟩ := (scan_allOrNothing _ _ _).1 _ hfails hrejection
  obtain ⟨e', hexamine', he'⟩ := exists_completes report_examineOf
  obtain ⟨rfl, -⟩ := hexamine.unique hexamine'
  obtain ⟨hpath, hplace, hname, hreport⟩ : _ ∧ _ ∧ _ ∧ e.report = lostReport := by
    simpa only [Prod.mk.injEq] using he'
  obtain ⟨number, hrows⟩ := hkept.scanRows_eq
  obtain ⟨text, htext, hread⟩ := hkept.readsBack (hreport ▸ inWords_lostReport)
  have hnone : (registryAt scanProject "/p/project.db").scanRows = [] := by decide +kernel
  rw [hpath, hname, hreport, hnone] at hrows
  rw [hplace] at htext
  rw [hreport] at hread
  exact ⟨outcome, _, e, _, _, number, settings, ⟨hscan, hneeds, hkept, hrows, text, htext, hread⟩,
    hfails, hrejection, huntouched⟩

end LayoutWatch.Command
