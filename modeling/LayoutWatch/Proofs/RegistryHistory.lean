import LayoutWatch.Proofs.Command.Reading
import LayoutWatch.Proofs.Command.Workspace
import LayoutWatch.Proofs.RegistryVersion

/-!
# The history of a registry

Nothing that is asked of the registry takes a row away or changes one, and opening it again keeps
every row. So whatever is asked, and however often the registry is opened in between, its two tables
hold what they held in the beginning and behind that what was added since, and every answer is read
from these two lists.
-/

namespace LayoutWatch.Project.Registry

namespace Table

variable {α : Type} (t : Table α)

/-- Add rows one after the other. -/
def insertAll (rows : List α) : Table α := rows.foldl insert t

/-- The last of several rows is added to the table with the others. -/
theorem insertAll_concat (rows : List α) (row : α) :
    t.insertAll (rows ++ [row]) = (t.insertAll rows).insert row :=
  List.foldl_append

/-- A row is added behind all others. -/
@[simp] theorem contents_insert (row : α) : (t.insert row).contents = t.contents ++ [row] := by
  rw [contents, contents, insert, List.map_append]
  rfl

/-- Rows are added behind all others, in their order. -/
@[simp] theorem contents_insertAll (rows : List α) :
    (t.insertAll rows).contents = t.contents ++ rows := by
  induction rows generalizing t with
  | nil => exact (List.append_nil _).symm
  | cons row rest ih =>
    have hrest := ih (t.insert row)
    rw [contents_insert, List.append_assoc] at hrest
    exact hrest

/-- Each row that is added is given the next number. -/
@[simp] theorem last_insertAll (rows : List α) :
    (t.insertAll rows).last = t.last + rows.length := by
  induction rows generalizing t with
  | nil => rfl
  | cons row rest ih =>
    have hrest := ih (t.insert row)
    have hnext : (t.insert row).last = t.last + 1 := rfl
    rw [List.length_cons]
    exact hrest.trans (by omega)

end Table

/-- The table of binaries, without rows if there is none. -/
def binaryTable (r : Registry) : Table RegisteredBinary := r.binaries.getD .empty

/-- The table of scans, without rows if there is none. -/
def scanTable (r : Registry) : Table ScanRun := r.scans.getD .empty

/-- The current form of a registry to which binaries and scans were added. -/
def grown (r : Registry) (binaries : List RegisteredBinary) (scans : List ScanRun) : Registry where
  version := currentVersion
  binaries := some (r.binaryTable.insertAll binaries)
  scans := some (r.scanTable.insertAll scans)

section Grown

variable (r : Registry) (binaries : List RegisteredBinary) (scans : List ScanRun)

/-- Before anything is added the registry has been brought up to the current form. -/
@[simp] theorem grown_nil : r.grown [] [] = r.upgraded := rfl

/-- Opening the registry again leaves it as it is. -/
@[simp] theorem migrate_grown :
    (r.grown binaries scans).migrate = .ok (r.grown binaries scans) := rfl

/-- A binary is added behind the others, under the next number. -/
@[simp] theorem insertBinary_grown (b : RegisteredBinary) :
    (r.grown binaries scans).insertBinary b =
      .ok (r.grown (binaries ++ [b]) scans, r.binaryTable.last + binaries.length + 1) := by
  rw [grown, grown, Table.insertAll_concat, ← Table.last_insertAll]
  rfl

/-- A scan is added behind the others, under the next number. -/
@[simp] theorem insertScan_grown (s : ScanRun) : (r.grown binaries scans).insertScan s =
    .ok (r.grown binaries (scans ++ [s]), r.scanTable.last + scans.length + 1) := by
  rw [grown, grown, Table.insertAll_concat, ← Table.last_insertAll]
  rfl

/-- The binaries are listed in the order in which they were added. -/
@[simp] theorem listBinaries_grown :
    (r.grown binaries scans).listBinaries = .ok (r.binaryTable.contents ++ binaries) :=
  congrArg Except.ok (Table.contents_insertAll _ _)

/-- A name is looked up in the list of binaries. -/
@[simp] theorem findBinary_grown (name : String) : (r.grown binaries scans).findBinary name =
    .ok ((r.binaryTable.contents ++ binaries).find? (·.name = name)) := by
  rw [findBinary, listBinaries_grown]
  rfl

/-- The scans are listed in the order in which they were added. -/
@[simp] theorem listScans_grown :
    (r.grown binaries scans).listScans none = .ok (r.scanTable.contents ++ scans) :=
  congrArg Except.ok (Table.contents_insertAll _ _)

/-- The scans of one binary are those of the list of scans. -/
@[simp] theorem listScans_grown_some (binary : String) :
    (r.grown binaries scans).listScans (some binary) =
      .ok ((r.scanTable.contents ++ scans).filter (·.binary = binary)) := by
  rw [← Table.contents_insertAll]
  rfl

end Grown

end LayoutWatch.Project.Registry

namespace LayoutWatch.Command.Workspace

open Project Work

/-- What is asked of the registry of a project. -/
inductive Request where
  /-- Open it once more. -/
  | reopen
  /-- Add a binary. -/
  | insertBinary (b : RegisteredBinary)
  /-- Add a scan. -/
  | insertScan (s : ScanRun)
  /-- List the binaries. -/
  | listBinaries
  /-- List the scans, or those of one binary. -/
  | listScans (binary : Option String)
  /-- Look up the binary of a name. -/
  | findBinary (name : String)
  /-- Find out which binary a command means by a name. -/
  | locateBinary (name : String)
  deriving DecidableEq

namespace Request

/-- The binary that is added. -/
def binary? : Request → Option RegisteredBinary
  | .insertBinary b => some b
  | _ => none

/-- The scan that is added. -/
def scan? : Request → Option ScanRun
  | .insertScan s => some s
  | _ => none

end Request

/-- What is answered. -/
inductive Answer where
  /-- The registry is open. -/
  | opened
  /-- The number of the row that was added. -/
  | number (n : Nat)
  /-- Binaries of the registry. -/
  | binaries (listed : List RegisteredBinary)
  /-- Scans of the registry. -/
  | scans (listed : List ScanRun)
  /-- The binary of a name. -/
  | binary (found : Option RegisteredBinary)
  /-- Name and path of the binary that is meant. -/
  | place (found : Option (String × String))
  deriving DecidableEq

/-- The workspace with the registry as it is kept by now. -/
def current (w : Workspace) : Work (StateM FileWorld) Workspace := do
  let stored ← Work.ofAction .registry (FileSystem.readRegistry w.registryPath)
  return { w with registry := stored }

/-- Do what is asked of the registry of a workspace. -/
def perform (w : Workspace) : Request → Work (StateM FileWorld) Answer
  | .reopen => do
    let _ ← Work.ofAction .registry (FileSystem.openRegistry w.registryPath)
    return .opened
  | .insertBinary b => return .number (← w.register b)
  | .insertScan s => return .number (← w.record s)
  | .listBinaries => return .binaries (← (← w.current).binaries)
  | .listScans binary => return .scans (← (← w.current).scans binary)
  | .findBinary name => do
    let now ← w.current
    return .binary (← Work.ofResult .registry (now.registry.findBinary name))
  | .locateBinary name => do
    let now ← w.current
    let found ← Work.ask (now.locateBinary name).run
    return .place found.toOption

/-! ## The lists behind the answers -/

/-- The binaries that a registry holds after a list of requests. -/
def binariesAfter (start : Registry) (before : List Request) : List RegisteredBinary :=
  start.binaryTable.contents ++ before.filterMap Request.binary?

/-- The scans that a registry holds after a list of requests. -/
def scansAfter (start : Registry) (before : List Request) : List ScanRun :=
  start.scanTable.contents ++ before.filterMap Request.scan?

/-- The registry after a list of requests. -/
def registryAfter (start : Registry) (before : List Request) : Registry :=
  start.grown (before.filterMap Request.binary?) (before.filterMap Request.scan?)

/-- What has to be answered to a request that comes after others. -/
def IsAnswer (w : Workspace) (start : Registry) (before : List Request) :
    Request → Answer → Prop
  | .reopen, a => a = .opened
  | .insertBinary _, a =>
    a = .number (start.binaryTable.last + (before.filterMap Request.binary?).length + 1)
  | .insertScan _, a =>
    a = .number (start.scanTable.last + (before.filterMap Request.scan?).length + 1)
  | .listBinaries, a => a = .binaries (binariesAfter start before)
  | .listScans none, a => a = .scans (scansAfter start before)
  | .listScans (some binary), a =>
    a = .scans ((scansAfter start before).filter (·.binary = binary))
  | .findBinary name, a => a = .binary ((binariesAfter start before).find? (·.name = name))
  | .locateBinary name, a => ∀ b, (binariesAfter start before).find? (·.name = name) = some b →
    a = .place (some (b.name, w.folders.resolve b.path))

/-! ## One request -/

/-- The registry is kept at the path. -/
def Keeps (files : FileWorld) (path : String) (r : Registry) : Prop :=
  files.tree.readRegistry files.workingFolder path = .ok r

section Step

variable {w : Workspace} {files : FileWorld} {path : String} {stored kept start : Registry}
  {before : List Request}

/-- A registry that is kept is read. -/
theorem Keeps.completes_read (h : Keeps files path stored) :
    Completes (ofAction .registry (FileSystem.readRegistry path)) files stored files := by
  have hrun : (FileSystem.readRegistry path : StateM FileWorld _).run files =
      (files.tree.readRegistry files.workingFolder path, files) := rfl
  rw [completes_ofAction, hrun, h]

/-- In place of a registry that is kept another one can be kept. -/
theorem Keeps.exists_write (h : Keeps files path stored) (kept : Registry) :
    ∃ files', files.tree.writeRegistry files.workingFolder path kept = .ok files'.tree ∧
      files' = { files with tree := files'.tree } ∧ Keeps files' path kept := by
  obtain ⟨l, hl⟩ := FileTree.exists_keepsRegistry h
  exact ⟨{ files with tree := files.tree.put l (.registry kept) }, hl.writeRegistry_eq kept, rfl,
    hl.readRegistry_put kept⟩

/-- A registry of a known form is opened, and kept in the current form. -/
theorem Keeps.exists_open (h : Keeps files path stored) (hmigrate : stored.migrate = .ok kept) :
    ∃ files', Completes (ofAction .registry (FileSystem.openRegistry path)) files kept files' ∧
      Keeps files' path kept := by
  obtain ⟨files', hwritten, hfiles, hkept⟩ := h.exists_write kept
  exact ⟨files', completes_openRegistry.mpr ⟨stored, _, h, hmigrate, hwritten, hfiles⟩, hkept⟩

/-- What can be added to the registry is added, and kept. -/
theorem Keeps.exists_add (h : Keeps files w.registryPath stored) (activity : Activity)
    (insert : Registry → Except Registry.Fault (Registry × Nat)) {number : Nat}
    (hinsert : insert stored = .ok (kept, number)) :
    ∃ files', Completes (w.add activity insert) files number files' ∧
      Keeps files' w.registryPath kept := by
  obtain ⟨files', hwritten, hfiles, hkept⟩ := h.exists_write kept
  have hwrite : Completes (ofAction .registry (FileSystem.writeRegistry w.registryPath kept))
      files () files' := completes_ofAction.mpr (run_change.mpr ⟨_, hwritten, hfiles⟩)
  refine ⟨files', completes_during.mpr ?_, hkept⟩
  exact completes_bind.mpr ⟨stored, files, h.completes_read, completes_bind.mpr
    ⟨(kept, number), files, completes_ofResult.mpr ⟨hinsert, rfl⟩, completes_bind.mpr
      ⟨(), files', hwrite, completes_pure.mpr ⟨rfl, rfl⟩⟩⟩⟩

/-- What is asked of the registry as it is kept by now leaves the files as they are, if the work on
it does. -/
theorem Keeps.completes_current {α β : Type} (h : Keeps files w.registryPath stored)
    (ask : Workspace → Work (StateM FileWorld) α) (answer : α → β) {a : α}
    (hask : Completes (ask { w with registry := stored }) files a files) :
    Completes (do return answer (← ask (← w.current))) files (answer a) files := by
  have hcurrent : Completes w.current files { w with registry := stored } files :=
    completes_bind.mpr ⟨stored, files, h.completes_read, completes_pure.mpr ⟨rfl, rfl⟩⟩
  exact completes_bind.mpr ⟨_, files, hcurrent,
    completes_bind.mpr ⟨a, files, hask, completes_pure.mpr ⟨rfl, rfl⟩⟩⟩

/-- The name and the path that a command takes for a name among these files. -/
def placeOf (w : Workspace) (files : FileWorld) (name : String) :
    Except Failure (String × String) :=
  ((w.locateBinary name : Work (StateM FileWorld) _).run.run files).1

/-- Finding out what is meant by a name leaves the files as they are. -/
theorem completes_placeOf (w : Workspace) (files : FileWorld) (name : String) :
    Completes (ask (w.locateBinary name).run) files (placeOf w files name) files := by
  have hrun : (ask (w.locateBinary name).run : Work (StateM FileWorld) _).run.run files =
      (.ok (placeOf w files name),
        ((w.locateBinary name : Work (StateM FileWorld) _).run.run files).2) := rfl
  rw [Completes, hrun, keepsFiles_locateBinary w name files]

/-- A registered name means its binary. -/
theorem placeOf_eq {name : String} {b : RegisteredBinary}
    (h : w.registry.findBinary name = .ok (some b)) (files : FileWorld) :
    placeOf w files name = .ok (b.name, w.folders.resolve b.path) := by
  have hlocated : Completes (w.locateBinary name) files (b.name, w.folders.resolve b.path) files :=
    completes_bind.mpr ⟨some b, files, completes_during.mpr (completes_ofResult.mpr ⟨h, rfl⟩),
      completes_pure.mpr ⟨rfl, rfl⟩⟩
  exact congrArg Prod.fst hlocated

/-- A request adds its own rows behind those of the others. -/
theorem registryAfter_concat (start : Registry) (before : List Request) (request : Request) :
    registryAfter start (before ++ [request]) =
      start.grown (before.filterMap Request.binary? ++ request.binary?.toList)
        (before.filterMap Request.scan? ++ request.scan?.toList) := by
  have hown : ∀ {α : Type} (row? : Request → Option α),
      [request].filterMap row? = (row? request).toList := by
    intro α row?
    cases hrow : row? request <;> simp [hrow]
  rw [registryAfter, List.filterMap_append, List.filterMap_append, hown, hown]

/-- A request that adds nothing leaves the registry as it is. -/
theorem registryAfter_of_adds_nothing {request : Request} (hbinary : request.binary? = none)
    (hscan : request.scan? = none) (start : Registry) (before : List Request) :
    registryAfter start (before ++ [request]) = registryAfter start before := by
  rw [registryAfter_concat, hbinary, hscan, Option.toList_none, Option.toList_none,
    List.append_nil, List.append_nil, registryAfter]

/-- The next binary that is added stands behind those that were added before. -/
theorem insertBinary_registryAfter (start : Registry) (before : List Request)
    (b : RegisteredBinary) : (registryAfter start before).insertBinary b =
      .ok (registryAfter start (before ++ [.insertBinary b]),
        start.binaryTable.last + (before.filterMap Request.binary?).length + 1) := by
  have hscans : (Request.insertBinary b).scan?.toList = [] := rfl
  rw [registryAfter_concat, hscans, List.append_nil]
  exact Registry.insertBinary_grown _ _ _ b

/-- The next scan that is added stands behind those that were added before. -/
theorem insertScan_registryAfter (start : Registry) (before : List Request) (s : ScanRun) :
    (registryAfter start before).insertScan s =
      .ok (registryAfter start (before ++ [.insertScan s]),
        start.scanTable.last + (before.filterMap Request.scan?).length + 1) := by
  have hbinaries : (Request.insertScan s).binary?.toList = [] := rfl
  rw [registryAfter_concat, hbinaries, List.append_nil]
  exact Registry.insertScan_grown _ _ _ s

/-- The binaries of the registry are listed in their order. -/
theorem listBinaries_registryAfter (start : Registry) (before : List Request) :
    (registryAfter start before).listBinaries = .ok (binariesAfter start before) :=
  Registry.listBinaries_grown _ _ _

/-- A name is looked up among them. -/
theorem findBinary_registryAfter (start : Registry) (before : List Request) (name : String) :
    (registryAfter start before).findBinary name =
      .ok ((binariesAfter start before).find? (·.name = name)) :=
  Registry.findBinary_grown _ _ _ name

/-- The scans of the registry are listed in their order, or those of them that are of one binary. -/
theorem listScans_registryAfter (start : Registry) (before : List Request)
    (binary : Option String) : (registryAfter start before).listScans binary =
      .ok (match binary with
        | none => scansAfter start before
        | some name => (scansAfter start before).filter (·.binary = name)) := by
  cases binary with
  | none => exact Registry.listScans_grown _ _ _
  | some name => exact Registry.listScans_grown_some _ _ _ name

/-- Every request is answered as it has to be, and counts among those that came before from then
on. -/
theorem exists_answer (h : Keeps files w.registryPath (registryAfter start before))
    (request : Request) :
    ∃ answer files', Completes (w.perform request) files answer files' ∧
      IsAnswer w start before request answer ∧
      Keeps files' w.registryPath (registryAfter start (before ++ [request])) := by
  cases request with
  | reopen =>
    obtain ⟨files', hopen, hkept⟩ := h.exists_open (Registry.migrate_grown _ _ _)
    rw [registryAfter_of_adds_nothing rfl rfl]
    exact ⟨.opened, files', completes_bind.mpr ⟨_, files', hopen, completes_pure.mpr ⟨rfl, rfl⟩⟩,
      rfl, hkept⟩
  | insertBinary b =>
    obtain ⟨files', hadd, hkept⟩ := h.exists_add .insertBinary (·.insertBinary b)
      (insertBinary_registryAfter start before b)
    exact ⟨_, files', completes_bind.mpr ⟨_, files', hadd, completes_pure.mpr ⟨rfl, rfl⟩⟩, rfl,
      hkept⟩
  | insertScan s =>
    obtain ⟨files', hadd, hkept⟩ := h.exists_add .recordScan (·.insertScan s)
      (insertScan_registryAfter start before s)
    exact ⟨_, files', completes_bind.mpr ⟨_, files', hadd, completes_pure.mpr ⟨rfl, rfl⟩⟩, rfl,
      hkept⟩
  | listBinaries =>
    rw [registryAfter_of_adds_nothing rfl rfl]
    have hlist := listBinaries_registryAfter start before
    exact ⟨_, files, h.completes_current binaries Answer.binaries
      (completes_during.mpr (completes_ofResult.mpr ⟨hlist, rfl⟩)), rfl, h⟩
  | listScans binary =>
    rw [registryAfter_of_adds_nothing rfl rfl]
    have hlist := listScans_registryAfter start before binary
    refine ⟨_, files, h.completes_current (scans · binary) Answer.scans
      (completes_during.mpr (completes_ofResult.mpr ⟨hlist, rfl⟩)), ?_, h⟩
    cases binary <;> rfl
  | findBinary name =>
    rw [registryAfter_of_adds_nothing rfl rfl]
    have hfind := findBinary_registryAfter start before name
    exact ⟨_, files, h.completes_current
      (fun now => ofResult .registry (now.registry.findBinary name)) Answer.binary
      (completes_ofResult.mpr ⟨hfind, rfl⟩), rfl, h⟩
  | locateBinary name =>
    rw [registryAfter_of_adds_nothing rfl rfl]
    refine ⟨_, files, h.completes_current (fun now => ask (now.locateBinary name).run)
      (fun found => Answer.place found.toOption) (completes_placeOf _ files name),
      fun b hb => ?_, h⟩
    have hfind := findBinary_registryAfter start before name
    rw [hb] at hfind
    rw [placeOf_eq hfind]
    rfl

end Step

/-! ## A whole history -/

section Run

variable {w : Workspace} {files : FileWorld} {start : Registry} {before requests : List Request}

/-- All requests are answered, each as it has to be behind those before it. -/
theorem exists_answers (h : Keeps files w.registryPath (registryAfter start before))
    (requests : List Request) :
    ∃ answers files', Completes (requests.mapM w.perform) files answers files' ∧
      answers.length = requests.length ∧ ∀ i request, requests[i]? = some request →
        ∃ answer, answers[i]? = some answer ∧
          IsAnswer w start (before ++ requests.take i) request answer := by
  induction requests generalizing before files with
  | nil => exact ⟨[], files, completes_mapM_nil.mpr ⟨rfl, rfl⟩, rfl, by simp⟩
  | cons request rest ih =>
    obtain ⟨answer, between, hfirst, hanswer, hkept⟩ := exists_answer h request
    obtain ⟨answers, files', hrest, hlength, hanswers⟩ := ih hkept
    refine ⟨answer :: answers, files',
      completes_mapM_cons.mpr ⟨answer, between, answers, hfirst, hrest, rfl⟩,
      congrArg (· + 1) hlength, ?_⟩
    intro i asked hasked
    cases i with
    | zero =>
      obtain rfl := Option.some.inj hasked
      rw [List.take_zero, List.append_nil]
      exact ⟨answer, rfl, hanswer⟩
    | succ i =>
      rw [List.take_succ_cons, List.append_cons]
      exact hanswers i asked hasked

/-- What came before an earlier request came before a later one. -/
theorem isPrefix_filterMap_take {α : Type} (row? : Request → Option α) (requests : List Request)
    {i j : Nat} (hle : i ≤ j) :
    (requests.take i).filterMap row? <+: (requests.take j).filterMap row? :=
  (List.take_prefix_take_left hle).filterMap row?

/-- A request that adds a row is followed by more rows than it followed. -/
theorem length_filterMap_take_lt {α : Type} (row? : Request → Option α) {request : Request}
    {row : α} {i j : Nat} (hrequest : requests[i]? = some request)
    (hrow : row? request = some row) (hlt : i < j) :
    ((requests.take i).filterMap row?).length < ((requests.take j).filterMap row?).length := by
  have hnext : (requests.take (i + 1)).filterMap row? =
      (requests.take i).filterMap row? ++ [row] := by
    rw [List.take_add_one, hrequest, List.filterMap_append]
    simp [hrow]
  have hle := (isPrefix_filterMap_take row? requests hlt).length_le
  rw [hnext, List.length_append, List.length_singleton] at hle
  omega

/-- The answers to a list of requests, as one history tells them. -/
structure Chronicle (w : Workspace) (start : Registry) (requests : List Request)
    (answers : List Answer) : Prop where
  /-- Every request is answered. -/
  length_eq : answers.length = requests.length
  /-- All binaries are listed, as they were added and in this order. -/
  binaries_eq : ∀ i, requests[i]? = some Request.listBinaries →
    answers[i]? = some (Answer.binaries (binariesAfter start (requests.take i)))
  /-- All scans are listed, as they were added and in this order. -/
  scans_eq : ∀ i, requests[i]? = some (Request.listScans none) →
    answers[i]? = some (Answer.scans (scansAfter start (requests.take i)))
  /-- The scans of one binary are those of all scans. -/
  scansOf_eq : ∀ i binary, requests[i]? = some (Request.listScans (some binary)) →
    answers[i]? =
      some (Answer.scans ((scansAfter start (requests.take i)).filter (·.binary = binary)))
  /-- The binary of a name is the first one of all binaries. -/
  found_eq : ∀ i name, requests[i]? = some (Request.findBinary name) →
    answers[i]? =
      some (Answer.binary ((binariesAfter start (requests.take i)).find? (·.name = name)))
  /-- Later binaries have larger numbers. -/
  binaryNumbers_lt : ∀ (i j : Nat) b c, i < j → requests[i]? = some (Request.insertBinary b) →
    requests[j]? = some (Request.insertBinary c) →
    ∃ m n : Nat, answers[i]? = some (Answer.number m) ∧
      answers[j]? = some (Answer.number n) ∧ m < n
  /-- Later scans have larger numbers. -/
  scanNumbers_lt : ∀ (i j : Nat) s t, i < j → requests[i]? = some (Request.insertScan s) →
    requests[j]? = some (Request.insertScan t) →
    ∃ m n : Nat, answers[i]? = some (Answer.number m) ∧
      answers[j]? = some (Answer.number n) ∧ m < n
  /-- A name that was found is found as the same binary later. -/
  found_stays : ∀ (i j : Nat) name b, i ≤ j → requests[i]? = some (Request.findBinary name) →
    answers[i]? = some (Answer.binary (some b)) → requests[j]? = some (Request.findBinary name) →
    answers[j]? = some (Answer.binary (some b))
  /-- A command means this binary by the name. -/
  place_stays : ∀ (i j : Nat) name b, i ≤ j → requests[i]? = some (Request.findBinary name) →
    answers[i]? = some (Answer.binary (some b)) → requests[j]? = some (Request.locateBinary name) →
    answers[j]? = some (Answer.place (some (b.name, w.folders.resolve b.path)))

/-- Answers that are each as they have to be make a history. -/
theorem chronicle_of_answers {answers : List Answer} (hlength : answers.length = requests.length)
    (h : ∀ i request, requests[i]? = some request → ∃ answer, answers[i]? = some answer ∧
      IsAnswer w start (requests.take i) request answer) : Chronicle w start requests answers := by
  have hfound : ∀ i name, requests[i]? = some (Request.findBinary name) → answers[i]? =
      some (Answer.binary ((binariesAfter start (requests.take i)).find? (·.name = name))) := by
    intro i name hrequest
    obtain ⟨answer, hanswer, rfl⟩ := h i _ hrequest
    exact hanswer
  -- What is found early is found late: the early list begins the late one.
  have hlater : ∀ (i j : Nat) name b, i ≤ j → requests[i]? = some (Request.findBinary name) →
      answers[i]? = some (Answer.binary (some b)) →
      (binariesAfter start (requests.take j)).find? (·.name = name) = some b := by
    intro i j name b hle hrequest hanswer
    have hsame := (hfound i name hrequest).symm.trans hanswer
    have hfirst := Answer.binary.inj (Option.some.inj hsame)
    have hprefix := (List.prefix_append_right_inj start.binaryTable.contents).mpr
      (isPrefix_filterMap_take Request.binary? requests hle)
    exact hprefix.find?_eq_some hfirst
  constructor
  case length_eq => exact hlength
  case binaries_eq =>
    intro i hrequest
    obtain ⟨answer, hanswer, rfl⟩ := h i _ hrequest
    exact hanswer
  case scans_eq =>
    intro i hrequest
    obtain ⟨answer, hanswer, rfl⟩ := h i _ hrequest
    exact hanswer
  case scansOf_eq =>
    intro i binary hrequest
    obtain ⟨answer, hanswer, rfl⟩ := h i _ hrequest
    exact hanswer
  case found_eq => exact hfound
  case binaryNumbers_lt =>
    intro i j b c hlt hfirst hsecond
    obtain ⟨answer, hanswer, rfl⟩ := h i _ hfirst
    obtain ⟨later, hlaterAnswer, rfl⟩ := h j _ hsecond
    have hrows := length_filterMap_take_lt Request.binary? hfirst rfl hlt
    exact ⟨_, _, hanswer, hlaterAnswer, by omega⟩
  case scanNumbers_lt =>
    intro i j s t hlt hfirst hsecond
    obtain ⟨answer, hanswer, rfl⟩ := h i _ hfirst
    obtain ⟨later, hlaterAnswer, rfl⟩ := h j _ hsecond
    have hrows := length_filterMap_take_lt Request.scan? hfirst rfl hlt
    exact ⟨_, _, hanswer, hlaterAnswer, by omega⟩
  case found_stays =>
    intro i j name b hle hfirst hanswer hsecond
    rw [hfound j name hsecond, hlater i j name b hle hfirst hanswer]
  case place_stays =>
    intro i j name b hle hfirst hanswer hsecond
    obtain ⟨place, hplace, hmeant⟩ := h j _ hsecond
    rw [hplace, hmeant b (hlater i j name b hle hfirst hanswer)]

/-- Whatever is asked of a registry that can be opened, and however often it is opened again, every
request is answered from what the registry held in the beginning and what was added since. -/
theorem exists_chronicle (hread : Keeps files w.registryPath start) (htables : start.HasTables)
    (hversion : start.version ≤ Registry.currentVersion) (requests : List Request) :
    ∃ answers files', Completes ((.reopen :: requests).mapM w.perform) files
        (.opened :: answers) files' ∧ Chronicle w start requests answers := by
  obtain ⟨between, hopen, hkept⟩ := hread.exists_open
    (Registry.migrate_eq_upgraded htables hversion)
  have hopened : Completes (w.perform .reopen) files .opened between :=
    completes_bind.mpr ⟨_, between, hopen, completes_pure.mpr ⟨rfl, rfl⟩⟩
  have hbegin : registryAfter start [] = start.upgraded := Registry.grown_nil start
  rw [← hbegin] at hkept
  obtain ⟨answers, files', hrest, hlength, hanswers⟩ := exists_answers hkept requests
  exact ⟨answers, files',
    completes_mapM_cons.mpr ⟨.opened, between, answers, hopened, hrest, rfl⟩,
    chronicle_of_answers hlength hanswers⟩

/-- A binary under a name that is taken, and two scans. In between the registry is opened again. -/
def repeatedName : List Request :=
  [.findBinary "a", .insertBinary (.new "a" "bin/b.exe"), .insertScan ⟨"a", "", 1, 1, 0, 0, 0, ""⟩,
    .reopen, .insertScan ⟨"b", "", 1, 0, 1, 0, 0, ""⟩, .findBinary "a", .listBinaries,
    .listScans (some "a")]

/-- The workspace of a project in the root folder. -/
def rootWorkspace : Workspace := ⟨⟨"/"⟩, .new "root" "project.db", "project.db", .fresh⟩

/-- A registry of the first version has a binary, which its name means still after another one of
this name was added. Both are listed, and the scans are told apart. -/
theorem exists_chronicle_repeatedName :
    ∃ answers files', Completes ((.reopen :: repeatedName).mapM rootWorkspace.perform)
        (Registry.alone Registry.firstVersion) (.opened :: answers) files' ∧
      answers[5]? = some (.binary (some (.new "a" "bin/a.exe"))) ∧
      answers[6]? = some (.binaries [.new "a" "bin/a.exe", .new "a" "bin/b.exe"]) ∧
      answers[7]? = some (.scans [⟨"a", "", 1, 1, 0, 0, 0, ""⟩]) := by
  have hread : Keeps (Registry.alone Registry.firstVersion) rootWorkspace.registryPath
      Registry.firstVersion := Registry.readRegistry_alone _
  have htables : Registry.firstVersion.HasTables := ⟨by decide, by decide⟩
  obtain ⟨answers, files', hdone, hchronicle⟩ :=
    exists_chronicle hread htables (by decide) repeatedName
  refine ⟨answers, files', hdone, ?_, ?_, ?_⟩
  · exact (hchronicle.found_eq 5 "a" rfl).trans (by decide)
  · exact (hchronicle.binaries_eq 6 rfl).trans (by decide)
  · exact (hchronicle.scansOf_eq 7 "a" rfl).trans (by decide)

end Run

end LayoutWatch.Command.Workspace
