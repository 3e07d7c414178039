import LayoutWatch.Command.Sources
import LayoutWatch.Files.Tree

/-!
# Work on a tree of files

Work that is done on a tree of files comes to its end with a result and with the files as they are
then. What it takes to come to the end is told step by step.
-/

namespace LayoutWatch.Command.Work

variable {α β ε : Type} {w w' : FileWorld}

/-- The work comes to its end with this result and these files. -/
def Completes (work : Work (StateM FileWorld) α) (w : FileWorld) (a : α) (w' : FileWorld) : Prop :=
  work.run.run w = (.ok a, w')

/-- Work comes to one end. -/
theorem Completes.unique {work : Work (StateM FileWorld) α} {a b : α} {w'' : FileWorld}
    (h : Completes work w a w') (h' : Completes work w b w'') : a = b ∧ w' = w'' := by
  cases h.symm.trans h'
  exact ⟨rfl, rfl⟩

/-- Work that gives a result comes to its end. -/
theorem exists_completes {work : Work (StateM FileWorld) α} {f : α → β} {b : β}
    (h : (work.run.run w).1.toOption.map f = some b) :
    ∃ a, Completes work w a (work.run.run w).2 ∧ f a = b := by
  obtain ⟨a, ha, hb⟩ := Option.map_eq_some_iff.mp h
  refine ⟨a, ?_, hb⟩
  rw [Completes]
  cases hrun : work.run.run w with
  | mk result files =>
    rw [hrun] at ha
    cases result with
    | error failure => cases ha
    | ok _ =>
      cases ha
      rfl

/-- Nothing is done for a result that is there. -/
@[simp] theorem completes_pure {a b : α} :
    Completes (pure a) w b w' ↔ a = b ∧ w = w' := by
  constructor
  · rintro ⟨⟩
    exact ⟨rfl, rfl⟩
  · rintro ⟨rfl, rfl⟩
    rfl

/-- Work is done in two steps. -/
theorem completes_bind {first : Work (StateM FileWorld) α}
    {next : α → Work (StateM FileWorld) β} {b : β} :
    Completes (first >>= next) w b w' ↔
      ∃ a between, Completes first w a between ∧ Completes (next a) between b w' := by
  have hrun : (first >>= next).run.run w =
      (ExceptT.bindCont next (first.run.run w).1).run (first.run.run w).2 := rfl
  rw [Completes, hrun]
  constructor
  · intro h
    cases hfirst : first.run.run w with
    | mk result between =>
      rw [hfirst] at h
      cases result with
      | ok a => exact ⟨a, between, hfirst, h⟩
      | error failure => cases h
  · rintro ⟨a, between, hfirst, hnext⟩
    rw [hfirst]
    exact hnext

/-- After a step that only reads, work goes on with what was read. -/
theorem completes_bind_of_reads {first : Work (StateM FileWorld) α}
    {next : α → Work (StateM FileWorld) β} {read : α} {b : β}
    (h : ∀ a between, Completes first w a between ↔ read = a ∧ w = between) :
    Completes (first >>= next) w b w' ↔ Completes (next read) w b w' := by
  rw [completes_bind]
  constructor
  · rintro ⟨a, between, hfirst, hnext⟩
    obtain ⟨rfl, rfl⟩ := (h a between).mp hfirst
    exact hnext
  · intro hnext
    exact ⟨read, w, (h read w).mpr ⟨rfl, rfl⟩, hnext⟩

/-- What work is part of does not matter while it goes well. -/
@[simp] theorem completes_during {activity : Activity} {work : Work (StateM FileWorld) α} {a : α} :
    Completes (during activity work) w a w' ↔ Completes work w a w' := by
  have hrun : (during activity work).run.run w =
      ((work.run.run w).1.mapError (Failure.during activity), (work.run.run w).2) := rfl
  rw [Completes, Completes, hrun]
  cases work.run.run w with
  | mk result between =>
    cases result with
    | ok b => exact Iff.rfl
    | error failure => constructor <;> rintro ⟨⟩

/-- A question leaves the files as they are. -/
@[simp] theorem completes_ask {question : FileWorld → α} {a : α} :
    Completes (ask (FileWorld.ask question)) w a w' ↔ question w = a ∧ w = w' := by
  constructor
  · rintro ⟨⟩
    exact ⟨rfl, rfl⟩
  · rintro ⟨rfl, rfl⟩
    rfl

/-- A result that is there leaves the files as they are. -/
@[simp] theorem completes_ofResult {cause : ε → Cause} {result : Except ε α} {a : α} :
    Completes (ofResult cause result) w a w' ↔ result = .ok a ∧ w = w' := by
  cases result with
  | ok b => simp [ofResult]
  | error fault =>
    constructor
    · rintro ⟨⟩
    · rintro ⟨⟨⟩, -⟩

/-- A value that is there leaves the files as they are. -/
@[simp] theorem completes_ofOption {cause : Cause} {value : Option α} {a : α} :
    Completes (ofOption cause value) w a w' ↔ value = some a ∧ w = w' := by
  cases value with
  | some b => simp [ofOption]
  | none =>
    constructor
    · rintro ⟨⟩
    · rintro ⟨⟨⟩, -⟩

/-- An action has to go well. -/
@[simp] theorem completes_ofAction {cause : ε → Cause} {action : StateM FileWorld (Except ε α)}
    {a : α} :
    Completes (ofAction cause action) w a w' ↔ action.run w = (.ok a, w') := by
  have hrun : (ofAction cause action).run.run w =
      (ofResult cause (action.run w).1 : Work (StateM FileWorld) α).run.run (action.run w).2 := rfl
  rw [Completes, hrun]
  cases action.run w with
  | mk result between =>
    rw [Prod.mk.injEq]
    exact completes_ofResult

/-! ## Lists -/

/-- Work on each element of a list is work on the first one and on the rest. -/
theorem completes_mapM_cons {step : α → Work (StateM FileWorld) β} {a : α} {l : List α}
    {results : List β} :
    Completes ((a :: l).mapM step) w results w' ↔
      ∃ b between rest, Completes (step a) w b between ∧
        Completes (l.mapM step) between rest w' ∧ results = b :: rest := by
  rw [List.mapM_cons, completes_bind]
  constructor
  · rintro ⟨b, between, hb, hmore⟩
    obtain ⟨rest, last, hrest, hresults⟩ := completes_bind.mp hmore
    obtain ⟨rfl, rfl⟩ := completes_pure.mp hresults
    exact ⟨b, between, rest, hb, hrest, rfl⟩
  · rintro ⟨b, between, rest, hb, hrest, rfl⟩
    exact ⟨b, between, hb, completes_bind.mpr ⟨rest, w', hrest, completes_pure.mpr ⟨rfl, rfl⟩⟩⟩

/-- Work on no elements does nothing. -/
@[simp] theorem completes_mapM_nil {step : α → Work (StateM FileWorld) β} {results : List β} :
    Completes ([].mapM step) w results w' ↔ results = [] ∧ w = w' := by
  simp [eq_comm]

/-- Work on each element of a list only reads where it does so for each element. -/
theorem completes_mapM {step : α → Work (StateM FileWorld) β} {read? : α → Option β}
    {l : List α} (h : ∀ a ∈ l, ∀ b w', Completes (step a) w b w' ↔ read? a = some b ∧ w = w')
    {results : List β} :
    Completes (l.mapM step) w results w' ↔ l.mapM read? = some results ∧ w = w' := by
  induction l generalizing results w' with
  | nil =>
    rw [completes_mapM_nil, List.mapM_nil]
    refine and_congr_left fun _ => ⟨?_, ?_⟩ <;> rintro ⟨⟩ <;> rfl
  | cons a l ih =>
    obtain ⟨ha, hl⟩ := List.forall_mem_cons.mp h
    rw [completes_mapM_cons, List.mapM_cons]
    constructor
    · rintro ⟨b, between, rest, hb, hrest, rfl⟩
      obtain ⟨hread, rfl⟩ := (ha b between).mp hb
      obtain ⟨hmore, rfl⟩ := (ih hl).mp hrest
      rw [hread, hmore]
      exact ⟨rfl, rfl⟩
    · rintro ⟨hresults, rfl⟩
      obtain ⟨b, hb, hresults⟩ := Option.bind_eq_some_iff.mp hresults
      obtain ⟨rest, hrest, hresults⟩ := Option.bind_eq_some_iff.mp hresults
      cases hresults
      exact ⟨b, w, rest, (ha b w).mpr ⟨hb, rfl⟩, (ih hl).mpr ⟨hrest, rfl⟩, rfl⟩

/-- Only what passes a question is kept. -/
theorem completes_filterM {question : α → Work (StateM FileWorld) Bool} {p : α → Bool}
    {l : List α} (h : ∀ a ∈ l, ∀ b w', Completes (question a) w b w' ↔ p a = b ∧ w = w')
    {kept : List α} :
    Completes (l.filterM question) w kept w' ↔ l.filter p = kept ∧ w = w' := by
  -- The elements that are kept so far stand last first.
  have haux : ∀ l : List α,
      (∀ a ∈ l, ∀ b w', Completes (question a) w b w' ↔ p a = b ∧ w = w') →
      ∀ done kept w', Completes (List.filterAuxM question l done) w kept w' ↔
        (l.filter p).reverse ++ done = kept ∧ w = w' := by
    intro l
    induction l with
    | nil =>
      intro _ done kept w'
      exact completes_pure
    | cons a l ih =>
      intro h done kept w'
      obtain ⟨ha, hl⟩ := List.forall_mem_cons.mp h
      rw [List.filterAuxM, completes_bind]
      constructor
      · rintro ⟨b, between, hb, hrest⟩
        obtain ⟨rfl, rfl⟩ := (ha b between).mp hb
        obtain ⟨rfl, rfl⟩ := (ih hl _ kept w').mp hrest
        cases hkept : p a <;> simp [hkept]
      · rintro ⟨rfl, rfl⟩
        refine ⟨p a, w, (ha _ w).mpr ⟨rfl, rfl⟩, (ih hl _ _ w).mpr ⟨?_, rfl⟩⟩
        cases hkept : p a <;> simp [hkept]
  rw [List.filterM, completes_bind]
  constructor
  · rintro ⟨reversed, between, hreversed, hkept⟩
    obtain ⟨rfl, rfl⟩ := (haux l h [] reversed between).mp hreversed
    obtain ⟨rfl, rfl⟩ := completes_pure.mp hkept
    simp
  · rintro ⟨rfl, rfl⟩
    exact ⟨_, w, (haux l h [] _ w).mpr ⟨rfl, rfl⟩, completes_pure.mpr (by simp)⟩

/-! ## Files -/

/-- Two actions are done one after the other. -/
theorem run_bind (first : StateM FileWorld α) (next : α → StateM FileWorld β) :
    (first >>= next).run w = (next (first.run w).1).run (first.run w).2 := rfl

/-- A change of the files has to be possible. -/
theorem run_change {action : FileWorld → Except ε FileTree} :
    (FileWorld.change action).run w = (.ok (), w') ↔
      ∃ tree, action w = .ok tree ∧ w' = { w with tree } := by
  have hrun : (FileWorld.change action).run w = FileWorld.change action w := rfl
  rw [hrun, FileWorld.change]
  cases action w with
  | error fault =>
    constructor
    · rintro ⟨⟩
    · rintro ⟨tree, ⟨⟩, -⟩
  | ok tree =>
    constructor
    · rintro ⟨⟩
      exact ⟨tree, rfl, rfl⟩
    · rintro ⟨_, ⟨⟩, rfl⟩
      rfl

/-- A text is what the bytes of a file stand for. -/
theorem run_readText (w : FileWorld) (path : String) :
    (FileSystem.readText path : StateM FileWorld _).run w =
      ((w.tree.read w.workingFolder path).bind fun bytes =>
        bytes.text?.elim (.error .notText) .ok, w) := by
  have hread : (FileSystem.read path : StateM FileWorld _).run w =
      (w.tree.read w.workingFolder path, w) := rfl
  rw [FileSystem.readText, run_bind, hread]
  cases w.tree.read w.workingFolder path with
  | error fault => rfl
  | ok bytes =>
    dsimp only [Except.bind]
    cases bytes.text? <;> rfl

/-- A text is read from a file that holds one. -/
theorem completes_readText {path text : String} :
    Completes (ofAction .file (FileSystem.readText path)) w text w' ↔
      (w.tree.read w.workingFolder path).toOption.bind Bytes.text? = some text ∧ w = w' := by
  rw [completes_ofAction, run_readText, Prod.mk.injEq]
  refine and_congr_left fun _ => ?_
  cases w.tree.read w.workingFolder path with
  | error fault => constructor <;> rintro ⟨⟩
  | ok bytes => cases htext : bytes.text? <;> simp [Except.bind, Except.toOption, htext]

/-- A text is written to a file. -/
theorem completes_writeText {path text : String} :
    Completes (ofAction .file (FileSystem.writeText path text)) w () w' ↔
      ∃ tree, w.tree.write w.workingFolder path (.ofText text) = .ok tree ∧
        w' = { w with tree } :=
  completes_ofAction.trans run_change

/-- Folders are made on the way to a path. -/
theorem completes_makeFolder {activity : Activity} {path : String} :
    Completes (makeFolder activity path) w () w' ↔
      ∃ tree, w.tree.makeFolders w.workingFolder path = (tree, .ok ()) ∧
        w' = { w with tree } := by
  rw [makeFolder, completes_during, completes_ofAction]
  change ((w.tree.makeFolders w.workingFolder path).2,
    { w with tree := (w.tree.makeFolders w.workingFolder path).1 }) = _ ↔ _
  cases w.tree.makeFolders w.workingFolder path with
  | mk tree result =>
    constructor
    · rintro ⟨⟩
      exact ⟨tree, rfl, rfl⟩
    · rintro ⟨_, ⟨⟩, rfl⟩
      rfl

/-- The names in a folder are read. -/
theorem completes_names {path : String} {names : List String} :
    Completes (ofAction .file (FileSystem.names path)) w names w' ↔
      w.tree.names w.workingFolder path = .ok names ∧ w = w' := by
  rw [completes_ofAction]
  change (w.tree.names w.workingFolder path, w) = _ ↔ _
  rw [Prod.mk.injEq]

/-- What stands at a path. -/
def kindAt? (w : FileWorld) (path : String) : Option FileKind :=
  (w.tree.find w.workingFolder path).toOption.map fun
    | (_, .folder) => .folder
    | (_, .file _) => .file
    | (_, .registry _) => .file

/-- It is asked whether something of a kind stands at a path. -/
theorem completes_isThere {kind : FileKind} {path : String} {there : Bool} :
    Completes (ask (isThere kind path)) w there w' ↔
      decide (kindAt? w path = some kind) = there ∧ w = w' :=
  completes_ask

/-- A registry is opened: it is read, brought up to the current form, and kept so. -/
theorem completes_openRegistry {path : String} {registry : Project.Registry} :
    Completes (ofAction .registry (FileSystem.openRegistry path)) w registry w' ↔
      ∃ stored tree, w.tree.readRegistry w.workingFolder path = .ok stored ∧
        stored.migrate = .ok registry ∧
        w.tree.writeRegistry w.workingFolder path registry = .ok tree ∧
        w' = { w with tree } := by
  have hread : (FileSystem.readRegistry path : StateM FileWorld _).run w =
      (w.tree.readRegistry w.workingFolder path, w) := rfl
  rw [completes_ofAction, FileSystem.openRegistry, run_bind, hread]
  dsimp only
  cases w.tree.readRegistry w.workingFolder path with
  | error fault =>
    constructor
    · rintro ⟨⟩
    · rintro ⟨stored, tree, ⟨⟩, -⟩
  | ok stored =>
    dsimp only
    cases hmigrate : stored.migrate with
    | error fault =>
      constructor
      · rintro ⟨⟩
      · rintro ⟨_, tree, ⟨⟩, hcurrent, -⟩
        rw [hmigrate] at hcurrent
        cases hcurrent
    | ok current =>
      dsimp only
      rw [run_bind]
      constructor
      · intro h
        cases hresult : (FileSystem.writeRegistry path current : StateM FileWorld _).run w with
        | mk result files =>
          rw [hresult] at h
          cases result with
          | error fault => cases h
          | ok done =>
            cases h
            obtain ⟨tree, hwritten, rfl⟩ := run_change.mp hresult
            exact ⟨stored, tree, rfl, hmigrate, hwritten, rfl⟩
      · rintro ⟨_, tree, ⟨⟩, hcurrent, hwritten, rfl⟩
        rw [hmigrate] at hcurrent
        cases hcurrent
        have hresult : (FileSystem.writeRegistry path registry : StateM FileWorld _).run w =
            (.ok (), { w with tree }) := run_change.mpr ⟨tree, hwritten, rfl⟩
        rw [hresult]
        rfl

end LayoutWatch.Command.Work
