import LayoutWatch.Proofs.Command.Work

/-!
# Work that only reads

Work may fail, and then it leaves the files as they are by then. What is only read leaves them as
they were, whether or not it comes to its end.
-/

namespace LayoutWatch.Command.Work

variable {α β ε : Type} {w w' : FileWorld} {f : Failure}

/-! ## Failing -/

/-- The work fails, and leaves these files. -/
def Fails (work : Work (StateM FileWorld) α) (w : FileWorld) (f : Failure) (w' : FileWorld) :
    Prop :=
  work.run.run w = (.error f, w')

/-- The failure of a result, if it is one. -/
def failure? : Except Failure α → Option Failure
  | .ok _ => none
  | .error f => some f

/-- Work that gives a failure fails. -/
theorem fails_of_failure? {work : Work (StateM FileWorld) α}
    (h : failure? (work.run.run w).1 = some f) : Fails work w f (work.run.run w).2 := by
  rw [Fails]
  cases hrun : work.run.run w with
  | mk result files =>
    rw [hrun] at h
    cases result with
    | ok a => cases h
    | error _ =>
      cases h
      rfl

/-- A result that is there is no failure. -/
@[simp] theorem not_fails_pure (a : α) : ¬Fails (pure a : Work (StateM FileWorld) α) w f w' := by
  rintro ⟨⟩

/-- A question is no failure. -/
@[simp] theorem not_fails_ask (question : StateM FileWorld α) :
    ¬Fails (ask question : Work (StateM FileWorld) α) w f w' := by
  rintro ⟨⟩

/-- Work in two steps fails in one of them. -/
theorem fails_bind {first : Work (StateM FileWorld) α} {next : α → Work (StateM FileWorld) β} :
    Fails (first >>= next) w f w' ↔
      Fails first w f w' ∨
        ∃ a between, Completes first w a between ∧ Fails (next a) between f w' := by
  have hrun : (first >>= next).run.run w =
      (ExceptT.bindCont next (first.run.run w).1).run (first.run.run w).2 := rfl
  rw [Fails, hrun]
  constructor
  · intro h
    cases hfirst : first.run.run w with
    | mk result between =>
      rw [hfirst] at h
      cases result with
      | ok a => exact .inr ⟨a, between, hfirst, h⟩
      | error failure =>
        cases h
        exact .inl hfirst
  · rintro (hfirst | ⟨a, between, hfirst, hnext⟩)
    · rw [hfirst]
      rfl
    · rw [hfirst]
      exact hnext

/-- Work fails in the middle of the activity that it is. -/
theorem fails_during {activity : Activity} {work : Work (StateM FileWorld) α} :
    Fails (during activity work) w f w' ↔ ∃ inner, Fails work w inner w' ∧
      f = inner.during activity := by
  have hrun : (during activity work).run.run w =
      ((work.run.run w).1.mapError (Failure.during activity), (work.run.run w).2) := rfl
  simp only [Fails, hrun]
  cases work.run.run w with
  | mk result between =>
    cases result with
    | ok b =>
      constructor
      · rintro ⟨⟩
      · rintro ⟨inner, ⟨⟩, -⟩
    | error failure =>
      constructor
      · rintro ⟨⟩
        exact ⟨failure, rfl, rfl⟩
      · rintro ⟨inner, ⟨⟩, rfl⟩
        rfl

/-! ## Keeping the files -/

/-- The work leaves the files as they are, whether or not it comes to its end. -/
def KeepsFiles (work : Work (StateM FileWorld) α) : Prop := ∀ w, (work.run.run w).2 = w

namespace KeepsFiles

variable {work : Work (StateM FileWorld) α}

/-- The files are the same at the end. -/
theorem eq_of_completes (h : KeepsFiles work) {a : α} (hwork : Completes work w a w') :
    w = w' := by
  have hkept := h w
  rw [hwork] at hkept
  exact hkept.symm

/-- The files are the same after a failure. -/
theorem eq_of_fails (h : KeepsFiles work) (hwork : Fails work w f w') : w = w' := by
  have hkept := h w
  rw [hwork] at hkept
  exact hkept.symm

/-- Files are kept in two steps that keep them. -/
theorem bind {next : α → Work (StateM FileWorld) β} (h : KeepsFiles work)
    (hnext : ∀ a, KeepsFiles (next a)) : KeepsFiles (work >>= next) := by
  intro w
  cases hrun : (work >>= next).run.run w with
  | mk result files =>
    cases result with
    | ok b =>
      obtain ⟨a, between, hfirst, hrest⟩ := completes_bind.mp hrun
      exact ((h.eq_of_completes hfirst).trans ((hnext a).eq_of_completes hrest)).symm
    | error failure =>
      rcases fails_bind.mp hrun with hfirst | ⟨a, between, hfirst, hrest⟩
      · exact (h.eq_of_fails hfirst).symm
      · exact ((h.eq_of_completes hfirst).trans ((hnext a).eq_of_fails hrest)).symm

/-- Files are kept as part of an activity. -/
theorem during (h : KeepsFiles work) (activity : Activity) : KeepsFiles (during activity work) :=
  h

end KeepsFiles

/-- Nothing is changed for a result that is there. -/
theorem keepsFiles_pure (a : α) : KeepsFiles (pure a : Work (StateM FileWorld) α) := fun _ => rfl

/-- Nothing is changed by giving up. -/
theorem keepsFiles_giveUp (cause : Cause) :
    KeepsFiles (giveUp cause : Work (StateM FileWorld) α) := fun _ => rfl

/-- A question changes nothing. -/
theorem keepsFiles_ask (question : FileWorld → α) :
    KeepsFiles (ask (FileWorld.ask question)) := fun _ => rfl

/-- Going on with a result changes nothing. -/
theorem keepsFiles_ofResult (cause : ε → Cause) (result : Except ε α) :
    KeepsFiles (ofResult cause result : Work (StateM FileWorld) α) := by
  cases result with
  | ok a => exact keepsFiles_pure a
  | error fault => exact keepsFiles_giveUp _

/-- Going on with a value changes nothing. -/
theorem keepsFiles_ofOption (cause : Cause) (value : Option α) :
    KeepsFiles (ofOption cause value : Work (StateM FileWorld) α) := by
  cases value with
  | some a => exact keepsFiles_pure a
  | none => exact keepsFiles_giveUp _

/-- An action that changes nothing may fail. -/
theorem keepsFiles_ofAction (cause : ε → Cause) {action : StateM FileWorld (Except ε α)}
    (h : ∀ w, (action.run w).2 = w) : KeepsFiles (ofAction cause action) := by
  intro w
  have hrun : (ofAction cause action).run.run w =
      (ofResult cause (action.run w).1 : Work (StateM FileWorld) α).run.run (action.run w).2 := rfl
  rw [hrun, h]
  exact keepsFiles_ofResult cause _ w

/-- A text is only read. -/
theorem keepsFiles_readText (path : String) :
    KeepsFiles (ofAction .file (FileSystem.readText path)) := by
  refine keepsFiles_ofAction _ fun w => ?_
  rw [run_readText]

/-- A list is worked on without changes if each element is. -/
theorem keepsFiles_mapM {step : α → Work (StateM FileWorld) β} (h : ∀ a, KeepsFiles (step a))
    (l : List α) : KeepsFiles (l.mapM step) := by
  induction l with
  | nil => exact keepsFiles_pure _
  | cons a l ih =>
    rw [List.mapM_cons]
    exact (h a).bind fun b => ih.bind fun rest => keepsFiles_pure _

/-- Questions about the elements of a list change nothing. -/
theorem keepsFiles_filterM {question : α → Work (StateM FileWorld) Bool}
    (h : ∀ a, KeepsFiles (question a)) (l : List α) : KeepsFiles (l.filterM question) := by
  have haux : ∀ (l done : List α), KeepsFiles (List.filterAuxM question l done) := by
    intro l
    induction l with
    | nil => exact fun _ => keepsFiles_pure _
    | cons a l ih => exact fun done => (h a).bind fun kept => ih _
  exact (haux l []).bind fun _ => keepsFiles_pure _

end LayoutWatch.Command.Work

namespace LayoutWatch.Command

open Work

/-! ## What commands read -/

/-- Finding a binary changes nothing. -/
theorem keepsFiles_locateBinary (workspace : Workspace) (binary : String) :
    KeepsFiles (workspace.locateBinary binary : Work (StateM FileWorld) _) := by
  refine ((keepsFiles_ofResult _ _).during _).bind fun registered => ?_
  cases registered with
  | some registered => exact keepsFiles_pure _
  | none =>
    refine (keepsFiles_ask _).bind fun there => ?_
    cases there with
    | true => exact keepsFiles_pure _
    | false => exact keepsFiles_giveUp _

/-- Loading a layout changes nothing. -/
theorem keepsFiles_loadLayout (path : String) :
    KeepsFiles (loadLayout path : Work (StateM FileWorld) _) :=
  ((keepsFiles_readText _).during _).bind fun _ => (keepsFiles_ofOption _ _).during _

/-- Loading a binary changes nothing. -/
theorem keepsFiles_loadBinary (path : String) :
    KeepsFiles (loadBinary path : Work (StateM FileWorld) _) :=
  (keepsFiles_ofAction _ fun _ => rfl).bind fun _ => keepsFiles_pure _

/-- Loading a file of signatures changes nothing. -/
theorem keepsFiles_loadSignatures (path : String) :
    KeepsFiles (loadSignatures path : Work (StateM FileWorld) _) :=
  ((keepsFiles_readText _).bind fun _ => (keepsFiles_ofOption _ _).bind fun _ =>
    keepsFiles_pure _).during _

/-- Listing the files of signatures changes nothing. -/
theorem keepsFiles_signatureFiles (folder : String) :
    KeepsFiles (signatureFiles folder : Work (StateM FileWorld) _) := by
  refine (keepsFiles_ask _).bind fun there => ?_
  cases there with
  | false => exact keepsFiles_pure _
  | true =>
    exact ((keepsFiles_ofAction _ fun _ => rfl).during _).bind fun _ =>
      keepsFiles_filterM (fun _ => keepsFiles_ask _) _

end LayoutWatch.Command
