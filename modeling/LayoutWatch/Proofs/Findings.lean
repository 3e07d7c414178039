import LayoutWatch.Proofs.Verification

/-!
# The findings in total

The findings are made observation by observation, and what an undeclared struct gives depends on
the observations in front. In total they are one finding for each undeclared struct that was seen,
and one for each observation of an undeclared field or of another offset.
-/

namespace LayoutWatch

namespace Verification

variable {layout : Layout}

/-- The struct of an observation is not declared. -/
def isUndeclared (layout : Layout) (o : Observation) : Bool :=
  (layout.struct? o.structName).isNone

/-- Names of the undeclared structs that were seen, one for each observation. -/
def undeclaredStructs (layout : Layout) (observations : List Observation) : List String :=
  (observations.filter (isUndeclared layout)).map (·.structName)

/-- The finding that a struct is not declared, by its name alone. -/
def undeclaredStruct (structName : String) : Issue := structNotFound ⟨structName, "", 0, 0⟩

/-- The finding that an observation of a declared struct amounts to. -/
def finding? (layout : Layout) (o : Observation) : Option Issue :=
  match judge layout o with
  | .unknownField => some (missingField o)
  | .differs declared => some (offsetMismatch o declared)
  | .unknownStruct | .anchor | .agrees => none

/-- An observation is of an undeclared struct exactly when it is judged so. -/
theorem isUndeclared_iff {o : Observation} :
    isUndeclared layout o = true ↔ judge layout o = .unknownStruct := by
  rw [isUndeclared, Option.isNone_iff_eq_none, judge]
  cases layout.struct? o.structName with
  | none => simp
  | some s => grind

/-- Only an observation of a struct that is not declared adds a name to the undeclared ones. -/
theorem undeclaredStructs_cons (o : Observation) (rest : List Observation) :
    undeclaredStructs layout (o :: rest) =
      if judge layout o = .unknownStruct then o.structName :: undeclaredStructs layout rest
      else undeclaredStructs layout rest := by
  by_cases hjudge : judge layout o = .unknownStruct
  · simp [undeclaredStructs, isUndeclared_iff.mpr hjudge, hjudge]
  · have hdeclared : isUndeclared layout o = false :=
      Bool.eq_false_iff.mpr fun h => hjudge (isUndeclared_iff.mp h)
    simp [undeclaredStructs, hdeclared, hjudge]

/-- The findings of the observations are those of the undeclared structs that have not been
reported, each once, and those of the other observations. -/
theorem findings_perm_of_reported (layout : Layout) (reported : List String)
    (observations : List Observation) :
    (findings layout reported observations).Perm
      (((undeclaredStructs layout observations).filter (!reported.contains ·)).eraseDups.map
        undeclaredStruct ++ observations.filterMap (finding? layout)) := by
  fun_induction findings layout reported observations with
  | case1 => exact List.Perm.refl _
  | case2 reported o rest hjudge hreported ih =>
    have hnone : finding? layout o = none := by simp [finding?, hjudge]
    rw [undeclaredStructs_cons, if_pos hjudge, List.filter_cons_of_neg (by simpa using hreported),
      List.filterMap_cons_none hnone]
    exact ih
  | case3 reported o rest hjudge hfresh ih =>
    have hnone : finding? layout o = none := by simp [finding?, hjudge]
    -- The struct is among those that are reported before the rest is looked at.
    have hlater : ((undeclaredStructs layout rest).filter (!reported.contains ·)).filter
        (fun name => !name == o.structName) =
          (undeclaredStructs layout rest).filter (!(o.structName :: reported).contains ·) := by
      rw [List.filter_filter]
      exact List.filter_congr fun name _ => by rw [List.contains_cons, Bool.not_or]
    rw [undeclaredStructs_cons, if_pos hjudge, List.filter_cons_of_pos (by simpa using hfresh),
      List.filterMap_cons_none hnone, List.eraseDups_cons, hlater, List.map_cons, List.cons_append]
    exact ih.cons _
  | case4 reported o rest hjudge ih =>
    have hsome : finding? layout o = some (missingField o) := by simp [finding?, hjudge]
    rw [undeclaredStructs_cons, if_neg (by simp [hjudge]), List.filterMap_cons_some hsome]
    exact (ih.cons _).trans List.perm_middle.symm
  | case5 reported o rest declared hjudge ih =>
    have hsome : finding? layout o = some (offsetMismatch o declared) := by
      simp [finding?, hjudge]
    rw [undeclaredStructs_cons, if_neg (by simp [hjudge]), List.filterMap_cons_some hsome]
    exact (ih.cons _).trans List.perm_middle.symm
  | case6 reported o rest hjudge ih =>
    have hnone : finding? layout o = none := by simp [finding?, hjudge]
    rw [undeclaredStructs_cons, if_neg (by simp [hjudge]), List.filterMap_cons_none hnone]
    exact ih
  | case7 reported o rest hjudge ih =>
    have hnone : finding? layout o = none := by simp [finding?, hjudge]
    rw [undeclaredStructs_cons, if_neg (by simp [hjudge]), List.filterMap_cons_none hnone]
    exact ih

/-- The findings of the observations are one for each undeclared struct that was seen, and those of
the other observations. -/
theorem findings_perm (layout : Layout) (observations : List Observation) :
    (findings layout [] observations).Perm
      ((undeclaredStructs layout observations).eraseDups.map undeclaredStruct ++
        observations.filterMap (finding? layout)) := by
  have hall : (undeclaredStructs layout observations).filter
      (fun name => !([] : List String).contains name) = undeclaredStructs layout observations :=
    List.filter_eq_self.mpr fun _ _ => rfl
  have hperm := findings_perm_of_reported layout [] observations
  rwa [hall] at hperm

end Verification

end LayoutWatch
