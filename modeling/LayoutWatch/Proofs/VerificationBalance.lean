import LayoutWatch.Proofs.BulkShift
import LayoutWatch.Proofs.Findings

/-!
# The balance of a verification

Each observation agrees with the layout, is reported or is of an undeclared struct, and each
declared field was seen or is reported. Each offset mismatch is suggested as a patch or left for a
review, and the shifts of the families are voted on by the mismatches alone.
-/

namespace LayoutWatch

/-- The finding is about this observation. -/
structure Issue.Reports (i : Issue) (o : Observation) : Prop where
  /-- It names the struct. -/
  structName_eq : i.structName = o.structName
  /-- It names the field. -/
  fieldName_eq : i.fieldName = some o.fieldName
  /-- It gives the observed offset. -/
  observedOffset_eq : i.observedOffset = some o.observedOffset
  /-- It gives the score of the observation. -/
  confidence_eq : i.confidence = some o.confidence

/-- The patch says the same as an offset mismatch. -/
structure Patch.Restates (p : Patch) (i : Issue) : Prop where
  /-- Both name the struct. -/
  structName_eq : i.structName = p.structName
  /-- Both name the field. -/
  fieldName_eq : i.fieldName = some p.fieldName
  /-- The offset to be patched is the declared one. -/
  declaredOffset_eq : i.declaredOffset = some p.currentOffset
  /-- The suggested offset is the observed one. -/
  observedOffset_eq : i.observedOffset = some p.suggestedOffset
  /-- Both give the same distance. -/
  delta_eq : i.delta = some p.delta
  /-- Both give the same score. -/
  confidence_eq : i.confidence = some p.confidence

/-- The observation is checked against a field that stands at another offset. -/
def Layout.differs (l : Layout) (o : Observation) : Bool :=
  (l.checkedField? o.structName o.fieldName).any (·.offset != o.observedOffset)

namespace Verification

/-- Number of findings of a kind. -/
def tally (v : Verification) (kind : Issue.Kind) : Nat := v.issues.countP (·.kind = kind)

/-- The offset mismatches among the findings. -/
def mismatches (v : Verification) : List Issue := v.issues.filter (·.kind = .offsetMismatch)

/-- A verification accounts for every observation and for every declared field. -/
structure Balances (v : Verification) (layout : Layout) (observations : List Observation) :
    Prop where
  /-- Every observation is checked. -/
  checked_eq : v.checked = observations.length
  /-- Each agrees with the layout, is reported or is of an undeclared struct. -/
  observations_eq : v.checked = v.matched + v.tally .offsetMismatch + v.tally .missingField +
    observations.countP fun o => (layout.struct? o.structName).isNone
  /-- Every undeclared struct that was seen is reported once. -/
  structs_eq : v.tally .structNotFound = ((observations.filter fun o =>
    (layout.struct? o.structName).isNone).map (·.structName)).toFinset.card
  /-- The offset mismatches are those of the observations that differ, in their order. -/
  mismatches_forall₂ : List.Forall₂ Issue.Reports v.mismatches (observations.filter layout.differs)
  /-- Each of them is suggested as a patch or left for a review. -/
  suggestions_eq : v.patches.length + v.manualReview.length = v.tally .offsetMismatch
  /-- Those with a score of at least 70 are patches, in their order. -/
  patches_forall₂ : List.Forall₂ Patch.Restates v.patches
    (v.mismatches.filter fun i => i.confidence.any (70 ≤ ·))
  /-- The others are left for a review, in their order. -/
  manualReview_forall₂ : List.Forall₂ Patch.Restates v.manualReview
    (v.mismatches.filter fun i => i.confidence.any (· < 70))
  /-- Every declared field is seen or reported. -/
  fields_eq : v.tally .uncoveredField + v.coverage.observed = v.coverage.declared
  /-- The declared fields are those of the layout. -/
  declared_eq : v.coverage.declared = layout.declarations.length
  /-- A mismatch is an error exactly when its distance is above 0x100. -/
  severity_iff : ∀ i ∈ v.mismatches, ∃ delta, i.delta = some delta ∧
    (i.severity = .error ↔ 0x100 < delta.natAbs)
  /-- No mismatch is a candidate of two bulk shifts. -/
  candidates_le : (v.bulkShifts.map (·.totalCandidates)).sum ≤ v.tally .offsetMismatch

section Counting

variable {layout : Layout} {observations : List Observation}

/-- An observation differs exactly when it is judged so. -/
theorem differs_iff (layout : Layout) (o : Observation) :
    layout.differs o = true ↔ ∃ declared, judge layout o = .differs declared := by
  have hchecked : (∃ declared, judge layout o = .differs declared ∧ True) ↔
      ∃ f, layout.checkedField? o.structName o.fieldName = some f ∧
        f.offset ≠ o.observedOffset ∧ True := exists_differs_iff
  simp only [and_true] at hchecked
  rw [hchecked, Layout.differs, Option.any_eq_true]
  simp only [bne_iff_ne]

/-- Among findings of one kind those of a kind are all of them or none. -/
theorem countP_kind {issues : List Issue} {own : Issue.Kind} (h : ∀ i ∈ issues, i.kind = own)
    (kind : Issue.Kind) :
    issues.countP (·.kind = kind) = if own = kind then issues.length else 0 := by
  split
  · next heq => exact List.countP_eq_length.mpr fun i hi => decide_eq_true ((h i hi).trans heq)
  · next hne =>
    refine List.countP_eq_zero.mpr fun i hi hkind => hne ?_
    rw [← h i hi, of_decide_eq_true hkind]

/-- Findings of a kind are counted among those of the undeclared structs, of the other observations
and of the fields that are not covered. -/
theorem tally_eq (layout : Layout) (observations : List Observation) (kind : Issue.Kind) :
    (ofObservations layout observations).tally kind =
      (if .structNotFound = kind then
          (undeclaredStructs layout observations).toFinset.card else 0) +
        observations.countP (fun o => (finding? layout o).any (·.kind = kind)) +
        (if .uncoveredField = kind then
          layout.declarations.countP fun d => !isCovered layout observations d else 0) := by
  have hstructs : ∀ names : List String, ∀ i ∈ names.map undeclaredStruct,
      i.kind = .structNotFound := by
    intro names i hi
    obtain ⟨name, -, rfl⟩ := List.mem_map.mp hi
    rfl
  have hfields : ∀ fields : List Declaration, ∀ i ∈ fields.map uncoveredField,
      i.kind = .uncoveredField := by
    intro fields i hi
    obtain ⟨d, -, rfl⟩ := List.mem_map.mp hi
    rfl
  have hothers : (observations.filterMap (finding? layout)).countP (·.kind = kind) =
      observations.countP fun o => (finding? layout o).any (·.kind = kind) := by
    rw [List.countP_filterMap]
    refine List.countP_congr fun o _ => ?_
    cases finding? layout o <;> simp
  rw [tally, ofObservations, List.countP_append, (findings_perm layout observations).countP_eq,
    List.countP_append, countP_kind (hstructs _), countP_kind (hfields _), hothers,
    List.length_map, List.length_map, Ordered.length_eraseDups, ← List.countP_eq_length_filter]

/-- The finding of an observation of a declared struct says that the field is not declared or that
it was seen at another offset. -/
theorem any_finding? (o : Observation) (kind : Issue.Kind) :
    (finding? layout o).any (·.kind = kind) =
      (decide (kind = .missingField ∧ judge layout o = .unknownField) ||
        decide (kind = .offsetMismatch) && layout.differs o) := by
  have hdiffers := differs_iff layout o
  cases hjudge : judge layout o <;> cases kind <;>
    simp_all [finding?, missingField, offsetMismatch]

/-- Every undeclared struct that was seen is reported once. -/
theorem tally_structNotFound : (ofObservations layout observations).tally .structNotFound =
    (undeclaredStructs layout observations).toFinset.card := by
  simp [tally_eq, any_finding?]

/-- An observation of an undeclared field is reported as that. -/
theorem tally_missingField : (ofObservations layout observations).tally .missingField =
    observations.countP fun o => judge layout o = .unknownField := by
  simp [tally_eq, any_finding?]

/-- An observation that differs is reported as a mismatch. -/
theorem tally_offsetMismatch : (ofObservations layout observations).tally .offsetMismatch =
    observations.countP layout.differs := by
  simp [tally_eq, any_finding?]

/-- A declared field that is not covered is reported as that. -/
theorem tally_uncoveredField : (ofObservations layout observations).tally .uncoveredField =
    layout.declarations.countP fun d => !isCovered layout observations d := by
  simp [tally_eq, any_finding?]

/-- Every observation agrees with the layout, differs from it, or is of an undeclared field or of an
undeclared struct. -/
theorem length_eq_countP_verdicts (layout : Layout) (observations : List Observation) :
    observations.length = observations.countP (fun o => (judge layout o).isMatch) +
      observations.countP layout.differs +
      observations.countP (fun o => judge layout o = .unknownField) +
      observations.countP (isUndeclared layout) := by
  induction observations with
  | nil => rfl
  | cons o rest ih =>
    have hundeclared : isUndeclared layout o = decide (judge layout o = .unknownStruct) := by
      rw [Bool.eq_iff_iff, isUndeclared_iff, decide_eq_true_eq]
    have hdiffers := differs_iff layout o
    simp only [List.countP_cons, List.length_cons, hundeclared]
    cases hjudge : judge layout o <;> simp_all [Verdict.isMatch] <;> omega

end Counting

section Suggestions

/-- The mismatches report the observations that differ, in their order. -/
theorem forall₂_reports (layout : Layout) (observations : List Observation) :
    List.Forall₂ Issue.Reports (observations.filterMap (mismatch? layout))
      (observations.filter layout.differs) := by
  rw [← List.filterMap_eq_filter]
  refine Ordered.forall₂_filterMap (fun o => ?_) observations
  have hdiffers := differs_iff layout o
  cases hjudge : judge layout o with
  | differs declared =>
    rw [mismatch?, hjudge, Option.guard, if_pos (hdiffers.mpr ⟨declared, hjudge⟩)]
    exact Option.Rel.some ⟨rfl, rfl, rfl, rfl⟩
  | unknownStruct | anchor | unknownField | agrees =>
    have hno : ¬layout.differs o = true := by simp [hdiffers, hjudge]
    rw [mismatch?, hjudge, Option.guard, if_neg hno]
    exact Option.Rel.none

/-- The suggestions restate the mismatches, in their order. -/
theorem forall₂_restates (layout : Layout) (observations : List Observation) :
    List.Forall₂ Patch.Restates (observations.filterMap (patch? layout))
      (observations.filterMap (mismatch? layout)) := by
  refine Ordered.forall₂_filterMap (fun o => ?_) observations
  rw [patch?, mismatch?]
  cases judge layout o with
  | differs declared => exact Option.Rel.some ⟨rfl, rfl, rfl, rfl, rfl, rfl⟩
  | unknownStruct | anchor | unknownField | agrees => exact Option.Rel.none

/-- Each observation that differs gives one suggestion. -/
theorem length_patches (layout : Layout) (observations : List Observation) :
    (observations.filterMap (patch? layout)).length = observations.countP layout.differs := by
  rw [(forall₂_restates layout observations).length_eq,
    (forall₂_reports layout observations).length_eq, List.countP_eq_length_filter]

/-- Suggestions of some scores restate the mismatches of these scores. -/
theorem forall₂_filter_confidence {patches : List Patch} {issues : List Issue}
    (h : List.Forall₂ Patch.Restates patches issues) (accepts : UInt8 → Bool) :
    List.Forall₂ Patch.Restates (patches.filter fun p => accepts p.confidence)
      (issues.filter fun i => i.confidence.any accepts) := by
  refine List.rel_filter (fun p i hrestates => ?_) h
  dsimp only
  rw [hrestates.confidence_eq, Option.any_some]

/-- A mismatch is an error exactly when its distance is above the limit. -/
theorem severity_offsetMismatch (o : Observation) (declared : UInt64) :
    (offsetMismatch o declared).severity = .error ↔
      0x100 < (Delta.between declared o.observedOffset).natAbs := by
  rw [offsetMismatch, severityOf, severeDelta]
  split <;> simp_all

/-- The candidates of the bulk shifts are samples of their families. -/
theorem sum_totalCandidates_le (families : List (String × List Shift)) :
    ((families.filterMap fun family => bulkShift? family.1 family.2).map (·.totalCandidates)).sum ≤
      (families.map fun family => family.2.length).sum := by
  induction families with
  | nil => exact Nat.le_refl 0
  | cons family rest ih =>
    rw [List.map_cons, List.sum_cons]
    cases hshift : bulkShift? family.1 family.2 with
    | none =>
      simp only [List.filterMap_cons, hshift]
      omega
    | some s =>
      obtain ⟨g, hg, rfl⟩ := Option.map_eq_some_iff.mp hshift
      obtain ⟨-, -, -, htotal, -⟩ := ShiftGroup.majority?_eq_some_iff.mp hg
      simp only [List.filterMap_cons, hshift, List.map_cons, List.sum_cons]
      omega

/-- Each observation that differs gives one sample. -/
theorem length_samples (layout : Layout) (observations : List Observation) :
    (observations.filterMap (sample? layout)).length = observations.countP layout.differs := by
  rw [List.length_filterMap_eq_countP]
  refine List.countP_congr fun o _ => ?_
  rw [differs_iff, sample?]
  cases judge layout o <;> simp

end Suggestions

/-- A verification accounts for every observation and for every declared field. -/
theorem ofObservations_balances (layout : Layout) (observations : List Observation) :
    (ofObservations layout observations).Balances layout observations := by
  have hmismatches : (ofObservations layout observations).mismatches =
      observations.filterMap (mismatch? layout) := filter_issues layout observations
  have hrestates := forall₂_restates layout observations
  have hlow : (fun score : UInt8 => !decide (70 ≤ score)) = fun score => decide (score < 70) := by
    funext score
    rw [Bool.eq_iff_iff, Bool.not_eq_true', decide_eq_false_iff_not, UInt8.not_le,
      decide_eq_true_eq]
  constructor
  case checked_eq => rfl
  case observations_eq =>
    rw [tally_offsetMismatch, tally_missingField]
    exact length_eq_countP_verdicts layout observations
  case structs_eq => exact tally_structNotFound
  case mismatches_forall₂ =>
    rw [hmismatches]
    exact forall₂_reports layout observations
  case suggestions_eq =>
    rw [tally_offsetMismatch, ← length_patches]
    exact (List.length_eq_length_filter_add _).symm
  case patches_forall₂ =>
    rw [hmismatches]
    exact forall₂_filter_confidence hrestates fun score => decide (70 ≤ score)
  case manualReview_forall₂ =>
    rw [hmismatches, ← hlow]
    exact forall₂_filter_confidence hrestates fun score => !decide (70 ≤ score)
  case fields_eq =>
    rw [tally_uncoveredField, Nat.add_comm, List.countP_eq_length_filter]
    exact (List.length_eq_length_filter_add _).symm
  case declared_eq => rfl
  case severity_iff =>
    rw [hmismatches]
    intro i hi
    obtain ⟨o, -, hmismatch⟩ := List.mem_filterMap.mp hi
    obtain ⟨f, -, -, rfl⟩ := mismatch?_eq_some_iff.mp hmismatch
    exact ⟨_, rfl, severity_offsetMismatch o f.offset⟩
  case candidates_le =>
    rw [tally_offsetMismatch, ← length_samples, ← Ordered.sum_length_table, bulkShifts_eq]
    exact sum_totalCandidates_le _

end Verification

end LayoutWatch
