import LayoutWatch.Proofs.BulkShift
import LayoutWatch.Proofs.Findings

/-!
# The order of the evidence

A verification goes through its observations one by one, and yet their order decides nothing but
the order of what it lists. Undeclared structs are reported once wherever they come first, coverage
and votes are counted, ties in a vote are broken by the deltas, and families stand in the order of
their roots.
-/

namespace LayoutWatch

/-- The groups differ at most in the order of their samples. -/
structure ShiftGroup.Reordered (g g' : ShiftGroup) : Prop where
  /-- Both have the same delta. -/
  delta_eq : g.delta = g'.delta
  /-- Both have the same members. -/
  members_perm : g.members.Perm g'.members
  /-- Both have the same anomalies. -/
  anomalies_perm : g.anomalies.Perm g'.anomalies
  /-- As many samples were asked. -/
  totalCandidates_eq : g.totalCandidates = g'.totalCandidates
  /-- The members have the same share. -/
  confidence_eq : g.confidence = g'.confidence

/-- The bulk shifts differ at most in the order of their fields and of their anomalies. -/
structure BulkShift.Reordered (s s' : BulkShift) : Prop where
  /-- Both are of one family. -/
  hierarchy_eq : s.hierarchy = s'.hierarchy
  /-- Both have the same wording. -/
  label_eq : s.label = s'.label
  /-- Both have the same delta. -/
  delta_eq : s.delta = s'.delta
  /-- Both have the same fields. -/
  fields_perm : s.fields.Perm s'.fields
  /-- As many observations agree. -/
  matchCount_eq : s.matchCount = s'.matchCount
  /-- As many observations were asked. -/
  totalCandidates_eq : s.totalCandidates = s'.totalCandidates
  /-- Those that agree have the same share. -/
  confidence_eq : s.confidence = s'.confidence
  /-- Both have the same anomalies. -/
  anomalies_perm : s.anomalies.Perm s'.anomalies

/-- The verifications differ at most in the order of what they list. -/
structure Verification.Reordered (v v' : Verification) : Prop where
  /-- Both are of one version of the layout. -/
  layoutVersion_eq : v.layoutVersion = v'.layoutVersion
  /-- As many observations were checked. -/
  checked_eq : v.checked = v'.checked
  /-- As many of them agree with the layout. -/
  matched_eq : v.matched = v'.matched
  /-- As much of the layout was seen. -/
  coverage_eq : v.coverage = v'.coverage
  /-- Both have errors, or neither has. -/
  hasErrors_eq : v.hasErrors = v'.hasErrors
  /-- There are as many findings of each severity. -/
  count_eq : ∀ severity, v.count severity = v'.count severity
  /-- Both have the same findings. -/
  issues_perm : v.issues.Perm v'.issues
  /-- Both have the same patches. -/
  patches_perm : v.patches.Perm v'.patches
  /-- Both leave the same for a review. -/
  manualReview_perm : v.manualReview.Perm v'.manualReview
  /-- Both suggest the same shifts for the same families, one after the other. -/
  bulkShifts_forall₂ : List.Forall₂ BulkShift.Reordered v.bulkShifts v'.bulkShifts

namespace ShiftGroup

/-- A delta that wins a vote wins it in any order. -/
theorem Wins.of_perm {deltas deltas' : List Int} {delta : Int} (h : Wins deltas delta)
    (hperm : deltas.Perm deltas') : Wins deltas' delta where
  shared := hperm.count_eq delta ▸ h.shared
  beats := by
    intro other hother hne
    rw [← hperm.count_eq, ← hperm.count_eq]
    exact h.beats other (hperm.mem_iff.mpr hother) hne

variable {samples samples' : List Shift}

/-- The moved deltas come in the order of the samples. -/
theorem movedDeltas_perm (h : samples.Perm samples') :
    (movedDeltas samples).Perm (movedDeltas samples') := (h.map _).filter _

/-- Where samples agree on a group, they agree on the same one in any order. -/
theorem exists_majority?_of_perm (h : samples.Perm samples') {g : ShiftGroup}
    (hg : majority? samples = some g) :
    ∃ g', majority? samples' = some g' ∧ g.Reordered g' := by
  obtain ⟨hwins, hmembers, hanomalies, htotal, hconfidence⟩ := majority?_eq_some_iff.mp hg
  obtain ⟨g', hg', hdelta⟩ := exists_majority? (hwins.of_perm (movedDeltas_perm h))
  obtain ⟨-, hmembers', hanomalies', htotal', hconfidence'⟩ := majority?_eq_some_iff.mp hg'
  have hmoved := h.filter (·.delta ≠ 0)
  have hperm : g.members.Perm g'.members := by
    rw [hmembers, hmembers', hdelta]
    exact hmoved.filter _
  refine ⟨g', hg', ⟨hdelta.symm, hperm, ?_, ?_, ?_⟩⟩
  · rw [hanomalies, hanomalies', hdelta]
    exact hmoved.filter _
  · rw [htotal, htotal', h.length_eq]
  · rw [hconfidence, hconfidence', hperm.length_eq, h.length_eq]

/-- The vote does not depend on the order of the samples. -/
theorem majority?_perm (h : samples.Perm samples') :
    Option.Rel Reordered (majority? samples) (majority? samples') := by
  cases hg : majority? samples with
  | some g =>
    obtain ⟨g', hg', hsame⟩ := exists_majority?_of_perm h hg
    rw [hg']
    exact Option.Rel.some hsame
  | none =>
    cases hg' : majority? samples' with
    | none => exact Option.Rel.none
    | some g' =>
      obtain ⟨g, hg'', -⟩ := exists_majority?_of_perm h.symm hg'
      exact absurd (hg.symm.trans hg'') (by simp)

end ShiftGroup

namespace Verification

variable {layout : Layout} {observations observations' : List Observation}

/-- The shift that a family agrees on does not depend on the order of its samples. -/
theorem bulkShift?_perm (hierarchy : String) {samples samples' : List Shift}
    (h : samples.Perm samples') :
    Option.Rel BulkShift.Reordered (bulkShift? hierarchy samples)
      (bulkShift? hierarchy samples') := by
  have hvote := ShiftGroup.majority?_perm h
  rw [bulkShift?, bulkShift?]
  generalize ShiftGroup.majority? samples = vote at hvote ⊢
  generalize ShiftGroup.majority? samples' = vote' at hvote ⊢
  cases hvote with
  | none => exact Option.Rel.none
  | some hsame =>
    have hlabel := congrArg (fun delta => hierarchy ++ ": shift " ++ Delta.text delta)
      hsame.delta_eq
    exact Option.Rel.some ⟨rfl, hlabel, hsame.delta_eq, hsame.members_perm.map _,
      hsame.members_perm.length_eq, hsame.totalCandidates_eq, hsame.confidence_eq,
      hsame.anomalies_perm.map _⟩

/-- The families stand in the order of their roots, whatever the order of the observations. -/
theorem bulkShifts_forall₂_of_perm (h : observations.Perm observations') :
    List.Forall₂ BulkShift.Reordered (ofObservations layout observations).bulkShifts
      (ofObservations layout observations').bulkShifts := by
  have hsamples := h.filterMap (sample? layout)
  rw [bulkShifts_eq, bulkShifts_eq, Ordered.table_eq, Ordered.table_eq,
    Ordered.distinctTexts_eq_of_perm (hsamples.map _), List.filterMap_map, List.filterMap_map]
  exact Ordered.forall₂_filterMap (fun root => bulkShift?_perm root (hsamples.filterMap _)) _

/-- A declared field is covered by the same observations in any order. -/
theorem isCovered_eq_of_perm (h : observations.Perm observations') :
    isCovered layout observations = isCovered layout observations' := by
  funext d
  rw [Bool.eq_iff_iff, isCovered_iff, isCovered_iff]
  simp only [h.mem_iff]

/-- The findings of the observations are the same in any order. -/
theorem findings_perm_of_perm (h : observations.Perm observations') :
    (findings layout [] observations).Perm (findings layout [] observations') := by
  have hnames : (undeclaredStructs layout observations).Perm
      (undeclaredStructs layout observations') := (h.filter _).map _
  have hstructs := (Ordered.eraseDups_perm hnames).map undeclaredStruct
  have hparts := hstructs.append (h.filterMap (finding? layout))
  exact ((findings_perm layout observations).trans hparts).trans
    (findings_perm layout observations').symm

/-- All findings are the same in any order. -/
theorem issues_perm_of_perm (layout : Layout) (h : observations.Perm observations') :
    (ofObservations layout observations).issues.Perm
      (ofObservations layout observations').issues := by
  rw [ofObservations, ofObservations, isCovered_eq_of_perm h]
  exact (findings_perm_of_perm h).append_right _

/-- What a verification says does not depend on the order of the observations. -/
theorem ofObservations_reordered (layout : Layout) (h : observations.Perm observations') :
    (ofObservations layout observations).Reordered (ofObservations layout observations') := by
  have hissues := issues_perm_of_perm layout h
  have hcount : ∀ severity, (ofObservations layout observations).count severity =
      (ofObservations layout observations').count severity := fun _ => hissues.countP_eq _
  constructor
  case layoutVersion_eq => rfl
  case checked_eq => exact h.length_eq
  case matched_eq => exact h.countP_eq _
  case coverage_eq => rw [ofObservations, ofObservations, isCovered_eq_of_perm h]
  case hasErrors_eq => rw [hasErrors, hasErrors, hcount]
  case count_eq => exact hcount
  case issues_perm => exact hissues
  case patches_perm => exact (h.filterMap _).filter _
  case manualReview_perm => exact (h.filterMap _).filter _
  case bulkShifts_forall₂ => exact bulkShifts_forall₂_of_perm h

/-- A struct with four fields. -/
def fourFields : Layout :=
  ⟨"1", none, [⟨"Foo", none, none,
    [⟨some "a", 0x10, none, none⟩, ⟨some "b", 0x20, none, none⟩, ⟨some "c", 0x30, none, none⟩,
      ⟨some "d", 0x40, none, none⟩], [], []⟩]⟩

/-- Two fields moved up and two moved down as far, between two observations of a struct that is not
declared and one of a field that is not. -/
def tiedEvidence : List Observation :=
  [⟨"Bar", "x", 0x10, 90⟩, ⟨"Foo", "a", 0x18, 90⟩, ⟨"Foo", "c", 0x28, 90⟩, ⟨"Foo", "y", 0x50, 90⟩,
    ⟨"Foo", "b", 0x28, 60⟩, ⟨"Foo", "d", 0x38, 90⟩, ⟨"Bar", "z", 0x18, 90⟩]

/-- Read backwards, the evidence gives the patches in another order and the same verdict. -/
theorem ofObservations_reordered_tied :
    (ofObservations fourFields tiedEvidence).patches.map (·.fieldName) = ["a", "c", "d"] ∧
      (ofObservations fourFields tiedEvidence.reverse).patches.map (·.fieldName) =
        ["d", "c", "a"] ∧
      (ofObservations fourFields tiedEvidence.reverse).Reordered
        (ofObservations fourFields tiedEvidence) :=
  ⟨by decide, by decide, ofObservations_reordered fourFields (List.reverse_perm tiedEvidence)⟩

end Verification

end LayoutWatch
