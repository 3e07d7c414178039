import LayoutWatch.Proofs.Comparison
import LayoutWatch.Proofs.Verification

/-!
# Bulk shifts and the fields behind them

A verification takes one vote for each observation that differs from the layout. A bulk shift thus
stands on two observations with its delta, and these may be of one field. It stands on two fields
in every report exactly when in each family the winning delta is the one of two fields, which it is
where no field is observed twice.
-/

namespace LayoutWatch

/-- Samples of two different members have this delta. -/
def ShiftGroup.SharedByTwo (samples : List Shift) (delta : Int) : Prop :=
  ∃ x ∈ samples, ∃ y ∈ samples, x.delta = delta ∧ y.delta = delta ∧
    (x.structName, x.member) ≠ (y.structName, y.member)

/-- A delta that wins the vote is the one of enough samples. -/
theorem ShiftGroup.Wins.exists_sublist {samples : List Shift} {delta : Int}
    (h : Wins (movedDeltas samples) delta) :
    ∃ voters : List Shift, voters.Sublist samples ∧ leastSize ≤ voters.length ∧
      ∀ x ∈ voters, x.delta = delta := by
  refine ⟨(samples.filter (·.delta ≠ 0)).filter (·.delta = delta),
    List.filter_sublist.trans List.filter_sublist, ?_, fun x hx => ?_⟩
  · rw [length_filter_delta, map_delta_filter]
    exact h.shared
  · simpa using (List.mem_filter.mp hx).2

/-- A delta that wins the vote of samples of different members is the one of two members. -/
theorem ShiftGroup.sharedByTwo_of_nodup {samples : List Shift} {delta : Int}
    (h : Wins (movedDeltas samples) delta)
    (hnodup : (samples.map fun x => (x.structName, x.member)).Nodup) :
    SharedByTwo samples delta := by
  obtain ⟨voters, hsublist, hmany, hdelta⟩ := h.exists_sublist
  have hdistinct := (hsublist.map fun x => (x.structName, x.member)).nodup hnodup
  rw [leastSize] at hmany
  rcases voters with _ | ⟨x, _ | ⟨y, rest⟩⟩
  · exact absurd hmany (by simp)
  · exact absurd hmany (by simp)
  · have hx : x ∈ x :: y :: rest := List.mem_cons_self
    have hy : y ∈ x :: y :: rest := List.mem_cons_of_mem x List.mem_cons_self
    simp only [List.map_cons, List.nodup_cons, List.mem_cons, not_or] at hdistinct
    exact ⟨x, hsublist.subset hx, y, hsublist.subset hy, hdelta x hx, hdelta y hy,
      hdistinct.1.1⟩

/-- The issue is an offset mismatch in this family and has this delta. -/
structure Issue.Carries (i : Issue) (layout : Layout) (root : String) (delta : Int) : Prop where
  /-- It is an offset mismatch. -/
  kind_eq : i.kind = .offsetMismatch
  /-- Its struct is of the family. -/
  root_eq : layout.root i.structName = root
  /-- It has the delta. -/
  delta_eq : i.delta = some delta

/-- Offset mismatches of two different fields of the family have the delta of a bulk shift. -/
def BulkShift.Supported (s : BulkShift) (layout : Layout) (issues : List Issue) : Prop :=
  ∃ i ∈ issues, ∃ j ∈ issues, i.Carries layout s.hierarchy s.delta ∧
    j.Carries layout s.hierarchy s.delta ∧
    (i.structName, i.fieldName) ≠ (j.structName, j.fieldName)

namespace Verification

variable {layout : Layout} {observations : List Observation} {root : String}

/-- The samples that the observations of a family give. -/
def familyShifts (layout : Layout) (observations : List Observation) (root : String) :
    List Shift :=
  Ordered.valuesOf (observations.filterMap (sample? layout)) root

/-- An observation gives a sample if it differs from the field that it is checked against. -/
theorem sample?_eq_some_iff {o : Observation} {x : Shift} :
    sample? layout o = some (root, x) ↔
      ∃ f, layout.checkedField? o.structName o.fieldName = some f ∧
        f.offset ≠ o.observedOffset ∧ layout.root o.structName = root ∧
        x = Shift.ofOffsets o.structName o.fieldName f.offset o.observedOffset := by
  rw [← exists_differs_iff (P := fun declared => layout.root o.structName = root ∧
    x = Shift.ofOffsets o.structName o.fieldName declared o.observedOffset), sample?]
  cases judge layout o <;> simp [eq_comm]

/-- The samples of a family are those of the observations of its structs that differ from the
layout. -/
theorem mem_familyShifts {x : Shift} : x ∈ familyShifts layout observations root ↔
    ∃ o ∈ observations, ∃ f, layout.checkedField? o.structName o.fieldName = some f ∧
      f.offset ≠ o.observedOffset ∧ layout.root o.structName = root ∧
      x = Shift.ofOffsets o.structName o.fieldName f.offset o.observedOffset := by
  simp [familyShifts, sample?_eq_some_iff]

/-- The samples of a family are of observed fields, one for each observation at most. -/
theorem sublist_familyShifts (layout : Layout) (observations : List Observation) (root : String) :
    ((familyShifts layout observations root).map fun x => (x.structName, x.member)).Sublist
      (observations.map fun o => (o.structName, o.fieldName)) := by
  induction observations with
  | nil => exact List.Sublist.slnil
  | cons o rest ih =>
    rw [familyShifts, List.filterMap_cons, List.map_cons]
    cases hsample : sample? layout o with
    | none => exact ih.cons _
    | some sample =>
      obtain ⟨family, x⟩ := sample
      obtain ⟨f, -, -, -, rfl⟩ := sample?_eq_some_iff.mp hsample
      rw [Ordered.valuesOf, List.filterMap_cons]
      by_cases hfamily : family = root
      · simp only [hfamily, beq_self_eq_true, if_true, List.map_cons]
        exact ih.cons_cons _
      · simp only [beq_eq_false_iff_ne.mpr hfamily, Bool.false_eq_true, if_false]
        exact ih.cons _

/-- The bulk shifts are those that the samples of the families agree on. -/
theorem bulkShifts_eq (layout : Layout) (observations : List Observation) :
    (ofObservations layout observations).bulkShifts =
      (Ordered.table (observations.filterMap (sample? layout))).filterMap
        fun family => bulkShift? family.1 family.2 := rfl

/-- A bulk shift is suggested for a family exactly when the samples of the family agree on it. -/
theorem mem_bulkShifts {s : BulkShift} :
    s ∈ (ofObservations layout observations).bulkShifts ↔
      bulkShift? s.hierarchy (familyShifts layout observations s.hierarchy) = some s := by
  refine Ordered.mem_filterMap_table bulkShift? BulkShift.hierarchy (fun root samples s h => ?_)
    fun _ => rfl
  obtain ⟨g, -, rfl⟩ := Option.map_eq_some_iff.mp h
  rfl

/-- A bulk shift has the delta that won the vote of its family. -/
theorem wins_of_mem_bulkShifts {s : BulkShift}
    (h : s ∈ (ofObservations layout observations).bulkShifts) :
    ShiftGroup.Wins (ShiftGroup.movedDeltas (familyShifts layout observations s.hierarchy))
      s.delta := by
  obtain ⟨g, hg, heq⟩ := Option.map_eq_some_iff.mp (mem_bulkShifts.mp h)
  have hdelta : g.delta = s.delta := congrArg BulkShift.delta heq
  rw [← hdelta]
  exact (ShiftGroup.majority?_eq_some_iff.mp hg).1

/-- The delta that wins the vote of a family is suggested as a bulk shift. -/
theorem exists_bulkShift {delta : Int}
    (h : ShiftGroup.Wins (ShiftGroup.movedDeltas (familyShifts layout observations root)) delta) :
    ∃ s ∈ (ofObservations layout observations).bulkShifts, s.hierarchy = root ∧
      s.delta = delta := by
  obtain ⟨g, hg, hdelta⟩ := ShiftGroup.exists_majority? h
  obtain ⟨s, hs⟩ : ∃ s, bulkShift? root (familyShifts layout observations root) = some s := by
    rw [bulkShift?, hg]
    exact ⟨_, rfl⟩
  obtain ⟨g', hg', heq⟩ := Option.map_eq_some_iff.mp hs
  obtain rfl : g = g' := Option.some.inj (hg.symm.trans hg')
  obtain rfl : root = s.hierarchy := congrArg BulkShift.hierarchy heq
  have hdelta' : g.delta = s.delta := congrArg BulkShift.delta heq
  exact ⟨s, mem_bulkShifts.mpr hs, rfl, hdelta'.symm.trans hdelta⟩

/-- The offset mismatches of a family with a delta are its samples with the delta. -/
theorem exists_carries_iff {delta : Int} {structName : String} {fieldName : Option String} :
    (∃ i ∈ (ofObservations layout observations).issues, i.Carries layout root delta ∧
      (i.structName, i.fieldName) = (structName, fieldName)) ↔
    ∃ x ∈ familyShifts layout observations root, x.delta = delta ∧
      (x.structName, some x.member) = (structName, fieldName) := by
  constructor
  · rintro ⟨i, hi, hcarries, hnames⟩
    obtain ⟨o, ho, f, hf, hne, rfl⟩ := mem_mismatches.mp ⟨hi, hcarries.kind_eq⟩
    exact ⟨_, mem_familyShifts.mpr ⟨o, ho, f, hf, hne, hcarries.root_eq, rfl⟩,
      Option.some.inj hcarries.delta_eq, hnames⟩
  · rintro ⟨x, hx, hdelta, hnames⟩
    obtain ⟨o, ho, f, hf, hne, hroot, rfl⟩ := mem_familyShifts.mp hx
    obtain ⟨hi, hkind⟩ := mem_mismatches.mpr ⟨o, ho, f, hf, hne, rfl⟩
    exact ⟨offsetMismatch o f.offset, hi, ⟨hkind, hroot, congrArg some hdelta⟩, hnames⟩

/-- A bulk shift stands on mismatches of two fields exactly when two fields of the family were
seen with its delta. -/
theorem supported_iff {s : BulkShift} :
    s.Supported layout (ofObservations layout observations).issues ↔
      ShiftGroup.SharedByTwo (familyShifts layout observations s.hierarchy) s.delta := by
  constructor
  · rintro ⟨i, hi, j, hj, hicarries, hjcarries, hne⟩
    obtain ⟨x, hx, hxdelta, hxnames⟩ := exists_carries_iff.mp ⟨i, hi, hicarries, rfl⟩
    obtain ⟨y, hy, hydelta, hynames⟩ := exists_carries_iff.mp ⟨j, hj, hjcarries, rfl⟩
    refine ⟨x, hx, y, hy, hxdelta, hydelta, fun heq => hne ?_⟩
    rw [← hxnames, ← hynames]
    simp_all
  · rintro ⟨x, hx, y, hy, hxdelta, hydelta, hne⟩
    obtain ⟨i, hi, hicarries, hinames⟩ := exists_carries_iff.mpr ⟨x, hx, hxdelta, rfl⟩
    obtain ⟨j, hj, hjcarries, hjnames⟩ := exists_carries_iff.mpr ⟨y, hy, hydelta, rfl⟩
    refine ⟨i, hi, j, hj, hicarries, hjcarries, fun heq => hne ?_⟩
    rw [hinames, hjnames] at heq
    simp_all

/-- Where every bulk shift stands on two fields, two fields share each winning delta. -/
theorem sharedByTwo_of_supported
    (h : ∀ s ∈ (ofObservations layout observations).bulkShifts,
      s.Supported layout (ofObservations layout observations).issues) {delta : Int}
    (hwins : ShiftGroup.Wins
      (ShiftGroup.movedDeltas (familyShifts layout observations root)) delta) :
    ShiftGroup.SharedByTwo (familyShifts layout observations root) delta := by
  obtain ⟨s, hs, rfl, rfl⟩ := exists_bulkShift hwins
  exact supported_iff.mp (h s hs)

/-- Where no field is observed twice, every bulk shift stands on two fields. -/
theorem bulkShifts_supported_of_nodup
    (hnodup : (observations.map fun o => (o.structName, o.fieldName)).Nodup) :
    ∀ s ∈ (ofObservations layout observations).bulkShifts,
      s.Supported layout (ofObservations layout observations).issues := by
  intro s hs
  rw [supported_iff]
  have hsublist := sublist_familyShifts layout observations s.hierarchy
  exact ShiftGroup.sharedByTwo_of_nodup (wins_of_mem_bulkShifts hs) (hsublist.nodup hnodup)

/-- Every bulk shift stands on offset mismatches of two fields exactly when in each family the
delta that wins the vote of the observations is the one of two fields. -/
theorem bulkShifts_supported_iff (layout : Layout) (observations : List Observation) :
    (∀ s ∈ (ofObservations layout observations).bulkShifts,
      s.Supported layout (ofObservations layout observations).issues) ↔
    ∀ root delta, ShiftGroup.Wins
        (ShiftGroup.movedDeltas (familyShifts layout observations root)) delta →
      ShiftGroup.SharedByTwo (familyShifts layout observations root) delta := by
  constructor
  · intro h root delta hwins
    exact sharedByTwo_of_supported h hwins
  · intro h s hs
    rw [supported_iff]
    exact h s.hierarchy s.delta (wins_of_mem_bulkShifts hs)

/-- A layout with a single field. -/
def loneField : Layout :=
  ⟨"1", none, [⟨"Foo", none, none, [⟨some "health", 0x10, none, none⟩], [], []⟩]⟩

/-- The field is seen at one other offset by two signatures. -/
def seenTwice : List Observation := [⟨"Foo", "health", 0x18, 90⟩, ⟨"Foo", "health", 0x18, 90⟩]

/-- Two observations of one field make a bulk shift that stands on this field alone. -/
theorem lone_field_shifts : ¬∀ s ∈ (ofObservations loneField seenTwice).bulkShifts,
    s.Supported loneField (ofObservations loneField seenTwice).issues := by
  intro h
  have hroot : loneField.root "Foo" = "Foo" :=
    Comparison.root_of_declaredBase?_none (by decide)
  have hshifts : familyShifts loneField seenTwice "Foo" =
      List.replicate 2 (Shift.ofOffsets "Foo" "health" 0x10 0x18) := by
    have hjudge : judge loneField ⟨"Foo", "health", 0x18, 90⟩ = .differs 0x10 := by decide
    simp [familyShifts, seenTwice, sample?, hjudge, hroot, Ordered.valuesOf, List.replicate]
  have hwins : ShiftGroup.Wins
      (ShiftGroup.movedDeltas (familyShifts loneField seenTwice "Foo")) 8 := by
    rw [hshifts]
    exact ⟨by decide, by decide⟩
  obtain ⟨x, hx, y, hy, -, -, hne⟩ := sharedByTwo_of_supported h hwins
  rw [hshifts] at hx hy
  exact hne (by rw [List.eq_of_mem_replicate hx, List.eq_of_mem_replicate hy])

end Verification

end LayoutWatch
