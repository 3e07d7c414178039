import LayoutWatch.Proofs.Ordered
import LayoutWatch.Verification

/-!
# What a verification finds

An observation is checked against one declared field, the first one of its key in the first struct
of its name, and an anchor against none. Offset mismatches are the observations that differ from
the field they are checked against, in their order. A declaration is uncovered when no observation
of its names is checked against a field.
-/

namespace LayoutWatch

/-- The field that an observation of these names is checked against. -/
def Layout.checkedField? (l : Layout) (structName fieldName : String) : Option Field :=
  if fieldName == Signature.anchorField then none
  else (l.struct? structName).bind (·.field? fieldName)

/-- The field that is checked is the one that the names lead to, unless they are those of an
anchor. -/
theorem Layout.checkedField?_eq_some_iff {l : Layout} {structName fieldName : String} {f : Field} :
    l.checkedField? structName fieldName = some f ↔ fieldName ≠ Signature.anchorField ∧
      ∃ s, l.struct? structName = some s ∧ s.field? fieldName = some f := by
  rw [checkedField?]
  by_cases hanchor : fieldName = Signature.anchorField
  · simp [hanchor]
  · simp [hanchor, Option.bind_eq_some_iff]

/-- A field that is checked is one of the declared ones. -/
theorem Layout.mem_declarations_of_checkedField? {l : Layout} {structName fieldName : String}
    {f : Field} (h : l.checkedField? structName fieldName = some f) :
    ⟨structName, fieldName, f.offset⟩ ∈ l.declarations := by
  obtain ⟨-, s, hs, hf⟩ := checkedField?_eq_some_iff.mp h
  have hstruct : s.name = structName := by simpa using List.find?_some hs
  have hkey : f.key = fieldName := by simpa using List.find?_some hf
  refine List.mem_flatMap.mpr ⟨s, List.mem_of_find?_eq_some hs, List.mem_map.mpr ⟨f, ?_, ?_⟩⟩
  · exact List.mem_of_find?_eq_some hf
  · rw [hstruct, hkey]

/-- The observation is one of the declared field. -/
def Observation.Names (o : Observation) (d : Declaration) : Prop :=
  o.structName = d.structName ∧ o.fieldName = d.fieldName

/-- The issue is of this kind and about this field. -/
structure Issue.IsAbout (i : Issue) (kind : Issue.Kind) (structName fieldName : String) :
    Prop where
  /-- It is of the kind. -/
  kind_eq : i.kind = kind
  /-- It names the struct. -/
  structName_eq : i.structName = structName
  /-- It names the field. -/
  fieldName_eq : i.fieldName = some fieldName

namespace Verification

variable {layout : Layout} {o : Observation}

/-- An observation of a field that is checked agrees with it or differs from it. -/
theorem judge_of_checkedField? {f : Field}
    (h : layout.checkedField? o.structName o.fieldName = some f) :
    judge layout o = if f.offset = o.observedOffset then .agrees else .differs f.offset := by
  obtain ⟨hanchor, s, hs, hf⟩ := Layout.checkedField?_eq_some_iff.mp h
  simp [judge, hs, hanchor, hf]

/-- An observation that is checked against no field neither agrees with one nor differs from
one. -/
theorem judge_of_unchecked (h : layout.checkedField? o.structName o.fieldName = none) :
    judge layout o = .unknownStruct ∨ judge layout o = .anchor ∨
      judge layout o = .unknownField := by
  rw [judge]
  cases hs : layout.struct? o.structName with
  | none => exact Or.inl rfl
  | some s =>
    by_cases hanchor : o.fieldName = Signature.anchorField
    · simp [hanchor]
    · have hf : s.field? o.fieldName = none := by
        simpa [Layout.checkedField?, hanchor, hs] using h
      simp [hanchor, hf]

/-- An observation differs from a declared offset if that is the one of the field that it is checked
against and not the observed one. -/
theorem exists_differs_iff {P : UInt64 → Prop} :
    (∃ declared, judge layout o = .differs declared ∧ P declared) ↔
      ∃ f, layout.checkedField? o.structName o.fieldName = some f ∧
        f.offset ≠ o.observedOffset ∧ P f.offset := by
  cases h : layout.checkedField? o.structName o.fieldName with
  | none => rcases judge_of_unchecked h with hjudge | hjudge | hjudge <;> simp [hjudge]
  | some f =>
    rw [judge_of_checkedField? h]
    by_cases hoffset : f.offset = o.observedOffset
    · simp [hoffset]
    · simp [hoffset]

/-- An observation covers a field exactly when it is checked against one. -/
@[simp] theorem covers_judge :
    (judge layout o).covers = (layout.checkedField? o.structName o.fieldName).isSome := by
  cases h : layout.checkedField? o.structName o.fieldName with
  | none => rcases judge_of_unchecked h with hjudge | hjudge | hjudge <;> simp [hjudge] <;> rfl
  | some f =>
    rw [judge_of_checkedField? h]
    split <;> rfl

/-- The offset mismatch that an observation amounts to. -/
def mismatch? (layout : Layout) (o : Observation) : Option Issue :=
  match judge layout o with
  | .differs declared => some (offsetMismatch o declared)
  | _ => none

/-- An observation amounts to a mismatch with the field that it is checked against if that stands
at another offset. -/
theorem mismatch?_eq_some_iff {i : Issue} :
    mismatch? layout o = some i ↔ ∃ f, layout.checkedField? o.structName o.fieldName = some f ∧
      f.offset ≠ o.observedOffset ∧ i = offsetMismatch o f.offset := by
  rw [← exists_differs_iff (P := fun declared => i = offsetMismatch o declared), mismatch?]
  cases judge layout o <;> simp [eq_comm]

/-- The offset mismatches among the findings are those of the observations, in their order. -/
theorem filter_findings (layout : Layout) (reported : List String)
    (observations : List Observation) :
    (findings layout reported observations).filter (·.kind = .offsetMismatch) =
      observations.filterMap (mismatch? layout) := by
  fun_induction findings layout reported observations with
  | case1 => rfl
  | case2 reported o rest hjudge _ ih => simp [mismatch?, hjudge, ih]
  | case3 reported o rest hjudge _ ih => simp [mismatch?, hjudge, structNotFound, ih]
  | case4 reported o rest hjudge ih => simp [mismatch?, hjudge, missingField, ih]
  | case5 reported o rest declared hjudge ih => simp [mismatch?, hjudge, offsetMismatch, ih]
  | case6 reported o rest hjudge ih => simp [mismatch?, hjudge, ih]
  | case7 reported o rest hjudge ih => simp [mismatch?, hjudge, ih]

/-- No finding of the observations is that a field is uncovered. -/
theorem kind_ne_uncoveredField {reported : List String} {observations : List Observation} :
    ∀ i ∈ findings layout reported observations, i.kind ≠ .uncoveredField := by
  fun_induction findings layout reported observations with
  | case1 => simp
  | case2 _ _ _ _ _ ih => exact ih
  | case3 _ _ _ _ _ ih => exact List.forall_mem_cons.mpr ⟨by simp [structNotFound], ih⟩
  | case4 _ _ _ _ ih => exact List.forall_mem_cons.mpr ⟨by simp [missingField], ih⟩
  | case5 _ _ _ _ _ ih => exact List.forall_mem_cons.mpr ⟨by simp [offsetMismatch], ih⟩
  | case6 _ _ _ _ ih => exact ih
  | case7 _ _ _ _ ih => exact ih

section Report

variable {observations : List Observation} {i : Issue}

/-- The offset mismatches of a verification are those of the observations, in their order. -/
theorem filter_issues (layout : Layout) (observations : List Observation) :
    (ofObservations layout observations).issues.filter (·.kind = .offsetMismatch) =
      observations.filterMap (mismatch? layout) := by
  have huncovered : ∀ l : List Declaration,
      (l.map uncoveredField).filter (·.kind = .offsetMismatch) = [] := by
    intro l
    rw [List.filter_eq_nil_iff]
    intro i hi
    obtain ⟨d, -, rfl⟩ := List.mem_map.mp hi
    simp [uncoveredField]
  rw [ofObservations, List.filter_append, filter_findings, huncovered, List.append_nil]

/-- An offset mismatch is reported exactly when an observation differs from the field that it is
checked against. -/
theorem mem_mismatches :
    i ∈ (ofObservations layout observations).issues ∧ i.kind = .offsetMismatch ↔
      ∃ o ∈ observations, ∃ f, layout.checkedField? o.structName o.fieldName = some f ∧
        f.offset ≠ o.observedOffset ∧ i = offsetMismatch o f.offset := by
  have hmem : i ∈ (ofObservations layout observations).issues ∧ i.kind = .offsetMismatch ↔
      i ∈ observations.filterMap (mismatch? layout) := by
    rw [← filter_issues, List.mem_filter, decide_eq_true_eq]
  rw [hmem, List.mem_filterMap]
  simp only [mismatch?_eq_some_iff]

/-- A declaration is covered exactly when an observation names it and is checked against a
field. -/
theorem isCovered_iff {d : Declaration} : isCovered layout observations d = true ↔
    (∃ o ∈ observations, o.Names d) ∧
      (layout.checkedField? d.structName d.fieldName).isSome = true := by
  rw [isCovered, List.any_eq_true]
  simp only [Bool.and_eq_true, beq_iff_eq, covers_judge, and_assoc]
  constructor
  · rintro ⟨o, ho, hchecked, hstruct, hfield⟩
    exact ⟨⟨o, ho, hstruct, hfield⟩, hstruct ▸ hfield ▸ hchecked⟩
  · rintro ⟨⟨o, ho, hstruct, hfield⟩, hchecked⟩
    exact ⟨o, ho, hstruct ▸ hfield ▸ hchecked, hstruct, hfield⟩

/-- A field is reported as uncovered exactly when it is declared and not covered. -/
theorem mem_uncovered :
    i ∈ (ofObservations layout observations).issues ∧ i.kind = .uncoveredField ↔
      ∃ d ∈ layout.declarations, ¬isCovered layout observations d = true ∧
        i = uncoveredField d := by
  rw [ofObservations]
  dsimp only
  rw [List.mem_append, List.mem_map]
  simp only [List.mem_filter, Bool.not_eq_true']
  constructor
  · rintro ⟨hfinding | ⟨d, ⟨hd, huncovered⟩, rfl⟩, hkind⟩
    · exact absurd hkind (kind_ne_uncoveredField i hfinding)
    · exact ⟨d, hd, by simp [huncovered], rfl⟩
  · rintro ⟨d, hd, huncovered, rfl⟩
    exact ⟨Or.inr ⟨d, ⟨hd, by simpa using huncovered⟩, rfl⟩, rfl⟩

end Report

end Verification

end LayoutWatch
