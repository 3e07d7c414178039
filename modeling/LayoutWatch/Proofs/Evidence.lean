import LayoutWatch.Proofs.SelfComparison
import LayoutWatch.Proofs.Verification

/-!
# Evidence and the declarations it is about

A verification looks observations up by their names and reports on declarations one by one. The two
meet where each observed name leads to a field that is checked, and to one at the observed offset
if any declaration of the name stands there. A struct that is listed twice, a key that is used
twice at two offsets and a field with the name of an anchor break this.
-/

namespace LayoutWatch

namespace Verification

/-- No evidence is passed over: declarations are uncovered only for want of observations, and
observations differ only if they differ from every declaration of their names. -/
structure EvidenceCounts (layout : Layout) (observations : List Observation) : Prop where
  /-- A declared field is reported as uncovered exactly when no observation names it. -/
  uncovered_iff : ∀ d ∈ layout.declarations,
    (∃ i ∈ (ofObservations layout observations).issues,
      i.IsAbout .uncoveredField d.structName d.fieldName ∧ i.declaredOffset = some d.offset) ↔
    ¬∃ o ∈ observations, o.Names d
  /-- A mismatch is reported for an observation of a declared name exactly when it differs from
  every declaration of the name. -/
  mismatch_iff : ∀ o ∈ observations, (∃ d ∈ layout.declarations, o.Names d) →
    ((∃ i ∈ (ofObservations layout observations).issues,
      i.IsAbout .offsetMismatch o.structName o.fieldName ∧
        i.observedOffset = some o.observedOffset ∧ i.confidence = some o.confidence) ↔
      ∀ d ∈ layout.declarations, o.Names d → d.offset ≠ o.observedOffset)

/-- Observations of declared names are checked against a field, and against one at the observed
offset if a declaration of the name stands there. -/
def LookupsMeet (layout : Layout) (observations : List Observation) : Prop :=
  ∀ o ∈ observations, ∀ d ∈ layout.declarations, o.Names d →
    ∃ f, layout.checkedField? o.structName o.fieldName = some f ∧
      (d.offset = o.observedOffset → f.offset = o.observedOffset)

variable {layout : Layout} {observations : List Observation}

/-- A declaration is reported as uncovered exactly when it is not covered. -/
theorem exists_uncovered_iff {d : Declaration} (hd : d ∈ layout.declarations) :
    (∃ i ∈ (ofObservations layout observations).issues,
      i.IsAbout .uncoveredField d.structName d.fieldName ∧ i.declaredOffset = some d.offset) ↔
    ¬isCovered layout observations d = true := by
  constructor
  · rintro ⟨i, hi, habout, -⟩
    obtain ⟨d', -, huncovered, rfl⟩ := mem_uncovered.mp ⟨hi, habout.kind_eq⟩
    have hstruct : d'.structName = d.structName := habout.structName_eq
    have hfield : d'.fieldName = d.fieldName := Option.some.inj habout.fieldName_eq
    simpa only [isCovered_iff, Observation.Names, hstruct, hfield] using huncovered
  · intro huncovered
    obtain ⟨hi, hkind⟩ := mem_uncovered.mpr ⟨d, hd, huncovered, rfl⟩
    exact ⟨uncoveredField d, hi, ⟨hkind, rfl, rfl⟩, rfl⟩

/-- A mismatch is reported for an observation exactly when the field that it is checked against
stands at another offset. -/
theorem exists_mismatch_iff {o : Observation} (ho : o ∈ observations) :
    (∃ i ∈ (ofObservations layout observations).issues,
      i.IsAbout .offsetMismatch o.structName o.fieldName ∧
        i.observedOffset = some o.observedOffset ∧ i.confidence = some o.confidence) ↔
    ∃ f, layout.checkedField? o.structName o.fieldName = some f ∧
      f.offset ≠ o.observedOffset := by
  constructor
  · rintro ⟨i, hi, habout, hobserved, -⟩
    obtain ⟨o', -, f, hf, hne, rfl⟩ := mem_mismatches.mp ⟨hi, habout.kind_eq⟩
    have hstruct : o'.structName = o.structName := habout.structName_eq
    have hfield : o'.fieldName = o.fieldName := Option.some.inj habout.fieldName_eq
    have hoffset : o'.observedOffset = o.observedOffset := Option.some.inj hobserved
    exact ⟨f, hstruct ▸ hfield ▸ hf, hoffset ▸ hne⟩
  · rintro ⟨f, hf, hne⟩
    obtain ⟨hi, hkind⟩ := mem_mismatches.mpr ⟨o, ho, f, hf, hne, rfl⟩
    exact ⟨offsetMismatch o f.offset, hi, ⟨hkind, rfl, rfl⟩, rfl, rfl⟩

/-- Where all evidence counts, lookups meet the declarations. -/
theorem lookupsMeet_of_evidenceCounts (h : EvidenceCounts layout observations) :
    LookupsMeet layout observations := by
  intro o ho d hd hnames
  have hcovered : isCovered layout observations d = true := by
    by_contra huncovered
    exact (h.uncovered_iff d hd).mp ((exists_uncovered_iff hd).mpr huncovered) ⟨o, ho, hnames⟩
  obtain ⟨-, hchecked⟩ := isCovered_iff.mp hcovered
  rw [← hnames.1, ← hnames.2] at hchecked
  obtain ⟨f, hf⟩ := Option.isSome_iff_exists.mp hchecked
  refine ⟨f, hf, fun hdeclared => ?_⟩
  by_contra hne
  have hmismatch := (exists_mismatch_iff ho).mpr ⟨f, hf, hne⟩
  exact (h.mismatch_iff o ho ⟨d, hd, hnames⟩).mp hmismatch d hd hnames hdeclared

/-- Where lookups meet the declarations, all evidence counts. -/
theorem evidenceCounts_of_lookupsMeet (h : LookupsMeet layout observations) :
    EvidenceCounts layout observations := by
  constructor
  · intro d hd
    rw [exists_uncovered_iff hd, isCovered_iff, not_iff_not, and_iff_left_iff_imp]
    rintro ⟨o, ho, hnames⟩
    obtain ⟨f, hf, -⟩ := h o ho d hd hnames
    rw [← hnames.1, ← hnames.2, hf]
    rfl
  · rintro o ho ⟨d, hd, hnames⟩
    obtain ⟨f, hf, -⟩ := h o ho d hd hnames
    rw [exists_mismatch_iff ho, hf]
    simp only [Option.some.injEq, exists_eq_left']
    constructor
    · intro hne d' hd' hnames' hdeclared
      obtain ⟨f', hf', hmeets⟩ := h o ho d' hd' hnames'
      obtain rfl : f = f' := Option.some.inj (hf.symm.trans hf')
      exact hne (hmeets hdeclared)
    · intro hall
      -- The checked field is itself a declaration of the observed names.
      exact hall _ (Layout.mem_declarations_of_checkedField? hf) ⟨rfl, rfl⟩

/-- All evidence counts in a layout in which no name is used twice and no field has the name of an
anchor. -/
theorem evidenceCounts_of_distinct (hdistinct : layout.Distinct)
    (hanchor : ∀ d ∈ layout.declarations, d.fieldName ≠ Signature.anchorField)
    (observations : List Observation) : EvidenceCounts layout observations := by
  refine evidenceCounts_of_lookupsMeet fun o _ d hd hnames => ?_
  have hnotAnchor := hanchor d hd
  obtain ⟨s, hs, hfield⟩ := List.mem_flatMap.mp hd
  obtain ⟨f, hf, rfl⟩ := List.mem_map.mp hfield
  obtain ⟨t, ht⟩ := (looks_find? StructLayout.name).complete hs
  obtain ⟨htmem, htname⟩ := (looks_find? StructLayout.name).sound ht
  obtain rfl := List.inj_on_of_nodup_map hdistinct.structs htmem hs htname
  obtain ⟨g, hg⟩ := (looks_find? Field.key).complete hf
  obtain ⟨hgmem, hgkey⟩ := (looks_find? Field.key).sound hg
  obtain rfl := List.inj_on_of_nodup_map (hdistinct.members t htmem).fields hgmem hf hgkey
  have hstruct : o.structName = t.name := hnames.1
  have hkey : o.fieldName = g.key := hnames.2
  rw [hstruct, hkey]
  exact ⟨g, Layout.checkedField?_eq_some_iff.mpr ⟨hnotAnchor, t, ht, hg⟩, id⟩

/-- All evidence counts exactly when lookups meet the declarations. -/
theorem evidenceCounts_iff (layout : Layout) (observations : List Observation) :
    EvidenceCounts layout observations ↔ LookupsMeet layout observations :=
  ⟨lookupsMeet_of_evidenceCounts, evidenceCounts_of_lookupsMeet⟩

/-- A layout that lists a struct twice, each time with another field. -/
def listedTwice : Layout := ⟨"1", none,
  [⟨"Foo", none, none, [⟨some "a", 0x10, none, none⟩], [], []⟩,
    ⟨"Foo", none, none, [⟨some "b", 0x18, none, none⟩], [], []⟩]⟩

/-- A field of the second listing is reported as uncovered although it was seen at its offset. -/
theorem listedTwice_shadowed : ¬EvidenceCounts listedTwice [⟨"Foo", "b", 0x18, 90⟩] := by
  intro h
  have hunchecked : listedTwice.checkedField? "Foo" "b" = none := by decide
  obtain ⟨f, hf, -⟩ := lookupsMeet_of_evidenceCounts h _ (List.mem_singleton_self _)
    ⟨"Foo", "b", 0x18⟩ (by decide) ⟨rfl, rfl⟩
  rw [hunchecked] at hf
  exact absurd hf (by simp)

end Verification

end LayoutWatch
