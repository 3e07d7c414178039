import LayoutWatch.Proofs.CodeImage
import LayoutWatch.Proofs.Pattern.Text
import LayoutWatch.Proofs.Scan
import LayoutWatch.Proofs.Verification
import Mathlib.Data.Set.Insert

/-!
# A scan and the verification of what it saw

A scan reduces the sightings of a field to one change, and a verification goes through the same
sightings one by one. Where the signatures of a field expect its declared offset, both say that
the field moved or neither does, and they name the same offsets.
-/

namespace LayoutWatch

/-- A scan is evidence of an offset where a sighting saw it. -/
theorem Observation.mem_ofSightings {o : Observation} {sightings : List Sighting} :
    o ∈ ofSightings sightings ↔ ∃ s ∈ sightings,
      s.Sees o.structName o.fieldName o.observedOffset ∧ s.confidence = o.confidence := by
  simp only [ofSightings, List.mem_filterMap, List.mem_filter, Option.map_eq_some_iff]
  constructor
  · rintro ⟨s, ⟨hs, hfound⟩, offset, hobserved, rfl⟩
    exact ⟨s, hs, ⟨hfound, rfl, rfl, hobserved⟩, rfl⟩
  · rintro ⟨s, hs, hsees, hconfidence⟩
    refine ⟨s, ⟨hs, hsees.found⟩, _, hsees.observed, ?_⟩
    rw [hsees.structName_eq, hsees.fieldName_eq, hconfidence]

namespace Verification

variable {layout : Layout} {sightings : List Sighting} {structName fieldName : String} {f : Field}

/-- The offset mismatches of a field that is checked are its sightings of other offsets than the
declared one. -/
theorem mem_mismatches_of_sightings (hf : layout.checkedField? structName fieldName = some f)
    {i : Issue} :
    i ∈ (ofObservations layout (Observation.ofSightings sightings)).issues ∧
        i.IsAbout .offsetMismatch structName fieldName ↔
      ∃ s ∈ sightings, ∃ offset, s.Sees structName fieldName offset ∧ offset ≠ f.offset ∧
        i = offsetMismatch ⟨structName, fieldName, offset, s.confidence⟩ f.offset := by
  constructor
  · rintro ⟨hi, habout⟩
    obtain ⟨o, ho, checked, hchecked, hne, rfl⟩ := mem_mismatches.mp ⟨hi, habout.kind_eq⟩
    obtain rfl : o.structName = structName := habout.structName_eq
    obtain rfl : o.fieldName = fieldName := Option.some.inj habout.fieldName_eq
    obtain rfl : f = checked := Option.some.inj (hf.symm.trans hchecked)
    obtain ⟨s, hs, hsees, hconfidence⟩ := Observation.mem_ofSightings.mp ho
    exact ⟨s, hs, _, hsees, hne.symm, by rw [hconfidence]⟩
  · rintro ⟨s, hs, offset, hsees, hne, rfl⟩
    have ho : ⟨structName, fieldName, offset, s.confidence⟩ ∈
        Observation.ofSightings sightings := Observation.mem_ofSightings.mpr ⟨s, hs, hsees, rfl⟩
    exact ⟨(mem_mismatches.mpr ⟨_, ho, f, hf, hne.symm, rfl⟩).1, rfl, rfl, rfl⟩

/-- The offsets of the mismatches of a field that is checked are those that sightings saw, the
declared one left out. -/
theorem observed_mismatch_iff (hf : layout.checkedField? structName fieldName = some f)
    {offset : UInt64} :
    (∃ i ∈ (ofObservations layout (Observation.ofSightings sightings)).issues,
        i.IsAbout .offsetMismatch structName fieldName ∧ i.observedOffset = some offset) ↔
      (∃ s ∈ sightings, s.Sees structName fieldName offset) ∧ offset ≠ f.offset := by
  constructor
  · rintro ⟨i, hi, habout, hobserved⟩
    obtain ⟨s, hs, _, hsees, hne, rfl⟩ := (mem_mismatches_of_sightings hf).mp ⟨hi, habout⟩
    obtain rfl := Option.some.inj hobserved
    exact ⟨⟨s, hs, hsees⟩, hne⟩
  · rintro ⟨⟨s, hs, hsees⟩, hne⟩
    obtain ⟨hi, habout⟩ :=
      (mem_mismatches_of_sightings hf).mpr ⟨s, hs, offset, hsees, hne, rfl⟩
    exact ⟨_, hi, habout, rfl⟩

end Verification

/-- Where the signatures of a checked field expect its declared offset, a scan reports a change of
the field exactly when the verification of what it saw reports an offset mismatch. One of the
mismatches then is the change, and they are at the offset of the change and its conflicts, the
declared offset left out. -/
theorem Binary.scan_agrees_with_verification {b : Binary} {sets : List SignatureSet}
    {scannedAt : String} {r : ScanReport} (h : b.scan sets scannedAt = .ok r) {layout : Layout}
    {structName fieldName : String} {s : StructLayout} {f : Field}
    (hanchor : fieldName ≠ Signature.anchorField) (hs : layout.struct? structName = some s)
    (hf : s.field? fieldName = some f)
    (hexpected : ∀ g ∈ sets.flatMap (·.signatures), g.structName = structName →
      g.fieldName = fieldName → g.expectedOffset = f.offset) :
    ((∃ c ∈ r.changes, c.structName = structName ∧ c.fieldName = fieldName) ↔
        ∃ i ∈ (Verification.ofObservations layout (Observation.ofSightings r.sightings)).issues,
          i.IsAbout .offsetMismatch structName fieldName) ∧
      ∀ c ∈ r.changes, c.structName = structName → c.fieldName = fieldName →
        (∃ i ∈ (Verification.ofObservations layout (Observation.ofSightings r.sightings)).issues,
          i.IsAbout .offsetMismatch structName fieldName ∧
            i.declaredOffset = some c.declaredOffset ∧
            i.observedOffset = some c.observedOffset ∧
            i.delta = some c.delta ∧ i.confidence = some c.confidence) ∧
        {offset | ∃ i ∈
            (Verification.ofObservations layout (Observation.ofSightings r.sightings)).issues,
          i.IsAbout .offsetMismatch structName fieldName ∧ i.observedOffset = some offset} =
          ({c.observedOffset} ∪ {offset | offset ∈ c.conflicts}) \ {f.offset} := by
  have hchecked : layout.checkedField? structName fieldName = some f :=
    Layout.checkedField?_eq_some_iff.mpr ⟨hanchor, s, hs, hf⟩
  obtain ⟨sightings, rfl, hsightings⟩ := sightings_of_scan h
  -- The sightings of the field expect its declared offset, so to change is to differ from that.
  have hdeclared : ∀ x ∈ sightings, ∀ offset, x.Sees structName fieldName offset →
      x.expectedOffset = f.offset := by
    intro x hx offset hsees
    obtain ⟨g, hg, hstruct, hfield, hoffset⟩ := hsightings x hx
    rw [hoffset]
    exact hexpected g hg (hstruct ▸ hsees.structName_eq) (hfield ▸ hsees.fieldName_eq)
  refine ⟨?_, fun c hc hstruct hfield => ?_⟩
  · rw [ScanReport.exists_mem_changes_iff]
    constructor
    · rintro ⟨x, hx, offset, hsees, hne⟩
      rw [hdeclared x hx offset hsees] at hne
      obtain ⟨hi, habout⟩ := (Verification.mem_mismatches_of_sightings hchecked).mpr
        ⟨x, hx, offset, hsees, hne, rfl⟩
      exact ⟨_, hi, habout⟩
    · rintro ⟨i, hi, habout⟩
      obtain ⟨x, hx, offset, hsees, hne, -⟩ :=
        (Verification.mem_mismatches_of_sightings hchecked).mp ⟨hi, habout⟩
      exact ⟨x, hx, offset, hsees, hdeclared x hx offset hsees ▸ hne⟩
  · have hsummary := ScanReport.summarises_of_mem_changes hc
    subst hstruct hfield
    constructor
    · obtain ⟨x, hx, hsees, hexpects, hconfidence⟩ := hsummary.best
      have hoffset : f.offset = c.declaredOffset := by
        rw [← hdeclared x hx _ hsees, hexpects]
      obtain ⟨hi, habout⟩ := (Verification.mem_mismatches_of_sightings hchecked).mpr
        ⟨x, hx, _, hsees, hoffset ▸ hsummary.moved, rfl⟩
      refine ⟨_, hi, habout, congrArg some hoffset, rfl, congrArg some ?_,
        congrArg some hconfidence⟩
      rw [hsummary.delta_eq, hoffset]
    · ext offset
      exact (Verification.observed_mismatch_iff hchecked).trans
        (and_congr_left fun _ => hsummary.seen_iff)

/-- A signature that spells a pattern, and no context, is looked for by this pattern. -/
theorem Binary.sightValid_of_text {b : Binary} {s : Signature} {p : Pattern} (hne : p ≠ [])
    (hmain : s.pattern = p.text) (hbefore : s.contextBefore = none)
    (hbehind : s.contextAfter = none) :
    b.sightValid s = .ok (b.sightPatterns s ⟨p, none, none⟩) := by
  rw [sightValid, Signature.patterns, hmain, Pattern.parse_text hne, hbefore, hbehind]
  rfl

namespace Disputed

/-- An instruction with this opcode, its displacement left open. -/
def pattern (opcode : UInt8) : Pattern :=
  [.fixed 0x48, .fixed opcode, .fixed 0x81, .wildcard, .wildcard, .wildcard, .wildcard]

/-- The signature of a field at offset 8 from an instruction with this opcode. -/
def signature (opcode : UInt8) : Signature :=
  { kind := .fieldAccess
    structName := "Foo"
    fieldName := "health"
    expectedOffset := 8
    pattern := (pattern opcode).text
    contextBefore := none
    contextAfter := none
    baseConfidence := 95
    instruction := none
    notes := none }

/-- Signatures of the field from a load, a store and an address computation. -/
def signatures : SignatureSet :=
  ⟨"Foo", "", none, SignatureSet.currentFormat, "", [0x8B, 0x89, 0x8D].map signature⟩

/-- A load from offset 8, a store to offset 16 and the address of offset 24. -/
def binary : Binary := Binary.ofCode "disputed.exe"
  [0x48, 0x8B, 0x81, 8, 0, 0, 0, 0x48, 0x89, 0x81, 16, 0, 0, 0, 0x48, 0x8D, 0x81, 24, 0, 0, 0]

/-- A layout with the field. -/
def layout : Layout :=
  ⟨"1", none, [⟨"Foo", none, none, [⟨some "health", 8, none, none⟩], [], []⟩]⟩

/-- The field as it is seen at a place of the file. -/
def sighting (site : Nat) (observed : UInt64) : Sighting :=
  ⟨"Foo", "health", .fieldAccess, 8, true, some site, some observed, 85, 1, false⟩

/-- A signature of the field is looked for by its pattern. -/
theorem sightValid_signature (opcode : UInt8) : binary.sightValid (signature opcode) =
    .ok (binary.sightPatterns (signature opcode) ⟨pattern opcode, none, none⟩) :=
  Binary.sightValid_of_text (List.cons_ne_nil _ _) rfl rfl rfl

/-- The field is seen once at each of the three offsets. -/
theorem scan_binary : binary.scan [signatures] "" = .ok
    (ScanReport.ofSightings binary.identifier binary.hash ""
      [sighting 160 8, sighting 167 16, sighting 174 24]) := by
  refine Binary.scan_eq (Binary.validImage_ofCode (by decide)) (mapM_eq_ok_iff.mpr ?_) ""
  refine .cons ?_ (.cons ?_ (.cons ?_ .nil)) <;>
    exact (sightValid_signature _).trans (congrArg Except.ok (by decide +kernel))

/-- The three sightings amount to one change, the first of those that saw another offset than the
expected one. -/
theorem ofSightings_three :
    OffsetChange.ofSightings [sighting 160 8, sighting 167 16, sighting 174 24] =
      [⟨"Foo", "health", 8, 16, 8, 85, none, [8, 24]⟩] := by
  have hfields : OffsetChange.byField [sighting 160 8, sighting 167 16, sighting 174 24] =
      [(("Foo", "health"), [sighting 160 8, sighting 167 16, sighting 174 24])] := by
    simp [OffsetChange.byField, Ordered.collect, List.eraseDups_cons, sighting]
  have hsorted : ([8, 24] : List UInt64).mergeSort (fun a b => decide (a ≤ b)) = [8, 24] :=
    List.mergeSort_of_pairwise (by decide)
  have hdelta : Delta.between 8 16 = 8 := by decide
  rw [OffsetChange.ofSightings, hfields]
  simp [OffsetChange.ofField?, sighting, Sighting.isChanged, Ordered.best?, hsorted, hdelta,
    Ordered.dropRepeats]

/-- Three signatures of the field disagree. The change is at the first offset that is not the
declared one, the other two are its conflicts, and the verification reports those that are not
the declared one. -/
theorem three_offsets_agree : ∃ r, binary.scan [signatures] "" = .ok r ∧
    (∃ c ∈ r.changes, c.structName = "Foo" ∧ c.fieldName = "health" ∧ c.observedOffset = 16 ∧
      c.conflicts = [8, 24]) ∧
    {offset | ∃ i ∈ (Verification.ofObservations layout
        (Observation.ofSightings r.sightings)).issues,
      i.IsAbout .offsetMismatch "Foo" "health" ∧ i.observedOffset = some offset} = {16, 24} := by
  have hchange : ∃ c ∈ (ScanReport.ofSightings binary.identifier binary.hash ""
      [sighting 160 8, sighting 167 16, sighting 174 24]).changes,
      c.structName = "Foo" ∧ c.fieldName = "health" ∧ c.observedOffset = 16 ∧
        c.conflicts = [8, 24] :=
    ⟨_, List.mem_map_of_mem (ofSightings_three ▸ List.mem_singleton_self _), rfl, rfl, rfl, rfl⟩
  have hstruct : layout.struct? "Foo" =
      some ⟨"Foo", none, none, [⟨some "health", 8, none, none⟩], [], []⟩ := rfl
  obtain ⟨-, hagree⟩ := Binary.scan_agrees_with_verification scan_binary (by decide) hstruct
    (rfl : StructLayout.field? _ "health" = some ⟨some "health", 8, none, none⟩) (by decide)
  refine ⟨_, scan_binary, hchange, ?_⟩
  obtain ⟨c, hc, hname, hfield, hobserved, hconflicts⟩ := hchange
  obtain ⟨-, hoffsets⟩ := hagree c hc hname hfield
  rw [hoffsets, hobserved, hconflicts]
  ext offset
  simp only [Set.mem_sdiff, Set.mem_union, Set.mem_singleton_iff, Set.mem_ofPred_eq, List.mem_cons,
    List.not_mem_nil, or_false, Set.mem_insert_iff]
  grind

end Disputed

end LayoutWatch
