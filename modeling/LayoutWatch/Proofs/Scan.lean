import LayoutWatch.Proofs.OffsetChange
import LayoutWatch.Proofs.Outcome
import LayoutWatch.Proofs.Sighting

/-!
# What a scan reports

A signature is found exactly where the search takes a site. A sighting is a change exactly when
an offset other than the expected one is ahead at these sites, and a scan reports no change
exactly when no sighting is one. A single changed sighting is reported as one change.
-/

namespace LayoutWatch

namespace Pattern

/-- No displacement leaves the range of a signed word of four bytes. -/
theorem displacement?_lt {p : Pattern} {bytes : Bytes} {offset : Nat} {displacement : Int}
    (h : p.displacement? bytes offset = some displacement) : displacement < 0x80000000 := by
  simp only [displacement?, Option.bind_eq_bind, Option.bind_eq_some_iff] at h
  obtain ⟨run, -, word, -, hword⟩ := h
  split at hword
  · next hwidth =>
    simp only [Option.some.injEq] at hword
    have hlt := signedLittleEndian_lt word
    rw [hword] at hlt
    rcases hwidth with hwidth | hwidth | hwidth <;>
      simp only [hwidth, wordCount] at hlt <;> omega
  · exact absurd hword (by simp)

end Pattern

namespace Sighting

/-- Where a pattern leaves a displacement open, a site carries an offset when it is read there. -/
theorem observe_eq_some_iff {b : Binary} {s : Signature} {p : Pattern} {run : Window}
    (hrun : p.wildcardRun? = some run) {site : Nat} {offset : UInt64} :
    observe b s p site = some offset ↔
      p.displacement? b.bytes site = some (offset.toNat : Int) := by
  unfold observe
  rw [hrun]
  simp only [Option.isNone_some, Bool.false_eq_true, if_false]
  cases hread : p.displacement? b.bytes site with
  | none => simp
  | some displacement =>
    have hlt := Pattern.displacement?_lt hread
    cases displacement with
    | ofNat n =>
      simp only [Option.some.injEq, Int.ofNat_eq_natCast] at hlt ⊢
      have hmod : (UInt64.ofNat n).toNat = n :=
        UInt64.toNat_ofNat_of_lt' (by rw [UInt64.size]; omega)
      rw [← UInt64.toNat_inj, hmod, Int.natCast_inj]
    | negSucc n => simp only [Option.some.injEq, reduceCtorEq]

/-- Where a pattern leaves nothing open, every site carries the expected offset. -/
theorem observe_eq_expected {b : Binary} {s : Signature} {p : Pattern}
    (hrun : p.wildcardRun? = none) (site : Nat) :
    observe b s p site = some s.expectedOffset := by
  simp [observe, hrun]

end Sighting

namespace Binary

/-- The sites that a search takes: those with the context, or, where there are none, those of the
bare pattern. -/
def takenSites (b : Binary) (kind : Signature.Kind) (p : Signature.Patterns) : List Nat :=
  if (b.contextSites kind p).isEmpty then b.sites (b.searchWindows kind) p.main
  else b.contextSites kind p

variable {b : Binary} {s : Signature} {p : Signature.Patterns}

/-- The sighting of a signature, from the sites that the search takes. -/
theorem sightPatterns_eq (b : Binary) (s : Signature) (p : Signature.Patterns) :
    b.sightPatterns s p =
      match b.takenSites s.kind p with
      | [] => Sighting.missing s
      | first :: rest =>
        let chosen :=
          Sighting.chooseSite first (first :: rest) (Sighting.observe b s p.main)
        { structName := s.structName
          fieldName := s.fieldName
          kind := s.kind
          expectedOffset := s.expectedOffset
          found := true
          fileOffset := some chosen.1
          observedOffset := chosen.2
          confidence :=
            Score.found s.kind (first :: rest).length (!(b.contextSites s.kind p).isEmpty)
          occurrences := (first :: rest).length
          contextMatched := !(b.contextSites s.kind p).isEmpty } := by
  have htaken : (if (b.contextSites s.kind p).isEmpty = true then
      b.sites (b.searchWindows s.kind) p.main else b.contextSites s.kind p) =
        b.takenSites s.kind p := rfl
  simp only [sightPatterns, htaken]
  cases b.takenSites s.kind p with
  | nil => rfl
  | cons first rest => rfl

/-- A sighting carries the names and the expected offset of its signature. -/
theorem sightPatterns_names (b : Binary) (s : Signature) (p : Signature.Patterns) :
    (b.sightPatterns s p).structName = s.structName ∧
      (b.sightPatterns s p).fieldName = s.fieldName ∧
      (b.sightPatterns s p).kind = s.kind ∧
      (b.sightPatterns s p).expectedOffset = s.expectedOffset := by
  rw [sightPatterns_eq]
  split
  · exact ⟨rfl, rfl, rfl, rfl⟩
  · exact ⟨rfl, rfl, rfl, rfl⟩

/-- A signature is found exactly when the search takes a site. -/
@[simp] theorem found_sightPatterns :
    (b.sightPatterns s p).found = true ↔ b.takenSites s.kind p ≠ [] := by
  rw [sightPatterns_eq]
  split
  · next hsites => simp [Sighting.missing, hsites]
  · next hsites => simp [hsites]

/-- The offset seen by a sighting is voted for by the sites that the search takes. -/
theorem observedOffset_sightPatterns :
    (b.sightPatterns s p).observedOffset =
      (Sighting.chooseSite ((b.takenSites s.kind p).headD 0) (b.takenSites s.kind p)
        (Sighting.observe b s p.main)).2 := by
  rw [sightPatterns_eq]
  split
  · next hsites =>
    rw [hsites]
    rfl
  · next hsites => rw [hsites, List.headD_cons]

/-- A sighting is a change exactly when another offset than the expected one is ahead of it. -/
theorem isChanged_sightPatterns :
    (b.sightPatterns s p).isChanged = true ↔ ∃ other, other ≠ s.expectedOffset ∧
      Sighting.Ahead
        (Sighting.carriers (b.takenSites s.kind p) (Sighting.observe b s p.main) other)
        (Sighting.carriers (b.takenSites s.kind p) (Sighting.observe b s p.main)
          s.expectedOffset) := by
  rw [Sighting.isChanged, (sightPatterns_names b s p).2.2.2, Bool.and_eq_true, found_sightPatterns,
    observedOffset_sightPatterns, Sighting.chooseSite_other_iff, and_iff_right_iff_imp]
  rintro ⟨other, -, hother⟩ hnone
  rw [hnone] at hother
  exact Sighting.ne_nil_of_ahead hother rfl

/-- At a single site the sighting reports that site and what is read there. -/
theorem sightPatterns_singleton {site : Nat} (hsites : b.takenSites s.kind p = [site]) :
    (b.sightPatterns s p).found = true ∧ (b.sightPatterns s p).fileOffset = some site ∧
      (b.sightPatterns s p).occurrences = 1 ∧
      (b.sightPatterns s p).observedOffset = Sighting.observe b s p.main site := by
  simp [sightPatterns_eq, hsites]

/-- The search takes the sites with the context, where there are any. -/
theorem takenSites_of_context {kind : Signature.Kind} (h : b.contextSites kind p ≠ []) :
    b.takenSites kind p = b.contextSites kind p := by
  rw [takenSites, if_neg (by simpa using h)]

/-- A site of the bare pattern leaves the search with some site. -/
theorem takenSites_ne_nil {kind : Signature.Kind} {site : Nat}
    (h : site ∈ b.sites (b.searchWindows kind) p.main) : b.takenSites kind p ≠ [] := by
  rw [takenSites]
  split
  · exact List.ne_nil_of_mem h
  · next hsites => simpa using hsites

end Binary

namespace ScanReport

variable {identifier hash scannedAt : String} {sightings : List Sighting}

/-- Each change of a report summarises its sightings: the labels of shared shifts leave the rest
as it is. -/
theorem summarises_of_mem_changes {c : OffsetChange}
    (h : c ∈ (ofSightings identifier hash scannedAt sightings).changes) :
    c.Summarises sightings := by
  obtain ⟨unlabelled, hmem, rfl⟩ := List.mem_map.mp h
  obtain ⟨hbest, hmoved, hdelta, hconflicts⟩ := OffsetChange.summarises_of_mem hmem
  exact ⟨hbest, hmoved, hdelta, hconflicts⟩

/-- A report lists a change of a field exactly when one of its sightings saw another offset than
expected. -/
theorem exists_mem_changes_iff {structName fieldName : String} :
    (∃ c ∈ (ofSightings identifier hash scannedAt sightings).changes,
        c.structName = structName ∧ c.fieldName = fieldName) ↔
      ∃ s ∈ sightings, ∃ offset, s.Sees structName fieldName offset ∧
        offset ≠ s.expectedOffset := by
  rw [← OffsetChange.exists_mem_ofSightings_iff]
  simp [ofSightings, OffsetChange.labelled]

/-- A report lists no change exactly when no sighting is one. -/
theorem changes_eq_nil_iff :
    (ofSightings identifier hash scannedAt sightings).changes = [] ↔
      ∀ s ∈ sightings, s.isChanged = false := by
  rw [← OffsetChange.ofSightings_eq_nil_iff]
  exact List.map_eq_nil_iff

/-- A report without a change lists no shared shift either. -/
theorem no_changes_iff :
    (ofSightings identifier hash scannedAt sightings).changes = [] ∧
        (ofSightings identifier hash scannedAt sightings).shifts = [] ↔
      ∀ s ∈ sightings, s.isChanged = false := by
  rw [changes_eq_nil_iff, ← OffsetChange.ofSightings_eq_nil_iff, and_iff_left_iff_imp]
  intro hnone
  simp [ofSightings, hnone, ShiftGroup.ofSamples]

/-- A scan is complete when every sighting was found. -/
theorem isComplete_of_found (h : ∀ s ∈ sightings, s.found = true) :
    (ofSightings identifier hash scannedAt sightings).isComplete = true := by
  have hmatched : sightings.countP (·.found) = sightings.length := List.countP_eq_length.mpr h
  simp [isComplete, ofSightings, hmatched]

end ScanReport

/-- A scan of a valid binary reports on the sighting of each signature in turn. -/
theorem Binary.scan_eq {b : Binary} {image : Image} (hvalid : b.validImage = .ok image)
    {sets : List SignatureSet} {sightings : List Sighting}
    (h : (sets.flatMap (·.signatures)).mapM b.sightValid = .ok sightings) (scannedAt : String) :
    b.scan sets scannedAt =
      .ok (ScanReport.ofSightings b.identifier b.hash scannedAt sightings) := by
  simp [scan, hvalid, h]

/-- A scan reports on the sightings of its signatures. -/
theorem Binary.exists_sightings_of_scan {b : Binary} {sets : List SignatureSet}
    {scannedAt : String} {r : ScanReport} (h : b.scan sets scannedAt = .ok r) :
    ∃ sightings, (sets.flatMap (·.signatures)).mapM b.sightValid = .ok sightings ∧
      r = ScanReport.ofSightings b.identifier b.hash scannedAt sightings := by
  cases hvalid : b.validImage with
  | error fault => simp [scan, hvalid] at h
  | ok image =>
    cases hsightings : (sets.flatMap (·.signatures)).mapM b.sightValid with
    | error fault => simp [scan, hvalid, hsightings] at h
    | ok sightings =>
      rw [scan_eq hvalid hsightings] at h
      exact ⟨sightings, rfl, (Except.ok.inj h).symm⟩

/-- A scan reports on sightings of its signatures, each of which has the names and the expectation
of one of them. -/
theorem Binary.sightings_of_scan {b : Binary} {sets : List SignatureSet} {scannedAt : String}
    {r : ScanReport} (h : b.scan sets scannedAt = .ok r) :
    ∃ sightings, r = ScanReport.ofSightings b.identifier b.hash scannedAt sightings ∧
      ∀ x ∈ sightings, ∃ g ∈ sets.flatMap (·.signatures), x.structName = g.structName ∧
        x.fieldName = g.fieldName ∧ x.expectedOffset = g.expectedOffset := by
  obtain ⟨sightings, hsightings, hreport⟩ := exists_sightings_of_scan h
  refine ⟨sightings, hreport, fun x hx => ?_⟩
  obtain ⟨g, hg, hsight⟩ := exists_of_mem_mapM hsightings hx
  rw [sightValid] at hsight
  split at hsight
  · next p _ =>
    obtain rfl := Except.ok.inj hsight
    obtain ⟨hstruct, hfield, -, hexpected⟩ := sightPatterns_names b g p
    exact ⟨g, hg, hstruct, hfield, hexpected⟩
  · exact absurd hsight (by simp)

/-- Every signature of a scan is counted once, as found or as missing. -/
theorem Binary.counts_of_scan {b : Binary} {sets : List SignatureSet} {scannedAt : String}
    {r : ScanReport} (h : b.scan sets scannedAt = .ok r) :
    r.matched + r.missing = r.total ∧ r.total = (sets.flatMap (·.signatures)).length := by
  obtain ⟨sightings, hsightings, rfl⟩ := exists_sightings_of_scan h
  have hmatched : sightings.countP (·.found) ≤ sightings.length := List.countP_le_length
  have hlength := (mapM_eq_ok_iff.mp hsightings).length_eq
  exact ⟨Nat.add_sub_cancel' hmatched, hlength.symm⟩

end LayoutWatch
