import LayoutWatch.Proofs.SelfScan

/-!
# The site that a signature was made from

The signature of a field records the access that it was made from. Its bare pattern is read back,
matches at that site of the binary and reads the offset of the field there. So a scan of a binary
for the signatures that were extracted from it has a result, and no signature is missing.
-/

namespace LayoutWatch

open Extraction

namespace Binary

/-- The signature of a field records the access at this site, which is the first one with the
offset of the field as displacement. -/
def RecordsSite (b : Binary) (s : Signature) (site : Nat) : Prop :=
  ∃ first rest, (AccessIndex.build b.image b.bytes).lookup s.expectedOffset.toNat = first :: rest ∧
    first.fileOffset = site ∧ s.instruction = some first.kind ∧
    s.notes = some (siteRemark first (rest.length + 1))

/-- The bare pattern of a signature is found at a site, and the offset of the field is read
there. -/
def ReadsOffsetAt (b : Binary) (s : Signature) (site : Nat) : Prop :=
  ∃ p, Pattern.parse s.pattern = .ok p ∧ site ∈ b.sites (b.searchWindows s.kind) p ∧
    p.matchesAt b.bytes site = true ∧
    p.displacement? b.bytes site = some (s.expectedOffset.toNat : Int)

variable {b : Binary} {s : Signature} {fields : List Declaration} {options : ExtractOptions}
  {extractedAt : String} {e : Extraction}

/-- A signature whose texts are read has its bare pattern read first. -/
theorem parse_of_patterns {p : Signature.Patterns} (h : s.patterns = .ok p) :
    Pattern.parse s.pattern = .ok p.main := by
  obtain ⟨main, hmain, h⟩ := bind_eq_ok_iff.mp h
  obtain ⟨before, -, h⟩ := bind_eq_ok_iff.mp h
  obtain ⟨behind, -, h⟩ := bind_eq_ok_iff.mp h
  rw [hmain, ← Except.ok.inj h]

/-- The signature of an access reads the offset of its field at the access. -/
theorem readsOffsetAt_fieldSignature {a : Access} {d : Declaration}
    (h : a ∈ (AccessIndex.build b.image b.bytes).lookup d.offset.toNat) (options : ExtractOptions)
    (sites : Nat) : b.ReadsOffsetAt (fieldSignature b options d a sites) a.fileOffset := by
  obtain ⟨-, -, -, -, hat⟩ := AccessIndex.mem_lookup_build.mp h
  have hparse := parse_of_patterns (patterns_fieldSignature h options d sites)
  have hsite : a.fileOffset ∈ b.sites (b.searchWindows .fieldAccess) a.pattern :=
    mem_sites_pattern h rfl rfl fun i _ => rfl
  obtain ⟨-, -, -, -, -, hmatch⟩ := mem_sites.mp hsite
  exact ⟨a.pattern, hparse, hsite, hmatch, Access.displacement?_pattern_self hat⟩

/-- Each signature of a field that was extracted reads its offset at the site that it records. -/
theorem readsOffsetAt_of_extract (h : b.extract fields options extractedAt = .ok e)
    (hs : s ∈ e.sets.flatMap (·.signatures)) (hkind : s.kind = .fieldAccess) :
    ∃ site, b.RecordsSite s site ∧ b.ReadsOffsetAt s site := by
  rcases (mem_signatures_iff h).mp hs with ⟨d, -, hcovered⟩ | htype
  · obtain ⟨first, rest, hlookup, -, -, rfl⟩ := attempt_eq_covered_iff.mp hcovered
    exact ⟨first.fileOffset, ⟨first, rest, hlookup, rfl, rfl, rfl⟩,
      readsOffsetAt_fieldSignature (hlookup ▸ List.mem_cons_self) options _⟩
  · obtain ⟨structName, hname⟩ := typeNameSignature?_of_mem htype
    exact absurd ((typeNameSignature?_parts hname).1.symm.trans hkind) (by simp)

/-- A binary is scanned for the signatures that were extracted from it: there is a result, each
signature is found, and each signature of a field reads its offset at the site that it records. -/
theorem scan_finds_extracted (h : b.extract fields options extractedAt = .ok e)
    (scannedAt : String) :
    ∃ r, b.scan e.sets scannedAt = .ok r ∧ r.total = e.signatureCount ∧ r.missing = 0 ∧
      ∀ s ∈ e.sets.flatMap (·.signatures), s.kind = .fieldAccess →
        ∃ site, b.RecordsSite s site ∧ b.ReadsOffsetAt s site := by
  obtain ⟨sightings, hscan, hown⟩ := exists_sightings_of_extract h scannedAt
  have hfound : ∀ x ∈ sightings, x.found = true :=
    (forall_mem_iff_of_forall₂ (P := fun _ => True) hown fun s x hsees =>
      iff_of_true trivial hsees.found).mp fun _ _ => trivial
  refine ⟨_, hscan, hown.length_eq.symm, ?_, fun s hs hkind => readsOffsetAt_of_extract h hs hkind⟩
  exact beq_iff_eq.mp (ScanReport.isComplete_of_found hfound)

/-- The single load of a file is found again for two fields at its offset, one of them without a
name of its own. -/
theorem scan_finds_extracted_loner : ∃ e r,
    loner.extract [health, ⟨"Bar", "", 16⟩] .standard "" = .ok e ∧ loner.scan e.sets "" = .ok r ∧
      r.total = e.signatureCount ∧ r.missing = 0 ∧
      ∃ s ∈ e.sets.flatMap (·.signatures), s.kind = .fieldAccess ∧ s.structName = "Bar" ∧
        ∃ site, loner.RecordsSite s site ∧ loner.ReadsOffsetAt s site := by
  have hlookup : (AccessIndex.build loner.image loner.bytes).lookup health.offset.toNat =
      [lonerAccess] := by decide +kernel
  have hvalid : loner.validImage = .ok loner.image := validImage_ofCode (by decide)
  obtain ⟨e, he⟩ := exists_extract hvalid [health, ⟨"Bar", "", 16⟩] .standard ""
  obtain ⟨r, hscan, htotal, hmissing, hread⟩ := scan_finds_extracted he ""
  have hs : fieldSignature loner .standard ⟨"Bar", "", 16⟩ lonerAccess 1 ∈
      e.sets.flatMap (·.signatures) :=
    (mem_signatures_iff he).mpr (Or.inl ⟨⟨"Bar", "", 16⟩, by simp,
      attempt_eq_covered_iff.mpr ⟨lonerAccess, [], hlookup, by decide, by decide, rfl⟩⟩)
  exact ⟨e, r, he, hscan, htotal, hmissing, _, hs, rfl, rfl, hread _ hs rfl⟩

end Binary

end LayoutWatch
