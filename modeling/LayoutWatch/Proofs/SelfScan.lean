import LayoutWatch.Proofs.CodeImage
import LayoutWatch.Proofs.Extraction
import Mathlib.Data.List.Pairwise

/-!
# A binary scanned for its own signatures

Every signature that was extracted from a binary is found in it again. It is seen at its own
offset unless it is outvoted there: code that looks alike may read another offset at more sites
than the extracted one is read at, or at as many with an earlier first one. A scan of the binary
for its own signatures reports a change exactly when one of them is outvoted.
-/

namespace LayoutWatch

/-- One window ends where the other begins or in front of it. -/
def Window.Apart (v w : Window) : Prop := v.stop ≤ w.start ∨ w.stop ≤ v.start

instance : Std.Symm Window.Apart := ⟨fun _ _ => Or.symm⟩

namespace Binary

/-- The sites that the search takes at which this offset is read as the displacement. -/
def readers (b : Binary) (kind : Signature.Kind) (p : Signature.Patterns) (offset : UInt64) :
    List Nat :=
  (b.takenSites kind p).filter fun site =>
    p.main.displacement? b.bytes site == some (offset.toNat : Int)

/-- Another offset than the expected one is ahead at the sites that the search takes. -/
def Outvoted (b : Binary) (s : Signature) : Prop :=
  ∃ p, s.patterns = .ok p ∧ ∃ other, other ≠ s.expectedOffset ∧
    Sighting.Ahead (b.readers s.kind p other) (b.readers s.kind p s.expectedOffset)

/-- No two executable sections share a part of the file. -/
def SectionsApart (b : Binary) : Prop := b.executableWindows.Pairwise Window.Apart

/-- What a binary shows of a signature that was extracted from it. -/
structure SeesOwn (b : Binary) (s : Signature) (x : Sighting) : Prop where
  /-- The signature is found. -/
  found : x.found = true
  /-- It is a change exactly when it is outvoted. -/
  isChanged_iff : x.isChanged = true ↔ b.Outvoted s
  /-- A type name is seen at offset zero. -/
  typeName : s.kind = .typeName → x.observedOffset = some 0
  /-- The expected offset is seen unless it is outvoted. -/
  observed_iff : b.SectionsApart → (x.observedOffset = some s.expectedOffset ↔ ¬b.Outvoted s)

variable {b : Binary} {s : Signature} {p : Signature.Patterns}

/-- Where the pattern leaves a displacement open, the sites at which an offset is read are those
that carry it. -/
theorem readers_eq_carriers {run : Window} (hrun : p.main.wildcardRun? = some run)
    (offset : UInt64) :
    b.readers s.kind p offset =
      Sighting.carriers (b.takenSites s.kind p) (Sighting.observe b s p.main) offset := by
  refine List.filter_congr fun site _ => ?_
  rw [Bool.eq_iff_iff, beq_iff_eq, beq_iff_eq, Sighting.observe_eq_some_iff hrun]

/-- Where the pattern leaves nothing open, no offset is read. -/
theorem readers_eq_nil (hrun : p.main.wildcardRun? = none) (kind : Signature.Kind)
    (offset : UInt64) : b.readers kind p offset = [] := by
  rw [readers, List.filter_eq_nil_iff]
  intro site _
  simp [Pattern.displacement?, hrun]

/-- What it takes to outvote a signature whose patterns are known. -/
theorem outvoted_iff (hpatterns : s.patterns = .ok p) :
    b.Outvoted s ↔ ∃ other, other ≠ s.expectedOffset ∧
      Sighting.Ahead (b.readers s.kind p other) (b.readers s.kind p s.expectedOffset) := by
  rw [Outvoted, hpatterns]
  constructor
  · intro houtvoted
    rcases houtvoted with ⟨q, heq, hother⟩
    obtain rfl : p = q := Except.ok.inj heq
    exact hother
  · intro hother
    exact ⟨p, rfl, hother⟩

/-- A signature is not outvoted where each site that the search takes reads its own offset. -/
theorem not_outvoted_of_agree (hpatterns : s.patterns = .ok p)
    (hagree : ∀ site ∈ b.takenSites s.kind p,
      p.main.displacement? b.bytes site = some (s.expectedOffset.toNat : Int)) :
    ¬b.Outvoted s := by
  rw [outvoted_iff hpatterns]
  intro houtvoted
  rcases houtvoted with ⟨other, hne, hother⟩
  obtain ⟨site, hsite⟩ := List.exists_mem_of_ne_nil _ (Sighting.ne_nil_of_ahead hother)
  obtain ⟨htaken, hread⟩ := List.mem_filter.mp hsite
  rw [hagree site htaken, beq_iff_eq, Option.some.injEq, Int.natCast_inj] at hread
  exact hne (UInt64.toNat_inj.mp hread).symm

/-- The sighting of a signature with an open displacement is a change exactly when the signature is
outvoted. -/
theorem isChanged_iff_outvoted {run : Window} (hpatterns : s.patterns = .ok p)
    (hrun : p.main.wildcardRun? = some run) :
    (b.sightPatterns s p).isChanged = true ↔ b.Outvoted s := by
  simp only [isChanged_sightPatterns, outvoted_iff hpatterns, readers_eq_carriers hrun]

/-- Where executable sections are apart, the first one that holds a site holds the whole
instruction of an access there. -/
theorem find?_executableWindows (hapart : b.SectionsApart) {a : Access} {displacement : Nat}
    (h : a ∈ (AccessIndex.build b.image b.bytes).lookup displacement) :
    ∃ w, b.executableWindows.find? (·.contains a.fileOffset) = some w ∧
      a.fileOffset + Access.length ≤ w.stop := by
  obtain ⟨w, hw, hstart, hstop, -⟩ := AccessIndex.mem_lookup_build.mp h
  have hlength : 0 < Access.length := by decide
  cases hfirst : b.executableWindows.find? (·.contains a.fileOffset) with
  | none =>
    have hnone := List.find?_eq_none.mp hfirst w hw
    exact absurd (Window.contains_iff.mpr ⟨hstart, by omega⟩) hnone
  | some v =>
    refine ⟨v, rfl, ?_⟩
    have hv : v.contains a.fileOffset = true := by simpa using List.find?_some hfirst
    obtain ⟨hvstart, hvstop⟩ := Window.contains_iff.mp hv
    by_cases heq : v = w
    · exact heq ▸ hstop
    · rcases hapart.forall (List.mem_of_find?_eq_some hfirst) hw heq with hbehind | hbehind
      · omega
      · omega

/-- A binary shows the signature of one of its accesses as its own. -/
theorem seesOwn_fieldSignature {a : Access} {d : Declaration}
    (h : a ∈ (AccessIndex.build b.image b.bytes).lookup d.offset.toNat) (options : ExtractOptions)
    (sites : Nat) :
    ∃ x, b.sightValid (Extraction.fieldSignature b options d a sites) = .ok x ∧
      b.SeesOwn (Extraction.fieldSignature b options d a sites) x := by
  obtain ⟨-, -, -, -, hat⟩ := AccessIndex.mem_lookup_build.mp h
  have hrun : (b.accessPatterns options a).main.wildcardRun? = some Access.displacementWindow :=
    (Access.pattern_shape hat).2
  have hpatterns := patterns_fieldSignature h options d sites
  refine ⟨b.sightPatterns _ (b.accessPatterns options a), by rw [sightValid, hpatterns], ?_⟩
  refine ⟨?_, isChanged_iff_outvoted hpatterns hrun, ?_, ?_⟩
  · rw [found_sightPatterns]
    exact takenSites_ne_nil (mem_sites_pattern h rfl rfl fun i _ => rfl)
  · intro hkind
    simp [Extraction.fieldSignature] at hkind
  · intro hapart
    obtain ⟨w, hw, hfit⟩ := find?_executableWindows hapart h
    have hown := mem_takenSites_own h hw hfit options
    have hread : Sighting.observe b (Extraction.fieldSignature b options d a sites)
        (b.accessPatterns options a).main a.fileOffset = some d.offset :=
      (Sighting.observe_eq_some_iff hrun).mpr (Access.displacement?_pattern_self hat)
    rw [observedOffset_sightPatterns, Sighting.chooseSite_own_iff]
    · simp only [outvoted_iff hpatterns, readers_eq_carriers hrun]
    · exact List.ne_nil_of_mem (List.mem_filter.mpr ⟨hown, beq_iff_eq.mpr hread⟩)

/-- No type name is outvoted. -/
theorem not_outvoted_typeNameSignature {options : ExtractOptions} {structName : String}
    (h : Extraction.typeNameSignature? b options structName = some s) : ¬b.Outvoted s := by
  obtain ⟨-, -, main, hrun, hpatterns, -⟩ := patterns_typeNameSignature h
  rw [outvoted_iff hpatterns]
  intro houtvoted
  rcases houtvoted with ⟨other, -, hother⟩
  exact Sighting.ne_nil_of_ahead hother (readers_eq_nil hrun _ _)

/-- A binary shows the signature of one of its type names at offset zero. -/
theorem seesOwn_typeNameSignature {options : ExtractOptions} {structName : String}
    (h : Extraction.typeNameSignature? b options structName = some s) :
    ∃ x, b.sightValid s = .ok x ∧ b.SeesOwn s x := by
  obtain ⟨hkind, hexpected, main, hrun, hpatterns, hsites⟩ := patterns_typeNameSignature h
  have htaken : b.takenSites s.kind ⟨main, none, none⟩ ≠ [] := by
    obtain ⟨site, hsite⟩ := List.exists_mem_of_ne_nil _ hsites
    exact hkind ▸ takenSites_ne_nil hsite
  have hcarriers : ∀ other, Sighting.carriers (b.takenSites s.kind ⟨main, none, none⟩)
      (Sighting.observe b s main) other =
      if s.expectedOffset = other then b.takenSites s.kind ⟨main, none, none⟩ else [] := by
    intro other
    simp only [Sighting.carriers, Sighting.observe_eq_expected hrun]
    by_cases hother : s.expectedOffset = other <;> simp [hother]
  have houtvoted := not_outvoted_typeNameSignature h
  have hobserved : (b.sightPatterns s ⟨main, none, none⟩).observedOffset =
      some s.expectedOffset := by
    rw [observedOffset_sightPatterns, Sighting.chooseSite_own_iff]
    · intro hahead
      rcases hahead with ⟨other, hne, hother⟩
      refine Sighting.ne_nil_of_ahead hother ?_
      rw [hcarriers, if_neg (Ne.symm hne)]
    · rw [hcarriers, if_pos rfl]
      exact htaken
  refine ⟨b.sightPatterns s ⟨main, none, none⟩, by rw [sightValid, hpatterns],
    found_sightPatterns.mpr htaken, ?_, ?_, ?_⟩
  · refine iff_of_false ?_ houtvoted
    rw [Sighting.isChanged, hobserved, (sightPatterns_names b s _).2.2.2]
    simp
  · intro _
    rw [hobserved, hexpected]
  · intro _
    exact iff_of_true hobserved houtvoted

section Scan

variable {fields : List Declaration} {options : ExtractOptions} {extractedAt : String}
  {e : Extraction}

/-- A binary shows each signature that was extracted from it as its own. -/
theorem seesOwn_of_extract (h : b.extract fields options extractedAt = .ok e)
    (hs : s ∈ e.sets.flatMap (·.signatures)) : ∃ x, b.sightValid s = .ok x ∧ b.SeesOwn s x := by
  rcases (mem_signatures_iff h).mp hs with ⟨d, -, hcovered⟩ | htype
  · obtain ⟨first, rest, hlookup, -, -, rfl⟩ := Extraction.attempt_eq_covered_iff.mp hcovered
    exact seesOwn_fieldSignature (hlookup ▸ List.mem_cons_self) options _
  · obtain ⟨structName, hstruct⟩ := typeNameSignature?_of_mem htype
    exact seesOwn_typeNameSignature hstruct

/-- A scan for the own signatures of a binary has a result, and each of them is shown in it. -/
theorem exists_sightings_of_extract (h : b.extract fields options extractedAt = .ok e)
    (scannedAt : String) :
    ∃ sightings, b.scan e.sets scannedAt =
        .ok (ScanReport.ofSightings b.identifier b.hash scannedAt sightings) ∧
      List.Forall₂ b.SeesOwn (e.sets.flatMap (·.signatures)) sightings := by
  obtain ⟨sightings, hsightings, hown⟩ := exists_mapM_eq_ok fun s hs => seesOwn_of_extract h hs
  exact ⟨sightings, scan_eq (validImage_of_extract h) hsightings scannedAt, hown⟩

/-- The sightings of the own signatures hold no change exactly when none of them is outvoted. -/
theorem unchanged_iff_of_seesOwn {signatures : List Signature} {sightings : List Sighting}
    (hown : List.Forall₂ b.SeesOwn signatures sightings) :
    (∀ x ∈ sightings, x.isChanged = false) ↔ ∀ s ∈ signatures, ¬b.Outvoted s := by
  refine (forall_mem_iff_of_forall₂ hown fun s x hsees => ?_).symm
  rw [← hsees.isChanged_iff, Bool.not_eq_true]

/-- A binary is scanned for the signatures that were extracted from it: each is found and shown as
its own, and a change or a shared shift is reported exactly when one of them is outvoted. -/
theorem scan_of_extract (h : b.extract fields options extractedAt = .ok e) (scannedAt : String) :
    ∃ r, b.scan e.sets scannedAt = .ok r ∧ r.isComplete = true ∧
      List.Forall₂ b.SeesOwn (e.sets.flatMap (·.signatures)) r.sightings ∧
      (r.changes = [] ∧ r.shifts = [] ↔ ∀ s ∈ e.sets.flatMap (·.signatures), ¬b.Outvoted s) := by
  obtain ⟨sightings, hscan, hown⟩ := exists_sightings_of_extract h scannedAt
  refine ⟨_, hscan, ?_, hown, ?_⟩
  · have hfound : ∀ x ∈ sightings, x.found = true :=
      (forall_mem_iff_of_forall₂ (P := fun _ => True) hown fun s x hsees =>
        iff_of_true trivial hsees.found).mp fun _ _ => trivial
    exact ScanReport.isComplete_of_found hfound
  · rw [ScanReport.no_changes_iff]
    exact unchanged_iff_of_seesOwn hown

/-- A load from offset 16 as the only code of a file. -/
def loner : Binary := ofCode "loner.exe" [0x48, 0x8B, 0x81, 0x10, 0, 0, 0]

/-- The access of that load. -/
def lonerAccess : Access := ⟨160, .load, [0x48, 0x8B, 0x81, 0x10, 0, 0, 0]⟩

/-- A load from offset 16 and two that look alike from offset 32, each between filler bytes. -/
def lookalikes : Binary :=
  let filler := List.replicate 8 0xCC
  let load := fun offset => [0x48, 0x8B, 0x81, offset, 0, 0, 0]
  ofCode "lookalikes.exe"
    (filler ++ load 0x10 ++ filler ++ load 0x20 ++ filler ++ load 0x20 ++ filler)

/-- The access of the load from offset 16. -/
def outvotedAccess : Access := ⟨168, .load, [0x48, 0x8B, 0x81, 0x10, 0, 0, 0]⟩

/-- A field at offset 16. -/
def health : Declaration := ⟨"Foo", "health", 16⟩

/-- The load that stands alone is seen where it was. -/
theorem scan_of_extract_loner : ∃ e r, loner.extract [health] .standard "" = .ok e ∧
    loner.scan e.sets "" = .ok r ∧ r.isComplete = true ∧ (r.changes = [] ∧ r.shifts = []) ∧
      List.Forall₂ (fun s x => x.observedOffset = some s.expectedOffset)
        (e.sets.flatMap (·.signatures)) r.sightings := by
  have hlookup : (AccessIndex.build loner.image loner.bytes).lookup health.offset.toNat =
      [lonerAccess] := by decide +kernel
  have hagree : ∀ site ∈ loner.takenSites .fieldAccess
      (loner.accessPatterns .standard lonerAccess),
      lonerAccess.pattern.displacement? loner.bytes site = some 16 := by decide +kernel
  have hvalid : loner.validImage = .ok loner.image := validImage_ofCode (by decide)
  have hapart : loner.SectionsApart := by
    rw [SectionsApart, loner, executableWindows_ofCode (by decide)]
    exact List.pairwise_singleton _ _
  obtain ⟨e, he⟩ := exists_extract hvalid [health] .standard ""
  have hquiet : ∀ s ∈ e.sets.flatMap (·.signatures), ¬loner.Outvoted s := by
    intro s hs
    rcases (mem_signatures_iff he).mp hs with ⟨d, hd, hcovered⟩ | htype
    · obtain rfl := List.mem_singleton.mp hd
      obtain ⟨first, rest, hfirst, -, -, rfl⟩ := Extraction.attempt_eq_covered_iff.mp hcovered
      obtain ⟨rfl, rfl⟩ := List.cons.inj (hlookup.symm.trans hfirst)
      exact not_outvoted_of_agree
        (patterns_fieldSignature (hlookup ▸ List.mem_cons_self) _ _ _) hagree
    · obtain ⟨structName, hstruct⟩ := typeNameSignature?_of_mem htype
      exact not_outvoted_typeNameSignature hstruct
  obtain ⟨r, hscan, hcomplete, hown, hnone⟩ := scan_of_extract he ""
  refine ⟨e, r, he, hscan, hcomplete, hnone.mpr hquiet, ?_⟩
  have hboth := (List.forall₂_and_left _ _).mpr ⟨hquiet, hown⟩
  exact hboth.imp fun _ _ h => (h.2.observed_iff hapart).mpr h.1

/-- Among loads that look alike the own offset is outvoted, so a binary may show a change against
itself. -/
theorem lookalikes_change : ∃ e r, lookalikes.extract [health] .standard "" = .ok e ∧
    lookalikes.scan e.sets "" = .ok r ∧ r.changes ≠ [] := by
  have hlookup : (AccessIndex.build lookalikes.image lookalikes.bytes).lookup
      health.offset.toNat = [outvotedAccess] := by decide +kernel
  obtain ⟨p, hp⟩ : ∃ p, p = lookalikes.accessPatterns .standard outvotedAccess := ⟨_, rfl⟩
  have htaken : lookalikes.takenSites .fieldAccess p = [168, 183, 198] := by
    rw [hp]
    decide +kernel
  have hahead : Sighting.Ahead (lookalikes.readers .fieldAccess p 32)
      (lookalikes.readers .fieldAccess p 16) := by
    rw [readers, readers, htaken, hp]
    decide +kernel
  have hvalid : lookalikes.validImage = .ok lookalikes.image := validImage_ofCode (by decide)
  obtain ⟨e, he⟩ := exists_extract hvalid [health] .standard ""
  obtain ⟨sightings, hscan, hown⟩ := exists_sightings_of_extract he ""
  refine ⟨e, _, he, hscan, ?_⟩
  rw [Ne, ScanReport.changes_eq_nil_iff, unchanged_iff_of_seesOwn hown]
  intro hnone
  refine hnone _ ((mem_signatures_iff he).mpr (Or.inl ⟨health, List.mem_singleton_self _,
    Extraction.attempt_eq_covered_iff.mpr
      ⟨outvotedAccess, [], hlookup, by decide, by decide, rfl⟩⟩)) ?_
  have hpatterns := patterns_fieldSignature (hlookup ▸ List.mem_cons_self) .standard health 1
  rw [← hp] at hpatterns
  exact (outvoted_iff hpatterns).mpr ⟨32, by decide, hahead⟩

end Scan

end Binary

end LayoutWatch
