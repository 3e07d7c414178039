import LayoutWatch.Codec.Scan
import LayoutWatch.Proofs.Codec.Signature
import LayoutWatch.Proofs.Delta
import LayoutWatch.Proofs.Json.Decimal
import LayoutWatch.Proofs.SampleGroups
import LayoutWatch.Proofs.Scan

/-!
# Reports of scans are read back

The report of a scan that is written to its file is read back from the text of this file. Its counts
have to be those of words. Its deltas are signed words by themselves, and its shares are numbers
from zero to one, whose texts are read. Only a share may come back as another number: reading a
numeral rounds more than once.
-/

namespace LayoutWatch

open Json

/-! ## Sightings -/

namespace Sighting

/-- The counts of a sighting are those of words. -/
structure InWords (s : Sighting) : Prop where
  /-- The place in the file. -/
  fileOffset_lt : ∀ offset ∈ s.fileOffset, offset < UInt64.size
  /-- The number of sites. -/
  occurrences_lt : s.occurrences < UInt64.size

/-- The members of a written sighting. -/
def entries (s : Sighting) : List Entry := [
  ("struct_name", some (ofText s.structName)),
  ("field_name", some (ofText s.fieldName)),
  ("kind", some (ofText s.kind.label)),
  ("expected_offset", some (ofNat s.expectedOffset.toNat)),
  ("found", some (ofBool s.found)),
  ("file_offset", s.fileOffset.map ofNat),
  ("observed_offset", s.observedOffset.map fun offset => ofNat offset.toNat),
  ("confidence", some (ofNat s.confidence.toNat)),
  ("occurrence_count", some (ofNat s.occurrences)),
  ("context_matched", some (ofBool s.contextMatched))]

/-- A sighting is written from its entries. -/
theorem toValue_eq (s : Sighting) : s.toValue = ofEntries s.entries := by
  rw [toValue, toMembers]
  simp only [presentMember_eq]
  rfl

variable {s : Sighting}

/-- A written sighting is read back. -/
theorem ofValue?_toValue (h : s.InWords) : ofValue? s.toValue = some s := by
  rw [ofValue?, toValue_eq]
  refine bind_ofTree? rfl (by decide) fun r hr => ?_
  rw [hr.required rfl (text?_ofText s.structName), hr.required rfl (text?_ofText s.fieldName),
    hr.required rfl (choice?_ofText (Signature.ofLabel?_label s.kind)),
    hr.required rfl (word64?_ofNat s.expectedOffset), hr.required rfl (bool?_ofBool s.found),
    hr.optional rfl (fun offset hoffset => count?_ofNat (h.fileOffset_lt offset hoffset))
      (fun _ => rfl),
    hr.optional rfl (fun offset _ => word64?_ofNat offset) (fun _ => rfl),
    hr.required rfl (word8?_ofNat s.confidence), hr.required rfl (count?_ofNat h.occurrences_lt),
    hr.required rfl (bool?_ofBool s.contextMatched)]
  rfl

/-- A sighting is built for writing. -/
theorem written_toValue (h : s.InWords) : Written s.toValue := by
  have hplace : ∀ offset, s.fileOffset = some offset → Written (ofNat offset) :=
    fun offset hoffset => .nat (h.fileOffset_lt offset hoffset)
  have hsites : Written (ofNat s.occurrences) := .nat h.occurrences_lt
  rw [toValue_eq]
  refine written_ofEntries ?_
  simpa [entries, hsites] using hplace

end Sighting

/-! ## Changes -/

/-- A signed word is read back. -/
theorem Delta.InWord.signed64? {number : Int} (h : InWord number) :
    signed64? (ofInt number) = some number := signed64?_ofInt h.1 h.2

/-- A signed word is built for writing. -/
theorem Delta.InWord.written {number : Int} (h : InWord number) : Written (ofInt number) := by
  rw [InWord, least, greatest] at h
  exact .int (show number.natAbs < 2 ^ 64 by omega)

namespace OffsetChange

/-- The members of a written change. -/
def entries (c : OffsetChange) : List Entry := [
  ("struct_name", some (ofText c.structName)),
  ("field_name", some (ofText c.fieldName)),
  ("declared_offset", some (ofNat c.declaredOffset.toNat)),
  ("observed_offset", some (ofNat c.observedOffset.toNat)),
  ("delta", some (ofInt c.delta)),
  ("confidence", some (ofNat c.confidence.toNat)),
  ("cluster_label", c.label.map ofText),
  ("conflicting_offsets",
    if c.conflicts.isEmpty then none
    else some (ofList (fun offset => ofNat offset.toNat) c.conflicts))]

/-- A change is written from its entries. -/
theorem toValue_eq (c : OffsetChange) : c.toValue = ofEntries c.entries := by
  rw [toValue, entries]
  simp only [presentMember_eq]
  cases c.conflicts <;> rfl

variable {c : OffsetChange}

/-- A written change is read back. -/
theorem ofValue?_toValue (h : Delta.InWord c.delta) : ofValue? c.toValue = some c := by
  rw [ofValue?, toValue_eq]
  refine bind_ofTree? rfl (by decide) fun r hr => ?_
  have hconflicts : r.defaulted "conflicting_offsets" [] (Tree.list? Tree.word64?) =
      some c.conflicts := by
    cases hlist : c.conflicts with
    | nil =>
      refine hr.defaulted_of_absent ?_
      rw [entries, hlist]
      rfl
    | cons first others =>
      refine hr.defaulted (v := ofList (fun offset => ofNat offset.toNat) (first :: others)) ?_
        (list?_ofList fun offset _ => word64?_ofNat offset)
      rw [entries, hlist]
      rfl
  rw [hr.required rfl (text?_ofText c.structName), hr.required rfl (text?_ofText c.fieldName),
    hr.required rfl (word64?_ofNat c.declaredOffset),
    hr.required rfl (word64?_ofNat c.observedOffset), hr.required rfl h.signed64?,
    hr.required rfl (word8?_ofNat c.confidence),
    hr.optional rfl (fun text _ => text?_ofText text) (fun _ => rfl), hconflicts]
  rfl

/-- A change is built for writing. -/
theorem written_toValue (h : Delta.InWord c.delta) : Written c.toValue := by
  have hconflicts : Written (ofList (fun offset => ofNat offset.toNat) c.conflicts) :=
    .ofList fun offset _ => .word64 offset
  rw [toValue_eq]
  refine written_ofEntries ?_
  simp [entries, h.written, hconflicts]

end OffsetChange

/-! ## Shared shifts -/

/-- Written texts are read back. -/
@[simp] theorem Json.list?_ofTexts (texts : List String) :
    (ofTexts texts).list? Tree.text? = some texts := list?_ofList fun text _ => text?_ofText text

/-- Texts are built for writing. -/
@[simp] theorem Json.written_ofTexts (texts : List String) : Written (ofTexts texts) :=
  .ofList fun text _ => .text text

namespace SharedShift

/-- The numbers of a shared shift are those of words, and its share is one. -/
structure InWords (g : SharedShift) : Prop where
  /-- The delta. -/
  delta : Delta.InWord g.delta
  /-- The number of changes. -/
  matchCount_lt : g.matchCount < UInt64.size
  /-- The number of candidates. -/
  totalCandidates_lt : g.totalCandidates < UInt64.size
  /-- The share. -/
  confidence : g.confidence.InUnit

/-- The shared shift with the share that its text stands for. -/
def stored (g : SharedShift) : SharedShift :=
  { g with confidence := (number? (ofNumber g.confidence)).getD g.confidence }

/-- The members of a written shared shift. -/
def entries (g : SharedShift) : List Entry := [
  ("label", some (ofText g.label)),
  ("delta", some (ofInt g.delta)),
  ("affected_structs", some (ofTexts g.structs)),
  ("affected_fields", some (ofTexts g.fields)),
  ("match_count", some (ofNat g.matchCount)),
  ("total_candidates", some (ofNat g.totalCandidates)),
  ("confidence", some (ofNumber g.confidence)),
  ("likely_cause", some (ofText g.likelyCause)),
  ("anomalies", some (ofTexts g.anomalies))]

/-- A shared shift is written from its entries. -/
theorem toValue_eq (g : SharedShift) : g.toValue = ofEntries g.entries := rfl

variable {g : SharedShift}

/-- A written shared shift is read back, but for its share. -/
theorem ofValue?_toValue (h : g.InWords) : ofValue? g.toValue = some g.stored := by
  obtain ⟨share, hshare⟩ := h.confidence.exists_number?
  rw [ofValue?, toValue_eq]
  refine bind_ofTree? rfl (by decide) fun r hr => ?_
  rw [hr.required rfl (text?_ofText g.label), hr.required rfl h.delta.signed64?,
    hr.required rfl (list?_ofTexts g.structs), hr.required rfl (list?_ofTexts g.fields),
    hr.required rfl (count?_ofNat h.matchCount_lt),
    hr.required rfl (count?_ofNat h.totalCandidates_lt), hr.required rfl hshare,
    hr.required rfl (text?_ofText g.likelyCause), hr.required rfl (list?_ofTexts g.anomalies),
    stored, hshare]
  rfl

/-- One of eleven is a share that is not read back. -/
example : number? (ofNumber (Binary64.share 1 11)) ≠ some (Binary64.share 1 11) := by decide +kernel

/-- A shared shift is built for writing. -/
theorem written_toValue (h : g.InWords) : Written g.toValue := by
  have hshare : Written (ofNumber g.confidence) := .number h.confidence.isModerateNumeral_text
  have hcounts := And.intro (Written.nat h.matchCount_lt) (Written.nat h.totalCandidates_lt)
  rw [toValue_eq]
  refine written_ofEntries ?_
  simp [entries, h.delta.written, hshare, hcounts]

end SharedShift

/-! ## Reports -/

namespace ScanReport

/-- The report with the shares that their texts stand for. -/
def stored (r : ScanReport) : ScanReport := { r with shifts := r.shifts.map SharedShift.stored }

/-- The counts of a report are those of words. -/
structure InWords (r : ScanReport) : Prop where
  /-- The number of signatures. -/
  total_lt : r.total < UInt64.size
  /-- The counts of each sighting. -/
  sightings : ∀ s ∈ r.sightings, s.InWords

/-- The members of a written report. -/
def entries (r : ScanReport) : List Entry := [
  ("binary_identifier", some (ofText r.binaryIdentifier)),
  ("binary_hash", some (ofText r.binaryHash)),
  ("scanned_at", some (ofText r.scannedAt)),
  ("signatures_matched", some (ofNat r.matched)),
  ("signatures_missing", some (ofNat r.missing)),
  ("signatures_total", some (ofNat r.total)),
  ("matches", some (ofList Sighting.toValue r.sightings)),
  ("changes", some (ofList OffsetChange.toValue r.changes)),
  ("pattern_groups", some (ofList SharedShift.toValue r.shifts))]

/-- A report is written from its entries. -/
theorem toValue_eq (r : ScanReport) : r.toValue = ofEntries r.entries := rfl

section OfSightings

variable {identifier hash scannedAt : String} {sightings : List Sighting} {r : ScanReport}
  (hr : r = ofSightings identifier hash scannedAt sightings)

include hr

/-- The counts of found and of missing signatures are those of words where their sum is. -/
theorem counts_lt (h : r.InWords) : r.matched < UInt64.size ∧ r.missing < UInt64.size := by
  have htotal := h.total_lt
  have hmatched : sightings.countP (·.found) ≤ sightings.length := List.countP_le_length
  subst hr
  exact ⟨Nat.lt_of_le_of_lt hmatched htotal, Nat.lt_of_le_of_lt (Nat.sub_le _ _) htotal⟩

/-- No more fields have changed than there are signatures. -/
theorem length_changes_le : r.changes.length ≤ r.total := by
  rw [hr, ofSightings, List.length_map]
  exact OffsetChange.length_ofSightings_le sightings

/-- The change of a report moved by a signed word. -/
theorem inWord_delta {c : OffsetChange} (hc : c ∈ r.changes) : Delta.InWord c.delta := by
  subst hr
  rw [(summarises_of_mem_changes hc).delta_eq]
  exact Delta.inWord_between _ _

/-- The numbers of a shared shift are those of words where the counts of the report are. -/
theorem inWords_of_mem_shifts (h : r.InWords) {g : SharedShift} (hg : g ∈ r.shifts) :
    g.InWords := by
  have hchanges := Nat.lt_of_le_of_lt (length_changes_le hr) h.total_lt
  subst hr
  obtain ⟨group, hgroup, rfl⟩ := List.mem_map.mp hg
  have hsamples := ShiftGroup.isGroupOf_of_mem hgroup
  have hmembers := hsamples.isShare.length_members_le
  have hcandidates : group.totalCandidates < UInt64.size := by
    have hle := hsamples.totalCandidates_le
    rw [List.length_map] at hle
    rw [ofSightings, List.length_map] at hchanges
    exact Nat.lt_of_le_of_lt hle hchanges
  have hdelta : Delta.InWord group.delta := by
    obtain ⟨s, hs, hdelta⟩ := hsamples.exists_sample
    obtain ⟨c, -, rfl⟩ := List.mem_map.mp hs
    rw [← hdelta]
    exact Delta.inWord_between _ _
  have hshare : group.confidence.InUnit := by
    rw [hsamples.confidence_eq]
    exact Binary64.inUnit_share (Nat.lt_of_lt_of_le hsamples.isShare.length_members_pos hmembers)
      hmembers
  exact ⟨hdelta, Nat.lt_of_le_of_lt hmembers hcandidates, hcandidates, hshare⟩

/-- A written report is read back, but for the shares of its shifts. -/
theorem ofValue?_toValue (h : r.InWords) : ofValue? r.toValue = some r.stored := by
  obtain ⟨hmatched, hmissing⟩ := counts_lt hr h
  rw [ofValue?, toValue_eq]
  refine bind_ofTree? rfl (by decide) fun record hrecord => ?_
  rw [hrecord.required rfl (text?_ofText r.binaryIdentifier),
    hrecord.required rfl (text?_ofText r.binaryHash),
    hrecord.required rfl (text?_ofText r.scannedAt),
    hrecord.required rfl (count?_ofNat hmatched), hrecord.required rfl (count?_ofNat hmissing),
    hrecord.required rfl (count?_ofNat h.total_lt),
    hrecord.required rfl (list?_ofList fun s hs => Sighting.ofValue?_toValue (h.sightings s hs)),
    hrecord.required rfl
      (list?_ofList fun c hc => OffsetChange.ofValue?_toValue (inWord_delta hr hc)),
    hrecord.required rfl
      (list?_ofList_map fun g hg => SharedShift.ofValue?_toValue (inWords_of_mem_shifts hr h hg))]
  rfl

/-- A report is built for writing. -/
theorem written_toValue (h : r.InWords) : Written r.toValue := by
  obtain ⟨hmatched, hmissing⟩ := counts_lt hr h
  have hcounts := And.intro (Written.nat h.total_lt) (And.intro (Written.nat hmatched)
    (Written.nat hmissing))
  have hsightings : Written (ofList Sighting.toValue r.sightings) :=
    .ofList fun s hs => Sighting.written_toValue (h.sightings s hs)
  have hchanges : Written (ofList OffsetChange.toValue r.changes) :=
    .ofList fun c hc => OffsetChange.written_toValue (inWord_delta hr hc)
  have hshifts : Written (ofList SharedShift.toValue r.shifts) :=
    .ofList fun g hg => SharedShift.written_toValue (inWords_of_mem_shifts hr h hg)
  rw [toValue_eq]
  refine written_ofEntries ?_
  simp [entries, hcounts, hsightings, hchanges, hshifts]

end OfSightings

end ScanReport

/-- The report of a scan is read back from its text, but for the shares of its shifts, where its
counts are those of words. -/
theorem Binary.bind_parse?_pretty {b : Binary} {sets : List SignatureSet} {scannedAt : String}
    {r : ScanReport} (hscan : b.scan sets scannedAt = .ok r) (h : r.InWords) :
    (Json.parse? (pretty r.toValue).toList).bind ScanReport.ofValue? = some r.stored := by
  obtain ⟨sightings, -, hr⟩ := exists_sightings_of_scan hscan
  rw [parse?_pretty (ScanReport.written_toValue hr h), Option.bind_some,
    ScanReport.ofValue?_toValue hr h]

end LayoutWatch
