import LayoutWatch.Codec.Signature
import LayoutWatch.Extraction
import LayoutWatch.Scan

/-!
# Written extractions and scans

What an extraction accepts and yields, and the report of a scan, as structured text.
-/

namespace LayoutWatch

open Json

namespace ExtractOptions

/-- Read what an extraction accepts. -/
def ofValue? (v : Value) : Option ExtractOptions := do
  let r ← Record.ofTree? ["min_confidence", "max_occurrences", "context_bytes", "include_rtti",
    "binary_version"] v
  return {
    minConfidence := ← r.required "min_confidence" Tree.word8?
    maxOccurrences := ← r.required "max_occurrences" Tree.word64?
    contextBytes := ← r.required "context_bytes" Tree.word64?
    includeTypeNames := ← r.required "include_rtti" bool?
    binaryVersion := ← r.nullable "binary_version" Tree.text? }

/-- Write what an extraction accepts. -/
def toValue (o : ExtractOptions) : Value :=
  ofMembers [
    member "min_confidence" (ofNat o.minConfidence.toNat),
    member "max_occurrences" (ofNat o.maxOccurrences.toNat),
    member "context_bytes" (ofNat o.contextBytes.toNat),
    member "include_rtti" (ofBool o.includeTypeNames),
    member "binary_version" (ofOption ofText o.binaryVersion)]

end ExtractOptions

/-- Write how many fields were tried and what became of them. -/
def Extraction.Tally.toValue (t : Extraction.Tally) : Value :=
  ofMembers [
    member "attempted" (ofNat t.attempted),
    member "covered" (ofNat t.covered),
    member "absent" (ofNat t.absent),
    member "ambiguous" (ofNat t.ambiguous),
    member "below_threshold" (ofNat t.belowThreshold),
    member "rtti_anchors" (ofNat t.typeNames)]

/-- The members of a written extraction. -/
def Extraction.toMembers (e : Extraction) : List (List Member) := [
  member "sets" (ofList SignatureSet.toValue e.sets),
  member "summary" e.tally.toValue]

namespace OffsetChange

/-- Read a change. -/
def ofValue? (v : Value) : Option OffsetChange := do
  let r ← Record.ofTree? ["struct_name", "field_name", "declared_offset", "observed_offset",
    "delta", "confidence", "cluster_label", "conflicting_offsets"] v
  return {
    structName := ← r.required "struct_name" Tree.text?
    fieldName := ← r.required "field_name" Tree.text?
    declaredOffset := ← r.required "declared_offset" Tree.word64?
    observedOffset := ← r.required "observed_offset" Tree.word64?
    delta := ← r.required "delta" signed64?
    confidence := ← r.required "confidence" Tree.word8?
    label := ← r.optional "cluster_label" Tree.text?
    conflicts := ← r.defaulted "conflicting_offsets" [] (Tree.list? Tree.word64?) }

/-- Write a change. -/
def toValue (c : OffsetChange) : Value :=
  ofMembers [
    member "struct_name" (ofText c.structName),
    member "field_name" (ofText c.fieldName),
    member "declared_offset" (ofNat c.declaredOffset.toNat),
    member "observed_offset" (ofNat c.observedOffset.toNat),
    member "delta" (ofInt c.delta),
    member "confidence" (ofNat c.confidence.toNat),
    presentMember "cluster_label" ofText c.label,
    if c.conflicts.isEmpty then []
    else member "conflicting_offsets" (ofList (fun n => ofNat n.toNat) c.conflicts)]

end OffsetChange

namespace SharedShift

/-- Read a shared shift. -/
def ofValue? (v : Value) : Option SharedShift := do
  let r ← Record.ofTree? ["label", "delta", "affected_structs", "affected_fields", "match_count",
    "total_candidates", "confidence", "likely_cause", "anomalies"] v
  return {
    label := ← r.required "label" Tree.text?
    delta := ← r.required "delta" signed64?
    structs := ← r.required "affected_structs" (Tree.list? Tree.text?)
    fields := ← r.required "affected_fields" (Tree.list? Tree.text?)
    matchCount := ← r.required "match_count" Tree.count?
    totalCandidates := ← r.required "total_candidates" Tree.count?
    confidence := ← r.required "confidence" number?
    likelyCause := ← r.required "likely_cause" Tree.text?
    anomalies := ← r.required "anomalies" (Tree.list? Tree.text?) }

/-- Write a shared shift. -/
def toValue (s : SharedShift) : Value :=
  ofMembers [
    member "label" (ofText s.label),
    member "delta" (ofInt s.delta),
    member "affected_structs" (ofTexts s.structs),
    member "affected_fields" (ofTexts s.fields),
    member "match_count" (ofNat s.matchCount),
    member "total_candidates" (ofNat s.totalCandidates),
    member "confidence" (ofNumber s.confidence),
    member "likely_cause" (ofText s.likelyCause),
    member "anomalies" (ofTexts s.anomalies)]

end SharedShift

namespace ScanReport

/-- Read the report of a scan. -/
def ofValue? (v : Value) : Option ScanReport := do
  let r ← Record.ofTree? ["binary_identifier", "binary_hash", "scanned_at", "signatures_matched",
    "signatures_missing", "signatures_total", "matches", "changes", "pattern_groups"] v
  return {
    binaryIdentifier := ← r.required "binary_identifier" Tree.text?
    binaryHash := ← r.required "binary_hash" Tree.text?
    scannedAt := ← r.required "scanned_at" Tree.text?
    matched := ← r.required "signatures_matched" Tree.count?
    missing := ← r.required "signatures_missing" Tree.count?
    total := ← r.required "signatures_total" Tree.count?
    sightings := ← r.required "matches" (Tree.list? Sighting.ofValue?)
    changes := ← r.required "changes" (Tree.list? OffsetChange.ofValue?)
    shifts := ← r.required "pattern_groups" (Tree.list? SharedShift.ofValue?) }

/-- The members of the written report of a scan. -/
def toMembers (r : ScanReport) : List (List Member) := [
  member "binary_identifier" (ofText r.binaryIdentifier),
  member "binary_hash" (ofText r.binaryHash),
  member "scanned_at" (ofText r.scannedAt),
  member "signatures_matched" (ofNat r.matched),
  member "signatures_missing" (ofNat r.missing),
  member "signatures_total" (ofNat r.total),
  member "matches" (ofList Sighting.toValue r.sightings),
  member "changes" (ofList OffsetChange.toValue r.changes),
  member "pattern_groups" (ofList SharedShift.toValue r.shifts)]

/-- Write the report of a scan. -/
def toValue (r : ScanReport) : Value := ofMembers r.toMembers

end ScanReport

end LayoutWatch
