import LayoutWatch.Json.Lexeme
import LayoutWatch.Verification

/-!
# Written observations and verifications

Observations and the outcome of a verification as structured text.
-/

namespace LayoutWatch

open Json

namespace Observation

/-- Read an observation. -/
def ofValue? (v : Value) : Option Observation := do
  let r ← Record.ofTree? ["struct_name", "field_name", "observed_offset", "confidence"] v
  return {
    structName := ← r.required "struct_name" Tree.text?
    fieldName := ← r.required "field_name" Tree.text?
    observedOffset := ← r.required "observed_offset" Tree.word64?
    confidence := ← r.required "confidence" Tree.word8? }

/-- Write an observation. -/
def toValue (o : Observation) : Value :=
  ofMembers [
    member "struct_name" (ofText o.structName),
    member "field_name" (ofText o.fieldName),
    member "observed_offset" (ofNat o.observedOffset.toNat),
    member "confidence" (ofNat o.confidence.toNat)]

end Observation

/-- The severity with a name. -/
def Severity.ofLabel? : String → Option Severity
  | "info" => some .info
  | "warning" => some .warning
  | "error" => some .error
  | _ => none

namespace Issue

/-- Name of a kind of finding. -/
def Kind.label : Issue.Kind → String
  | .offsetMismatch => "offset_mismatch"
  | .structNotFound => "struct_not_found"
  | .missingField => "missing_field"
  | .uncoveredField => "uncovered_field"

/-- The kind of finding with a name. -/
def Kind.ofLabel? : String → Option Issue.Kind
  | "offset_mismatch" => some .offsetMismatch
  | "struct_not_found" => some .structNotFound
  | "missing_field" => some .missingField
  | "uncovered_field" => some .uncoveredField
  | _ => none

/-- Read a finding. -/
def ofValue? (v : Value) : Option Issue := do
  let r ← Record.ofTree? ["kind", "severity", "struct_name", "field_name", "declared_offset",
    "observed_offset", "delta", "confidence", "message"] v
  return {
    kind := ← r.required "kind" (choice? Kind.ofLabel?)
    severity := ← r.required "severity" (choice? Severity.ofLabel?)
    structName := ← r.required "struct_name" Tree.text?
    fieldName := ← r.optional "field_name" Tree.text?
    declaredOffset := ← r.optional "declared_offset" Tree.word64?
    observedOffset := ← r.optional "observed_offset" Tree.word64?
    delta := ← r.optional "delta" signed64?
    confidence := ← r.optional "confidence" Tree.word8?
    message := ← r.required "message" Tree.text? }

/-- Write a finding. -/
def toValue (i : Issue) : Value :=
  ofMembers [
    member "kind" (ofText i.kind.label),
    member "severity" (ofText i.severity.label),
    member "struct_name" (ofText i.structName),
    presentMember "field_name" ofText i.fieldName,
    presentMember "declared_offset" (fun n => ofNat n.toNat) i.declaredOffset,
    presentMember "observed_offset" (fun n => ofNat n.toNat) i.observedOffset,
    presentMember "delta" ofInt i.delta,
    presentMember "confidence" (fun n => ofNat n.toNat) i.confidence,
    member "message" (ofText i.message)]

end Issue

namespace Patch

/-- Read a patch. -/
def ofValue? (v : Value) : Option Patch := do
  let r ← Record.ofTree? ["struct_name", "field_name", "current_offset", "suggested_offset",
    "delta", "confidence"] v
  return {
    structName := ← r.required "struct_name" Tree.text?
    fieldName := ← r.required "field_name" Tree.text?
    currentOffset := ← r.required "current_offset" Tree.word64?
    suggestedOffset := ← r.required "suggested_offset" Tree.word64?
    delta := ← r.required "delta" signed64?
    confidence := ← r.required "confidence" Tree.word8? }

/-- Write a patch. -/
def toValue (p : Patch) : Value :=
  ofMembers [
    member "struct_name" (ofText p.structName),
    member "field_name" (ofText p.fieldName),
    member "current_offset" (ofNat p.currentOffset.toNat),
    member "suggested_offset" (ofNat p.suggestedOffset.toNat),
    member "delta" (ofInt p.delta),
    member "confidence" (ofNat p.confidence.toNat)]

end Patch

namespace BulkShift

/-- Read a shift of a family. -/
def ofValue? (v : Value) : Option BulkShift := do
  let r ← Record.ofTree? ["hierarchy", "label", "delta", "affected_fields", "match_count",
    "total_candidates", "confidence", "anomalies"] v
  return {
    hierarchy := ← r.required "hierarchy" Tree.text?
    label := ← r.required "label" Tree.text?
    delta := ← r.required "delta" signed64?
    fields := ← r.required "affected_fields" (Tree.list? Tree.text?)
    matchCount := ← r.required "match_count" Tree.count?
    totalCandidates := ← r.required "total_candidates" Tree.count?
    confidence := ← r.required "confidence" number?
    anomalies := ← r.required "anomalies" (Tree.list? Tree.text?) }

/-- Write a shift of a family. -/
def toValue (s : BulkShift) : Value :=
  ofMembers [
    member "hierarchy" (ofText s.hierarchy),
    member "label" (ofText s.label),
    member "delta" (ofInt s.delta),
    member "affected_fields" (ofTexts s.fields),
    member "match_count" (ofNat s.matchCount),
    member "total_candidates" (ofNat s.totalCandidates),
    member "confidence" (ofNumber s.confidence),
    member "anomalies" (ofTexts s.anomalies)]

end BulkShift

namespace Coverage

/-- Read how much of a layout was seen. -/
def ofValue? (v : Value) : Option Coverage := do
  let r ← Record.ofTree? ["declared_fields", "observed_fields", "ratio"] v
  return {
    declared := ← r.required "declared_fields" Tree.count?
    observed := ← r.required "observed_fields" Tree.count?
    ratio := ← r.required "ratio" number? }

/-- Write how much of a layout was seen. -/
def toValue (c : Coverage) : Value :=
  ofMembers [
    member "declared_fields" (ofNat c.declared),
    member "observed_fields" (ofNat c.observed),
    member "ratio" (ofNumber c.ratio)]

end Coverage

namespace Verification

/-- Read the outcome of a verification. -/
def ofValue? (v : Value) : Option Verification := do
  let r ← Record.ofTree? ["layout_version", "checked", "matched", "issues", "patch_suggestions",
    "manual_review", "bulk_shifts", "coverage"] v
  return {
    layoutVersion := ← r.required "layout_version" Tree.text?
    checked := ← r.required "checked" Tree.count?
    matched := ← r.required "matched" Tree.count?
    issues := ← r.required "issues" (Tree.list? Issue.ofValue?)
    patches := ← r.required "patch_suggestions" (Tree.list? Patch.ofValue?)
    manualReview := ← r.required "manual_review" (Tree.list? Patch.ofValue?)
    bulkShifts := ← r.required "bulk_shifts" (Tree.list? BulkShift.ofValue?)
    coverage := ← r.required "coverage" Coverage.ofValue? }

/-- Write the outcome of a verification. -/
def toValue (v : Verification) : Value :=
  ofMembers [
    member "layout_version" (ofText v.layoutVersion),
    member "checked" (ofNat v.checked),
    member "matched" (ofNat v.matched),
    member "issues" (ofList Issue.toValue v.issues),
    member "patch_suggestions" (ofList Patch.toValue v.patches),
    member "manual_review" (ofList Patch.toValue v.manualReview),
    member "bulk_shifts" (ofList BulkShift.toValue v.bulkShifts),
    member "coverage" v.coverage.toValue]

end Verification

end LayoutWatch
