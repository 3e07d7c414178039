import LayoutWatch.Comparison
import LayoutWatch.Json.Lexeme

/-!
# Written shifts and comparisons

Samples of shifts, their groups, and the outcome of comparing two layouts as structured text.
-/

namespace LayoutWatch

open Json

namespace Shift

/-- Read a sample. -/
def ofValue? (v : Value) : Option Shift := do
  let r ← Record.ofTree? ["struct_name", "member", "old_offset", "new_offset", "delta"] v
  return {
    structName := ← r.required "struct_name" Tree.text?
    member := ← r.required "member" Tree.text?
    oldOffset := ← r.required "old_offset" signed64?
    newOffset := ← r.required "new_offset" signed64?
    delta := ← r.required "delta" signed64? }

/-- Write a sample. -/
def toValue (s : Shift) : Value :=
  ofMembers [
    Json.member "struct_name" (ofText s.structName),
    Json.member "member" (ofText s.member),
    Json.member "old_offset" (ofInt s.oldOffset),
    Json.member "new_offset" (ofInt s.newOffset),
    Json.member "delta" (ofInt s.delta)]

end Shift

/-- The members of a written group. -/
def ShiftGroup.toMembers (g : ShiftGroup) : List (List Member) := [
  member "delta" (ofInt g.delta),
  member "members" (ofList Shift.toValue g.members),
  member "anomalies" (ofList Shift.toValue g.anomalies),
  member "total_candidates" (ofNat g.totalCandidates),
  member "confidence" (ofNumber g.confidence)]

/-- The change with a name. -/
def Change.ofLabel? : String → Option Change
  | "added" => some .added
  | "removed" => some .removed
  | "modified" => some .modified
  | "unchanged" => some .unchanged
  | _ => none

/-- The written form of a word that may be absent. -/
def ofWord? (n : Option UInt64) : Value := ofOption (fun n => ofNat n.toNat) n

namespace FieldChange

/-- Read what became of a field. -/
def ofValue? (v : Value) : Option FieldChange := do
  let r ← Record.ofTree? ["name", "status", "old_offset", "new_offset", "delta", "old_type",
    "new_type", "old_size", "new_size"] v
  return {
    name := ← r.required "name" Tree.text?
    change := ← r.required "status" (choice? Change.ofLabel?)
    oldOffset := ← r.nullable "old_offset" Tree.word64?
    newOffset := ← r.nullable "new_offset" Tree.word64?
    delta := ← r.nullable "delta" signed64?
    oldType := ← r.nullable "old_type" Tree.text?
    newType := ← r.nullable "new_type" Tree.text?
    oldSize := ← r.nullable "old_size" Tree.word64?
    newSize := ← r.nullable "new_size" Tree.word64? }

/-- Write what became of a field. -/
def toValue (f : FieldChange) : Value :=
  ofMembers [
    member "name" (ofText f.name),
    member "status" (ofText f.change.label),
    member "old_offset" (ofWord? f.oldOffset),
    member "new_offset" (ofWord? f.newOffset),
    member "delta" (ofOption ofInt f.delta),
    member "old_type" (ofOption ofText f.oldType),
    member "new_type" (ofOption ofText f.newType),
    member "old_size" (ofWord? f.oldSize),
    member "new_size" (ofWord? f.newSize)]

end FieldChange

namespace SlotChange

/-- Read what became of a virtual function. -/
def ofValue? (v : Value) : Option SlotChange := do
  let r ← Record.ofTree? ["name", "status", "old_slot", "new_slot", "delta"] v
  return {
    name := ← r.required "name" Tree.text?
    change := ← r.required "status" (choice? Change.ofLabel?)
    oldSlot := ← r.nullable "old_slot" Tree.word32?
    newSlot := ← r.nullable "new_slot" Tree.word32?
    delta := ← r.nullable "delta" signed64? }

/-- Write what became of a virtual function. -/
def toValue (s : SlotChange) : Value :=
  ofMembers [
    member "name" (ofText s.name),
    member "status" (ofText s.change.label),
    member "old_slot" (ofOption (fun n => ofNat n.toNat) s.oldSlot),
    member "new_slot" (ofOption (fun n => ofNat n.toNat) s.newSlot),
    member "delta" (ofOption ofInt s.delta)]

end SlotChange

namespace FunctionChange

/-- Read what became of a function. -/
def ofValue? (v : Value) : Option FunctionChange := do
  let r ← Record.ofTree? ["name", "status", "old_address", "new_address"] v
  return {
    name := ← r.required "name" Tree.text?
    change := ← r.required "status" (choice? Change.ofLabel?)
    oldAddress := ← r.nullable "old_address" Tree.word64?
    newAddress := ← r.nullable "new_address" Tree.word64? }

/-- Write what became of a function. -/
def toValue (f : FunctionChange) : Value :=
  ofMembers [
    member "name" (ofText f.name),
    member "status" (ofText f.change.label),
    member "old_address" (ofWord? f.oldAddress),
    member "new_address" (ofWord? f.newAddress)]

end FunctionChange

namespace StructChange

/-- Read what became of a struct. -/
def ofValue? (v : Value) : Option StructChange := do
  let r ← Record.ofTree? ["name", "status", "old_size", "new_size", "old_base", "new_base",
    "fields", "vfuncs", "functions"] v
  return {
    name := ← r.required "name" Tree.text?
    change := ← r.required "status" (choice? Change.ofLabel?)
    oldSize := ← r.nullable "old_size" Tree.word64?
    newSize := ← r.nullable "new_size" Tree.word64?
    oldBase := ← r.nullable "old_base" Tree.text?
    newBase := ← r.nullable "new_base" Tree.text?
    fields := ← r.required "fields" (Tree.list? FieldChange.ofValue?)
    virtuals := ← r.required "vfuncs" (Tree.list? SlotChange.ofValue?)
    functions := ← r.required "functions" (Tree.list? FunctionChange.ofValue?) }

/-- Write what became of a struct. -/
def toValue (s : StructChange) : Value :=
  ofMembers [
    member "name" (ofText s.name),
    member "status" (ofText s.change.label),
    member "old_size" (ofWord? s.oldSize),
    member "new_size" (ofWord? s.newSize),
    member "old_base" (ofOption ofText s.oldBase),
    member "new_base" (ofOption ofText s.newBase),
    member "fields" (ofList FieldChange.toValue s.fields),
    member "vfuncs" (ofList SlotChange.toValue s.virtuals),
    member "functions" (ofList FunctionChange.toValue s.functions)]

end StructChange

namespace ShiftProposal

/-- Name of a kind of proposal. -/
def Kind.label : ShiftProposal.Kind → String
  | .field => "field"
  | .slot => "vtable_slot"

/-- The kind of proposal with a name. -/
def Kind.ofLabel? : String → Option ShiftProposal.Kind
  | "field" => some .field
  | "vtable_slot" => some .slot
  | _ => none

/-- Read a proposal. -/
def ofValue? (v : Value) : Option ShiftProposal := do
  let r ← Record.ofTree? ["hierarchy", "kind", "label", "delta", "affected_structs",
    "affected_members", "match_count", "total_candidates", "confidence", "anomalies",
    "enabled"] v
  return {
    hierarchy := ← r.required "hierarchy" Tree.text?
    kind := ← r.required "kind" (choice? Kind.ofLabel?)
    label := ← r.required "label" Tree.text?
    delta := ← r.required "delta" signed64?
    structs := ← r.required "affected_structs" (Tree.list? Tree.text?)
    members := ← r.required "affected_members" (Tree.list? Tree.text?)
    matchCount := ← r.required "match_count" Tree.count?
    totalCandidates := ← r.required "total_candidates" Tree.count?
    confidence := ← r.required "confidence" number?
    anomalies := ← r.required "anomalies" (Tree.list? Shift.ofValue?)
    enabled := ← r.defaulted "enabled" true bool? }

/-- Write a proposal. -/
def toValue (p : ShiftProposal) : Value :=
  ofMembers [
    member "hierarchy" (ofText p.hierarchy),
    member "kind" (ofText p.kind.label),
    member "label" (ofText p.label),
    member "delta" (ofInt p.delta),
    member "affected_structs" (ofTexts p.structs),
    member "affected_members" (ofTexts p.members),
    member "match_count" (ofNat p.matchCount),
    member "total_candidates" (ofNat p.totalCandidates),
    member "confidence" (ofNumber p.confidence),
    member "anomalies" (ofList Shift.toValue p.anomalies),
    member "enabled" (ofBool p.enabled)]

end ShiftProposal

namespace Comparison

/-- Read the outcome of a comparison. -/
def ofValue? (v : Value) : Option Comparison := do
  let r ← Record.ofTree? ["old_version", "new_version", "struct_diffs", "candidates"] v
  return {
    oldVersion := ← r.required "old_version" Tree.text?
    newVersion := ← r.required "new_version" Tree.text?
    structs := ← r.required "struct_diffs" (Tree.list? StructChange.ofValue?)
    proposals := ← r.required "candidates" (Tree.list? ShiftProposal.ofValue?) }

/-- Write the outcome of a comparison. -/
def toValue (c : Comparison) : Value :=
  ofMembers [
    member "old_version" (ofText c.oldVersion),
    member "new_version" (ofText c.newVersion),
    member "struct_diffs" (ofList StructChange.toValue c.structs),
    member "candidates" (ofList ShiftProposal.toValue c.proposals)]

end Comparison

end LayoutWatch
