import LayoutWatch.Codec.Image
import LayoutWatch.Json.Parser
import LayoutWatch.Json.Printer
import LayoutWatch.Signature

/-!
# Written signatures

A signature file holds one set or a list of sets. It is read as a whole before its shape is looked
at, so everything in it has to have a meaning, and lists and records may not be nested too deeply.
-/

namespace LayoutWatch

open Json

/-- The kind of signature with a name. -/
def Signature.Kind.ofLabel? : String → Option Signature.Kind
  | "rtti" => some .typeName
  | "vtable_ref" => some .vtableReference
  | "field_access" => some .fieldAccess
  | "function_prologue" => some .functionPrologue
  | "string_ref" => some .stringReference
  | _ => none

/-- Read a signature. -/
def Signature.ofValue? (v : Value) : Option Signature := do
  let r ← Record.ofTree? ["kind", "struct_name", "field_name", "expected_offset", "pattern",
    "context_before", "context_after", "base_confidence", "instruction", "notes"] v
  return {
    kind := ← r.required "kind" (choice? Signature.Kind.ofLabel?)
    structName := ← r.required "struct_name" Tree.text?
    fieldName := ← r.required "field_name" Tree.text?
    expectedOffset := ← r.required "expected_offset" Tree.word64?
    pattern := ← r.required "pattern" Tree.text?
    contextBefore := ← r.optional "context_before" Tree.text?
    contextAfter := ← r.optional "context_after" Tree.text?
    baseConfidence := ← r.required "base_confidence" Tree.word8?
    instruction := ← r.optional "instruction" (choice? Access.Kind.ofName?)
    notes := ← r.optional "notes" Tree.text? }

/-- Write a signature. -/
def Signature.toValue (s : Signature) : Value :=
  ofMembers [
    member "kind" (ofText s.kind.label),
    member "struct_name" (ofText s.structName),
    member "field_name" (ofText s.fieldName),
    member "expected_offset" (ofNat s.expectedOffset.toNat),
    member "pattern" (ofText s.pattern),
    presentMember "context_before" ofText s.contextBefore,
    presentMember "context_after" ofText s.contextAfter,
    member "base_confidence" (ofNat s.baseConfidence.toNat),
    presentMember "instruction" (fun kind => ofText kind.name) s.instruction,
    presentMember "notes" ofText s.notes]

namespace SignatureSet

/-- Read a set. -/
def ofValue? (v : Value) : Option SignatureSet := do
  let r ← Record.ofTree? ["struct_name", "binary_hash", "binary_version", "format_version",
    "extracted_at", "signatures"] v
  return {
    structName := ← r.required "struct_name" Tree.text?
    binaryHash := ← r.required "binary_hash" Tree.text?
    binaryVersion := ← r.optional "binary_version" Tree.text?
    formatVersion := ← r.defaulted "format_version" currentFormat Tree.word32?
    extractedAt := ← r.required "extracted_at" Tree.text?
    signatures := ← r.required "signatures" (Tree.list? Signature.ofValue?) }

/-- Write a set. -/
def toValue (s : SignatureSet) : Value :=
  ofMembers [
    member "struct_name" (ofText s.structName),
    member "binary_hash" (ofText s.binaryHash),
    presentMember "binary_version" ofText s.binaryVersion,
    member "format_version" (ofNat s.formatVersion.toNat),
    member "extracted_at" (ofText s.extractedAt),
    member "signatures" (ofList Signature.toValue s.signatures)]

end SignatureSet

/-- The contents of a signature file. -/
inductive SignatureFile where
  /-- A list of sets. -/
  | many (sets : List SignatureSet)
  /-- A single set. -/
  | one (set : SignatureSet)
  deriving DecidableEq, Repr

namespace SignatureFile

/-- The sets of a file. -/
def sets : SignatureFile → List SignatureSet
  | .many sets => sets
  | .one set => [set]

/-- Largest depth of nested lists and records. -/
def depthLimit : Nat := 127

/-- Read the contents of a file. A list is taken for a list of sets where it can be one, and for
the members of a single set otherwise. -/
def ofValue? (v : Value) : Option SignatureFile :=
  if v.depth ≤ depthLimit ∧ v.allScalars Lexeme.isMeaningful then
    match v.list? SignatureSet.ofValue? with
    | some sets => some (.many sets)
    | none => (SignatureSet.ofValue? v).map .one
  else none

/-- Write the contents of a file. -/
def toValue : SignatureFile → Value
  | .many sets => ofList SignatureSet.toValue sets
  | .one set => set.toValue

/-- Read the text of a file. -/
def parse? (text : String) : Option SignatureFile :=
  (Json.parse? text.toList).bind ofValue?

end SignatureFile

/-- The text of a file with these sets. -/
def SignatureSet.fileText (sets : List SignatureSet) : String :=
  pretty (SignatureFile.many sets).toValue

namespace Sighting

/-- Read a sighting. -/
def ofValue? (v : Value) : Option Sighting := do
  let r ← Record.ofTree? ["struct_name", "field_name", "kind", "expected_offset", "found",
    "file_offset", "observed_offset", "confidence", "occurrence_count", "context_matched"] v
  return {
    structName := ← r.required "struct_name" Tree.text?
    fieldName := ← r.required "field_name" Tree.text?
    kind := ← r.required "kind" (choice? Signature.Kind.ofLabel?)
    expectedOffset := ← r.required "expected_offset" Tree.word64?
    found := ← r.required "found" bool?
    fileOffset := ← r.optional "file_offset" Tree.count?
    observedOffset := ← r.optional "observed_offset" Tree.word64?
    confidence := ← r.required "confidence" Tree.word8?
    occurrences := ← r.required "occurrence_count" Tree.count?
    contextMatched := ← r.required "context_matched" bool? }

/-- The members of a written sighting. -/
def toMembers (s : Sighting) : List (List Member) := [
  member "struct_name" (ofText s.structName),
  member "field_name" (ofText s.fieldName),
  member "kind" (ofText s.kind.label),
  member "expected_offset" (ofNat s.expectedOffset.toNat),
  member "found" (ofBool s.found),
  presentMember "file_offset" ofNat s.fileOffset,
  presentMember "observed_offset" (fun n => ofNat n.toNat) s.observedOffset,
  member "confidence" (ofNat s.confidence.toNat),
  member "occurrence_count" (ofNat s.occurrences),
  member "context_matched" (ofBool s.contextMatched)]

/-- Write a sighting. -/
def toValue (s : Sighting) : Value := ofMembers s.toMembers

end Sighting

end LayoutWatch
