import LayoutWatch.Codec.Signature
import LayoutWatch.Proofs.Json.Record

/-!
# Signature files are read back

A set of signatures that is written to a file of its own is read back from the text of this file,
whatever its texts and numbers are and whichever of its members are left out. So is a list of sets
from the text of a file that holds all of them.
-/

namespace LayoutWatch

open Json

namespace Signature

/-- The members of a written signature. -/
def entries (s : Signature) : List Entry := [
  ("kind", some (ofText s.kind.label)),
  ("struct_name", some (ofText s.structName)),
  ("field_name", some (ofText s.fieldName)),
  ("expected_offset", some (ofNat s.expectedOffset.toNat)),
  ("pattern", some (ofText s.pattern)),
  ("context_before", s.contextBefore.map ofText),
  ("context_after", s.contextAfter.map ofText),
  ("base_confidence", some (ofNat s.baseConfidence.toNat)),
  ("instruction", s.instruction.map fun kind => ofText kind.name),
  ("notes", s.notes.map ofText)]

/-- A signature is written from its entries. -/
theorem toValue_eq (s : Signature) : s.toValue = ofEntries s.entries := by
  rw [toValue]
  simp only [presentMember_eq]
  rfl

/-- The name of a kind is read back. -/
@[simp] theorem ofLabel?_label (kind : Kind) : Kind.ofLabel? kind.label = some kind := by
  cases kind <;> rfl

/-- The name of a kind of access is read back. -/
@[simp] theorem ofName?_name (kind : Access.Kind) : Access.Kind.ofName? kind.name = some kind := by
  cases kind <;> rfl

/-- A written signature is read back. -/
@[simp] theorem ofValue?_toValue (s : Signature) : ofValue? s.toValue = some s := by
  rw [ofValue?, toValue_eq]
  refine bind_ofTree? rfl (by decide) fun r h => ?_
  rw [h.required rfl (choice?_ofText (ofLabel?_label s.kind)),
    h.required rfl (text?_ofText s.structName), h.required rfl (text?_ofText s.fieldName),
    h.required rfl (word64?_ofNat s.expectedOffset), h.required rfl (text?_ofText s.pattern),
    h.optional rfl (fun text _ => text?_ofText text) (fun _ => rfl),
    h.optional rfl (fun text _ => text?_ofText text) (fun _ => rfl),
    h.required rfl (word8?_ofNat s.baseConfidence),
    h.optional rfl (fun kind _ => choice?_ofText (ofName?_name kind)) (fun _ => rfl),
    h.optional rfl (fun text _ => text?_ofText text) (fun _ => rfl)]
  rfl

/-- The members of a signature are texts and numbers. -/
theorem forall_entries (s : Signature) : ∀ e ∈ s.entries, ∀ v ∈ e.2, Written v ∧ v.depth = 0 := by
  simp [entries]

/-- A signature is a record of depth one, which is built for writing. -/
theorem written_toValue (s : Signature) : Written s.toValue ∧ s.toValue.depth ≤ 1 := by
  rw [toValue_eq]
  exact ⟨written_ofEntries fun e he v hv => (s.forall_entries e he v hv).1,
    depth_ofEntries_le fun e he v hv => Nat.le_of_eq (s.forall_entries e he v hv).2⟩

end Signature

namespace SignatureSet

/-- The members of a written set. -/
def entries (s : SignatureSet) : List Entry := [
  ("struct_name", some (ofText s.structName)),
  ("binary_hash", some (ofText s.binaryHash)),
  ("binary_version", s.binaryVersion.map ofText),
  ("format_version", some (ofNat s.formatVersion.toNat)),
  ("extracted_at", some (ofText s.extractedAt)),
  ("signatures", some (ofList Signature.toValue s.signatures))]

/-- A set is written from its entries. -/
theorem toValue_eq (s : SignatureSet) : s.toValue = ofEntries s.entries := by
  rw [toValue]
  simp only [presentMember_eq]
  rfl

/-- A written set is read back. -/
@[simp] theorem ofValue?_toValue (s : SignatureSet) : ofValue? s.toValue = some s := by
  rw [ofValue?, toValue_eq]
  refine bind_ofTree? rfl (by decide) fun r h => ?_
  rw [h.required rfl (text?_ofText s.structName), h.required rfl (text?_ofText s.binaryHash),
    h.optional rfl (fun text _ => text?_ofText text) (fun _ => rfl),
    h.defaulted rfl (word32?_ofNat s.formatVersion), h.required rfl (text?_ofText s.extractedAt),
    h.required rfl (list?_ofList fun signature _ => Signature.ofValue?_toValue signature)]
  rfl

/-- The members of a set are texts, a number and a list of signatures. -/
theorem forall_entries (s : SignatureSet) :
    ∀ e ∈ s.entries, ∀ v ∈ e.2, Written v ∧ v.depth ≤ 2 := by
  have hsignatures : Written (ofList Signature.toValue s.signatures) ∧
      (ofList Signature.toValue s.signatures).depth ≤ 2 := by
    refine ⟨.list fun v hv => ?_, Nat.succ_le_succ (depthOfItems_le fun v hv => ?_)⟩ <;>
      obtain ⟨signature, -, rfl⟩ := List.mem_map.mp hv
    · exact signature.written_toValue.1
    · exact signature.written_toValue.2
  simp [entries, hsignatures]

/-- A set is a record of depth three, which is built for writing. -/
theorem written_toValue (s : SignatureSet) : Written s.toValue ∧ s.toValue.depth ≤ 3 := by
  rw [toValue_eq]
  exact ⟨written_ofEntries fun e he v hv => (s.forall_entries e he v hv).1,
    depth_ofEntries_le fun e he v hv => (s.forall_entries e he v hv).2⟩

end SignatureSet

namespace SignatureFile

/-- What is written for the contents of a file is built for writing and not nested too deeply. -/
theorem written_toValue (f : SignatureFile) : Written f.toValue ∧ f.toValue.depth ≤ depthLimit := by
  cases f with
  | many sets =>
    have hitems : ∀ v ∈ sets.map SignatureSet.toValue, Written v ∧ v.depth ≤ 3 := by
      intro v hv
      obtain ⟨s, -, rfl⟩ := List.mem_map.mp hv
      exact s.written_toValue
    have hdepth : (ofList SignatureSet.toValue sets).depth ≤ 4 :=
      Nat.succ_le_succ (depthOfItems_le fun v hv => (hitems v hv).2)
    exact ⟨.list fun v hv => (hitems v hv).1, Nat.le_trans hdepth (by decide)⟩
  | one s =>
    obtain ⟨hwritten, hdepth⟩ := s.written_toValue
    exact ⟨hwritten, Nat.le_trans hdepth (by decide)⟩

/-- A list is taken for a list of sets, and a record for a single set. -/
@[simp] theorem ofValue?_toValue (f : SignatureFile) : ofValue? f.toValue = some f := by
  obtain ⟨hwritten, hdepth⟩ := f.written_toValue
  rw [ofValue?, if_pos ⟨hdepth, hwritten.allScalars_isMeaningful⟩]
  cases f with
  | many sets =>
    have hsets : (ofList SignatureSet.toValue sets).list? SignatureSet.ofValue? = some sets :=
      list?_ofList fun s _ => s.ofValue?_toValue
    rw [toValue, hsets]
  | one s =>
    have hlist : s.toValue.list? SignatureSet.ofValue? = none := rfl
    rw [toValue, hlist]
    exact congrArg (Option.map _) s.ofValue?_toValue

/-- The contents of a file are read back from its text. -/
@[simp] theorem parse?_pretty_toValue (f : SignatureFile) : parse? (pretty f.toValue) = some f := by
  simp [parse?, Json.parse?_pretty f.written_toValue.1]

/-- The file that a set is written to holds this set. -/
@[simp] theorem parse?_pretty (s : SignatureSet) : parse? (pretty s.toValue) = some (.one s) :=
  parse?_pretty_toValue (.one s)

/-- The file that sets are written to holds these sets. -/
@[simp] theorem parse?_fileText (sets : List SignatureSet) :
    parse? (SignatureSet.fileText sets) = some (.many sets) :=
  parse?_pretty_toValue (.many sets)

end SignatureFile

end LayoutWatch
