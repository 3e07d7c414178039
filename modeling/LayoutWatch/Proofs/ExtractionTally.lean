import LayoutWatch.Proofs.AccessSearch
import LayoutWatch.Proofs.CodeImage
import LayoutWatch.Proofs.Extraction
import LayoutWatch.Proofs.Score

/-!
# The tally of an extraction

Each field of an extraction has one fate, and the tally counts them. The signatures of the covered
fields and of the type names are sorted into sets, one for each struct that has any, and in a set
those of the fields stand in the order in which the fields were given.
-/

namespace LayoutWatch

open Extraction

/-- The declaration that a signature of a field was made for. -/
def Signature.declaration (s : Signature) : Declaration :=
  ⟨s.structName, s.fieldName, s.expectedOffset⟩

namespace Binary

/-- The accesses that have the offset of a declared field as displacement. -/
def accesses (b : Binary) (d : Declaration) : List Access :=
  (AccessIndex.build b.image b.bytes).lookup d.offset.toNat

/-- The accesses of a field make a signature: there are some, not too many, and their number scores
high enough. -/
def isSigned (b : Binary) (options : ExtractOptions) (d : Declaration) : Bool :=
  decide (0 < (b.accesses d).length ∧ (b.accesses d).length ≤ options.maxOccurrences.toNat ∧
    options.minConfidence ≤ Score.extracted .fieldAccess (b.accesses d).length)

/-- The signatures of the fields that are covered. -/
def fieldSignatures (b : Binary) (options : ExtractOptions) (fields : List Declaration) :
    List Signature :=
  (fields.map (attempt b (AccessIndex.build b.image b.bytes) options)).filterMap
    Attempt.signature?

end Binary

/-- An extraction accounts for every field and for every signature. -/
structure Extraction.Accounts (e : Extraction) (b : Binary) (fields : List Declaration)
    (options : ExtractOptions) : Prop where
  /-- Every field was tried. -/
  attempted_eq : e.tally.attempted = fields.length
  /-- Each field has one fate. -/
  fates_eq : e.tally.attempted =
    e.tally.covered + e.tally.absent + e.tally.ambiguous + e.tally.belowThreshold
  /-- Fields are covered whose accesses make a signature. -/
  covered_eq : e.tally.covered = fields.countP (b.isSigned options)
  /-- Fields are absent whose offset is no displacement or the one of no access. -/
  absent_eq : e.tally.absent =
    fields.countP fun d => decide (0x100000 ≤ d.offset.toNat ∨ b.accesses d = [])
  /-- Fields are ambiguous that have more accesses than are accepted. -/
  ambiguous_eq : e.tally.ambiguous =
    fields.countP fun d => decide (options.maxOccurrences.toNat < (b.accesses d).length)
  /-- Every signature is that of a covered field or of a type name. -/
  signatures_eq : e.signatureCount = e.tally.covered + e.tally.typeNames
  /-- No struct has two signatures of its type name. -/
  typeNames_le : e.tally.typeNames ≤ (fields.map (·.structName)).toFinset.card
  /-- Type names are not looked for where they are not wanted. -/
  typeNames_eq_zero : options.includeTypeNames = false → e.tally.typeNames = 0
  /-- No struct has two sets. -/
  sets_nodup : (e.sets.map (·.structName)).Nodup
  /-- No set is empty. -/
  sets_ne_nil : ∀ set ∈ e.sets, set.signatures ≠ []
  /-- A set holds signatures of its own struct. -/
  structName_eq : ∀ set ∈ e.sets, ∀ s ∈ set.signatures, s.structName = set.structName
  /-- The signatures of fields in a set are those of its fields with a signature, in their order. -/
  declarations_eq : ∀ set ∈ e.sets,
    (set.signatures.filter (·.kind = .fieldAccess)).map Signature.declaration =
      fields.filter fun d => d.structName = set.structName && b.isSigned options d
  /-- Every signature has a score that is accepted and at most 100. -/
  confidence_le : ∀ s ∈ e.sets.flatMap (·.signatures),
    options.minConfidence ≤ s.baseConfidence ∧ s.baseConfidence ≤ 100

namespace Extraction

variable {b : Binary} {options : ExtractOptions} {d : Declaration} {index : AccessIndex}

section Fates

/-- A field is absent exactly when it has no access. -/
theorem attempt_eq_absent_iff :
    attempt b index options d = .absent ↔ index.lookup d.offset.toNat = [] := by
  unfold attempt
  cases index.lookup d.offset.toNat with
  | nil => simp
  | cons first rest =>
    dsimp only
    split
    · simp
    · split <;> simp

/-- A field is ambiguous exactly when it has too many accesses. -/
theorem attempt_eq_ambiguous_iff : attempt b index options d = .ambiguous ↔
    options.maxOccurrences.toNat < (index.lookup d.offset.toNat).length := by
  unfold attempt
  cases index.lookup d.offset.toNat with
  | nil => simp
  | cons first rest =>
    dsimp only
    rw [List.length_cons]
    split
    · next hmany => simp [hmany]
    · next hfew => split <;> simp [hfew]

/-- Each attempt ends in one way. -/
theorem length_eq_fates (attempts : List Attempt) :
    attempts.length = (attempts.filterMap Attempt.signature?).length +
      attempts.countP (· == .absent) + attempts.countP (· == .ambiguous) +
      attempts.countP (· == .weak) := by
  induction attempts with
  | nil => rfl
  | cons tried rest ih =>
    rw [List.length_cons, ih]
    cases tried <;> simp [List.filterMap_cons, Attempt.signature?] <;> omega

/-- The attempts that end in one way are counted by their fields. -/
theorem countP_attempt_eq {fate : Attempt} {p : Declaration → Bool}
    (h : ∀ d, attempt b index options d = fate ↔ p d = true) (fields : List Declaration) :
    (fields.map (attempt b index options)).countP (· == fate) = fields.countP p := by
  rw [List.countP_map]
  refine List.countP_congr fun d _ => ?_
  rw [Function.comp_apply, beq_iff_eq, h]

end Fates

section Signatures

/-- The signature of a covered field is for this field and scores high enough. -/
theorem parts_of_attempt_eq_covered {s : Signature} (h : attempt b index options d = .covered s) :
    s.kind = .fieldAccess ∧ s.declaration = d ∧
      options.minConfidence ≤ s.baseConfidence ∧ s.baseConfidence ≤ 100 := by
  obtain ⟨first, rest, -, -, hscore, rfl⟩ := attempt_eq_covered_iff.mp h
  exact ⟨rfl, rfl, hscore, Score.extracted_le _ _⟩

/-- The fields that are covered are those whose accesses make a signature. -/
theorem isSigned_iff : b.isSigned options d = true ↔
    ∃ s, attempt b (AccessIndex.build b.image b.bytes) options d = .covered s := by
  rw [Binary.isSigned, decide_eq_true_eq, Binary.accesses]
  simp only [attempt_eq_covered_iff]
  cases (AccessIndex.build b.image b.bytes).lookup d.offset.toNat with
  | nil => simp
  | cons first rest =>
    constructor
    · rintro ⟨-, hfew, hscore⟩
      exact ⟨_, first, rest, rfl, hfew, hscore, rfl⟩
    · rintro ⟨_, _, _, heq, hfew, hscore, -⟩
      obtain ⟨rfl, rfl⟩ := List.cons.inj heq
      exact ⟨Nat.zero_lt_succ _, hfew, hscore⟩

/-- The signature of a field leads back to it. -/
theorem map_declaration_signature? (d : Declaration) :
    (attempt b (AccessIndex.build b.image b.bytes) options d).signature?.map
      Signature.declaration = Option.guard (b.isSigned options) d := by
  cases hsignature : (attempt b (AccessIndex.build b.image b.bytes) options d).signature? with
  | none =>
    have hunsigned : ¬b.isSigned options d = true := by
      intro hsigned
      obtain ⟨s, hs⟩ := isSigned_iff.mp hsigned
      exact absurd (hsignature.symm.trans (signature?_eq_some_iff.mpr hs)) (by simp)
    rw [Option.map_none, Option.guard, if_neg hunsigned]
  | some s =>
    have hcovered := signature?_eq_some_iff.mp hsignature
    have hsigned : b.isSigned options d = true := isSigned_iff.mpr ⟨s, hcovered⟩
    rw [Option.map_some, (parts_of_attempt_eq_covered hcovered).2.1, Option.guard, if_pos hsigned]

/-- The signatures of the fields lead back to the fields that are signed, in their order. -/
theorem map_declaration_fieldSignatures (b : Binary) (options : ExtractOptions)
    (fields : List Declaration) :
    (b.fieldSignatures options fields).map Signature.declaration =
      fields.filter (b.isSigned options) := by
  rw [Binary.fieldSignatures, List.filterMap_map, List.map_filterMap, ← List.filterMap_eq_filter]
  exact List.filterMap_congr fun d _ => map_declaration_signature? d

/-- The signature of a type name scores high enough. -/
theorem confidence_of_typeNameSignature? {structName : String} {s : Signature}
    (h : typeNameSignature? b options structName = some s) :
    options.minConfidence ≤ s.baseConfidence ∧ s.baseConfidence ≤ 100 := by
  unfold typeNameSignature? at h
  dsimp only at h
  split at h
  · exact absurd h (by simp)
  · next hsites =>
    simp only [Option.some.injEq] at h
    subst h
    exact ⟨UInt8.not_lt.mp (not_or.mp hsites).2, Score.extracted_le _ _⟩

/-- There are at most as many type names as structs. -/
theorem length_typeNameSignatures_le (b : Binary) (options : ExtractOptions)
    (fields : List Declaration) : (typeNameSignatures b options fields).length ≤
      (fields.map (·.structName)).toFinset.card := by
  unfold typeNameSignatures
  split
  · rw [← Ordered.length_eraseDups]
    exact List.length_filterMap_le _ _
  · exact Nat.zero_le _

end Signatures

section Sets

variable {version : Option String} {extractedAt : String} {signatures : List Signature}

/-- No struct has two sets. -/
theorem nodup_setsOf : ((setsOf b version extractedAt signatures).map (·.structName)).Nodup := by
  have hkeys : (setsOf b version extractedAt signatures).map (·.structName) =
      (Ordered.collect (signatures.map fun s => (s.structName, s))).map (·.1) := by
    rw [setsOf, List.map_map]
    rfl
  rw [hkeys]
  exact Ordered.nodup_collect _

/-- A set holds the signatures of its struct, in their order, and there are some. -/
theorem signatures_of_mem_setsOf {set : SignatureSet}
    (h : set ∈ setsOf b version extractedAt signatures) :
    set.signatures = signatures.filter (fun s => s.structName = set.structName) ∧
      ∃ s ∈ signatures, s.structName = set.structName := by
  simp only [setsOf, List.mem_map (l := Ordered.collect _), Prod.exists, Ordered.mem_collect] at h
  obtain ⟨_, _, ⟨hkey, rfl⟩, rfl⟩ := h
  obtain ⟨_, hpair, rfl⟩ := List.mem_map.mp hkey
  obtain ⟨s, hs, rfl⟩ := List.mem_map.mp hpair
  refine ⟨?_, s, hs, rfl⟩
  rw [Ordered.valuesOf, List.filterMap_map, ← List.filterMap_eq_filter]
  rfl

/-- The sets hold as many signatures as there are. -/
theorem length_signatures_setsOf :
    ((setsOf b version extractedAt signatures).flatMap (·.signatures)).length =
      signatures.length := by
  rw [List.length_flatMap, setsOf, List.map_map]
  exact (Ordered.sum_length_collect _).trans (List.length_map _)

end Sets

end Extraction

namespace Binary

variable {b : Binary} {fields : List Declaration} {options : ExtractOptions}
  {extractedAt : String} {e : Extraction}

/-- A field without an access of its offset is absent, and so is one whose offset is beyond every
displacement. -/
theorem absent_iff (d : Declaration) :
    attempt b (AccessIndex.build b.image b.bytes) options d = .absent ↔
      decide (0x100000 ≤ d.offset.toNat ∨ b.accesses d = []) = true := by
  rw [attempt_eq_absent_iff, decide_eq_true_eq, accesses]
  constructor
  · exact Or.inr
  · rintro (hbeyond | hnone)
    · exact AccessIndex.lookup_build_of_le hbeyond
    · exact hnone

/-- Among all signatures, those of the fields are told by their kind. -/
theorem filter_kind_signatures (b : Binary) (options : ExtractOptions)
    (fields : List Declaration) :
    (b.fieldSignatures options fields ++ typeNameSignatures b options fields).filter
      (·.kind = .fieldAccess) = b.fieldSignatures options fields := by
  have hfields : ∀ s ∈ b.fieldSignatures options fields, decide (s.kind = .fieldAccess) = true := by
    intro s hs
    obtain ⟨_, htried, hsignature⟩ := List.mem_filterMap.mp hs
    obtain ⟨d, -, rfl⟩ := List.mem_map.mp htried
    have hcovered := signature?_eq_some_iff.mp hsignature
    exact decide_eq_true (parts_of_attempt_eq_covered hcovered).1
  have htypes : ∀ s ∈ typeNameSignatures b options fields,
      ¬decide (s.kind = .fieldAccess) = true := by
    intro s hs
    obtain ⟨structName, hstruct⟩ := typeNameSignature?_of_mem hs
    simp [(typeNameSignature?_parts hstruct).1]
  rw [List.filter_append, List.filter_eq_self.mpr hfields, List.filter_eq_nil_iff.mpr htypes,
    List.append_nil]

/-- The signatures of fields among those of one struct lead back to its fields. -/
theorem declarations_of_struct (b : Binary) (options : ExtractOptions)
    (fields : List Declaration) (structName : String) :
    (((b.fieldSignatures options fields ++ typeNameSignatures b options fields).filter
      (·.structName = structName)).filter (·.kind = .fieldAccess)).map Signature.declaration =
      fields.filter fun d => d.structName = structName && b.isSigned options d := by
  -- The kind is looked at first: without it the type names would lead back to no field.
  calc (((b.fieldSignatures options fields ++ typeNameSignatures b options fields).filter
        (·.structName = structName)).filter (·.kind = .fieldAccess)).map Signature.declaration
      = ((b.fieldSignatures options fields).filter (·.structName = structName)).map
          Signature.declaration := by
        rw [List.filter_comm, filter_kind_signatures]
    _ = ((b.fieldSignatures options fields).map Signature.declaration).filter
          (·.structName = structName) := by
        rw [List.filter_map]
        rfl
    _ = (fields.filter (b.isSigned options)).filter (·.structName = structName) := by
        rw [map_declaration_fieldSignatures]
    _ = fields.filter fun d => d.structName = structName && b.isSigned options d :=
        List.filter_filter

/-- Every extraction accounts for its fields and its signatures. -/
theorem accounts_of_extract (h : b.extract fields options extractedAt = .ok e) :
    e.Accounts b fields options := by
  have hsignatures := fun s => mem_signatures_iff h (s := s)
  rw [extract, index, validImage_of_extract h] at h
  obtain rfl := Except.ok.inj h
  have hmade := congrArg List.length (map_declaration_fieldSignatures b options fields)
  rw [List.length_map] at hmade
  constructor
  case attempted_eq => rfl
  case fates_eq =>
    dsimp only
    rw [← length_eq_fates, List.length_map]
  case covered_eq => exact hmade.trans List.countP_eq_length_filter.symm
  case absent_eq => exact countP_attempt_eq absent_iff fields
  case ambiguous_eq =>
    refine countP_attempt_eq (fun d => ?_) fields
    rw [attempt_eq_ambiguous_iff, decide_eq_true_eq]
    rfl
  case signatures_eq => exact length_signatures_setsOf.trans List.length_append
  case typeNames_le => exact length_typeNameSignatures_le b options fields
  case typeNames_eq_zero =>
    intro hunwanted
    dsimp only
    rw [typeNameSignatures, hunwanted]
    rfl
  case sets_nodup => exact nodup_setsOf
  case sets_ne_nil =>
    intro set hset
    obtain ⟨hown, s, hs, hstruct⟩ := signatures_of_mem_setsOf hset
    rw [hown]
    exact List.ne_nil_of_mem (List.mem_filter.mpr ⟨hs, decide_eq_true hstruct⟩)
  case structName_eq =>
    intro set hset s hs
    rw [(signatures_of_mem_setsOf hset).1] at hs
    exact of_decide_eq_true (List.mem_filter.mp hs).2
  case declarations_eq =>
    intro set hset
    rw [(signatures_of_mem_setsOf hset).1]
    exact declarations_of_struct b options fields set.structName
  case confidence_le =>
    intro s hs
    rcases (hsignatures s).mp hs with ⟨d, -, hcovered⟩ | htype
    · exact (parts_of_attempt_eq_covered hcovered).2.2
    · obtain ⟨structName, hstruct⟩ := typeNameSignature?_of_mem htype
      exact confidence_of_typeNameSignature? hstruct

/-- A valid image has an extraction, which accounts for its fields and its signatures. -/
theorem extract_accounts (h : b.image.valid = true) (fields : List Declaration)
    (options : ExtractOptions) (extractedAt : String) :
    ∃ e, b.extract fields options extractedAt = .ok e ∧ e.Accounts b fields options := by
  have hvalid : b.validImage = .ok b.image := by rw [validImage, if_pos h]
  obtain ⟨e, he⟩ := exists_extract hvalid fields options extractedAt
  exact ⟨e, he, accounts_of_extract he⟩

/-- A load from offset 16, two from offset 32 and the type name of a class behind them. -/
def namedLoads : Binary :=
  let load := fun offset => [0x48, 0x8B, 0x81, offset, 0, 0, 0]
  ofCode "named.exe" (load 0x10 ++ load 0x20 ++ load 0x20 ++ textBytes ".?AVFoo@@")

/-- One field that is loaded once, one that is loaded twice, one beyond every displacement and one
that is not loaded. -/
def loadedFields : List Declaration :=
  [⟨"Foo", "a", 0x10⟩, ⟨"Bar", "b", 0x20⟩, ⟨"Foo", "c", 0x100000⟩, ⟨"Foo", "d", 0x18⟩]

/-- Where one access is the most that is accepted, one field is covered, two are absent and one is
ambiguous. The type name is found as well. -/
theorem extract_accounts_namedLoads :
    ∃ e, namedLoads.extract loadedFields ⟨50, 1, 8, true, none⟩ "" = .ok e ∧
      e.Accounts namedLoads loadedFields ⟨50, 1, 8, true, none⟩ ∧
      e.tally = ⟨4, 1, 2, 1, 0, 1⟩ ∧ e.sets.map (·.structName) = ["Foo"] := by
  have hvalid : namedLoads.image.valid = true := by
    rw [namedLoads, image_ofCode (by decide)]
  have houtcome : (namedLoads.extract loadedFields ⟨50, 1, 8, true, none⟩ "").toOption.map
      (fun e => (e.tally, e.sets.map (·.structName))) =
        some (⟨4, 1, 2, 1, 0, 1⟩, ["Foo"]) := by decide +kernel
  obtain ⟨e, he, haccounts⟩ := extract_accounts hvalid loadedFields ⟨50, 1, 8, true, none⟩ ""
  rw [he, Except.toOption, Option.map_some, Option.some.injEq, Prod.mk.injEq] at houtcome
  exact ⟨e, he, haccounts, houtcome⟩

end Binary

end LayoutWatch
