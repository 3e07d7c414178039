import LayoutWatch.Proofs.ExtractionTally

/-!
# Stricter extractions

An extraction looks at its options twice for each field and once for each type name, and decides
each of them alone. So a higher score or fewer accesses asked for never make a signature, and never
change one: they leave out some of those that the other options make. Where the number of accesses
decides, a field that was covered or whose score was too low becomes ambiguous.
-/

namespace LayoutWatch

/-- These options ask for at least the score of the others and accept at most as many accesses. In
all else they are the same. -/
structure ExtractOptions.Stricter (strict loose : ExtractOptions) : Prop where
  /-- The score that is asked for is no lower. -/
  minConfidence_le : loose.minConfidence ≤ strict.minConfidence
  /-- No more accesses are accepted. -/
  maxOccurrences_le : strict.maxOccurrences ≤ loose.maxOccurrences
  /-- As many bytes of context are kept. -/
  contextBytes_eq : strict.contextBytes = loose.contextBytes
  /-- Type names are looked for under both or under none. -/
  includeTypeNames_eq : strict.includeTypeNames = loose.includeTypeNames
  /-- The label is the same. -/
  binaryVersion_eq : strict.binaryVersion = loose.binaryVersion

/-- The signatures of a struct, in the order of its sets. -/
def Extraction.signaturesOf (e : Extraction) (structName : String) : List Signature :=
  (e.sets.filter (·.structName = structName)).flatMap (·.signatures)

/-- The options accept a signature of the binary: its score is high enough, and the field of a
signature of an access has not too many accesses. -/
def Binary.accepts (b : Binary) (options : ExtractOptions) (s : Signature) : Bool :=
  decide (options.minConfidence ≤ s.baseConfidence ∧
    (s.kind = .fieldAccess → (b.accesses s.declaration).length ≤ options.maxOccurrences.toNat))

/-- One extraction keeps of another what the options accept. -/
structure Extraction.Narrows (strict loose : Extraction) (b : Binary) (options : ExtractOptions) :
    Prop where
  /-- Each struct keeps, unchanged and in their order, the signatures that are accepted. -/
  signatures_eq : ∀ structName,
    strict.signaturesOf structName = (loose.signaturesOf structName).filter (b.accepts options)
  /-- As many fields were tried. -/
  attempted_eq : strict.tally.attempted = loose.tally.attempted
  /-- As many fields have no access. -/
  absent_eq : strict.tally.absent = loose.tally.absent
  /-- No more fields are covered. -/
  covered_le : strict.tally.covered ≤ loose.tally.covered
  /-- No more structs have a signature of their type name. -/
  typeNames_le : strict.tally.typeNames ≤ loose.tally.typeNames
  /-- No fewer fields have too many accesses. -/
  ambiguous_le : loose.tally.ambiguous ≤ strict.tally.ambiguous

namespace Extraction

/-- The sets of a struct hold its signatures, in their order. -/
theorem flatMap_filter_setsOf (b : Binary) (version : Option String) (extractedAt : String)
    (signatures : List Signature) (structName : String) :
    ((setsOf b version extractedAt signatures).filter (·.structName = structName)).flatMap
      (·.signatures) = signatures.filter (·.structName = structName) := by
  have hrows := Ordered.flatMap_collect (signatures.map fun s => (s.structName, s)) structName
  rw [setsOf, List.filter_map, List.flatMap_map]
  refine hrows.trans ?_
  rw [Ordered.valuesOf, List.filterMap_map, ← List.filterMap_eq_filter]
  refine List.filterMap_congr fun s _ => ?_
  by_cases hstruct : s.structName = structName <;> simp [Option.guard, hstruct]

variable {b : Binary} {strict loose : ExtractOptions} {structName : String}

/-- The options that differ have no part in what the signature of a field says. -/
theorem fieldSignature_of_stricter (h : strict.Stricter loose) (d : Declaration) (first : Access)
    (sites : Nat) :
    fieldSignature b strict d first sites = fieldSignature b loose d first sites := by
  rw [fieldSignature, fieldSignature, h.contextBytes_eq]

/-- A field has the signature that it has under the other options, if that one is accepted. -/
theorem signature?_attempt_of_stricter (h : strict.Stricter loose) (d : Declaration) :
    (attempt b (AccessIndex.build b.image b.bytes) strict d).signature? =
      (attempt b (AccessIndex.build b.image b.bytes) loose d).signature?.filter
        (b.accepts strict) := by
  have hmax := UInt64.le_iff_toNat_le.mp h.maxOccurrences_le
  ext s
  rw [signature?_eq_some_iff, Option.filter_eq_some_iff, signature?_eq_some_iff,
    attempt_eq_covered_iff, attempt_eq_covered_iff]
  constructor
  · intro hcovered
    obtain ⟨first, rest, hlookup, hfew, hscore, rfl⟩ := hcovered
    have hsites : (b.accesses d).length = rest.length + 1 := congrArg List.length hlookup
    refine ⟨⟨first, rest, hlookup, hfew.trans hmax, ?_, ?_⟩, ?_⟩
    · exact UInt8.le_trans h.minConfidence_le hscore
    · exact fieldSignature_of_stricter h d first _
    · exact decide_eq_true ⟨hscore, fun _ => hsites.trans_le hfew⟩
  · intro haccepted
    obtain ⟨⟨first, rest, hlookup, -, -, rfl⟩, haccepted⟩ := haccepted
    obtain ⟨hscore, hfew⟩ := of_decide_eq_true haccepted
    have hsites : (b.accesses d).length = rest.length + 1 := congrArg List.length hlookup
    have hmade := fieldSignature_of_stricter h d first (rest.length + 1) (b := b)
    exact ⟨first, rest, hlookup, hsites.symm.trans_le (hfew rfl), hscore, hmade.symm⟩

/-- A struct has the signature of its type name that it has under the other options, if that one
is accepted. -/
theorem typeNameSignature?_of_stricter (h : strict.Stricter loose) (structName : String) :
    typeNameSignature? b strict structName =
      (typeNameSignature? b loose structName).filter (b.accepts strict) := by
  unfold typeNameSignature?
  dsimp only
  generalize hsites : (typeNameSites b.bytes structName).length = sites
  by_cases hloose : sites = 0 ∨ Score.extracted .typeName sites < loose.minConfidence
  · have hstrict : sites = 0 ∨ Score.extracted .typeName sites < strict.minConfidence :=
      hloose.imp_right fun hlow => UInt8.lt_of_lt_of_le hlow h.minConfidence_le
    rw [if_pos hloose, if_pos hstrict]
    rfl
  · rw [if_neg hloose]
    -- A type name is no access: its score alone decides.
    by_cases hscore : strict.minConfidence ≤ Score.extracted .typeName sites
    · have hstrict : ¬(sites = 0 ∨ Score.extracted .typeName sites < strict.minConfidence) :=
        not_or.mpr ⟨(not_or.mp hloose).1, UInt8.not_lt.mpr hscore⟩
      rw [if_neg hstrict, Option.filter_some, if_pos]
      exact decide_eq_true ⟨hscore, fun hkind => nomatch hkind⟩
    · rw [if_pos (.inr (UInt8.not_le.mp hscore)), Option.filter_some, if_neg]
      exact fun haccepted => hscore (of_decide_eq_true haccepted).1

/-- The signatures of the fields are those of the other options that are accepted. -/
theorem fieldSignatures_of_stricter (h : strict.Stricter loose) (fields : List Declaration) :
    b.fieldSignatures strict fields =
      (b.fieldSignatures loose fields).filter (b.accepts strict) := by
  rw [Binary.fieldSignatures, Binary.fieldSignatures, List.filterMap_map, List.filterMap_map,
    List.filter_filterMap]
  exact List.filterMap_congr fun d _ => signature?_attempt_of_stricter h d

/-- The signatures of the type names are those of the other options that are accepted. -/
theorem typeNameSignatures_of_stricter (h : strict.Stricter loose) (fields : List Declaration) :
    typeNameSignatures b strict fields =
      (typeNameSignatures b loose fields).filter (b.accepts strict) := by
  rw [typeNameSignatures, typeNameSignatures, h.includeTypeNames_eq]
  split
  · rw [List.filter_filterMap]
    exact List.filterMap_congr fun structName _ => typeNameSignature?_of_stricter h structName
  · rfl

/-- The accesses of a field that make a signature make one under the other options. -/
theorem isSigned_of_stricter (h : strict.Stricter loose) {d : Declaration}
    (hsigned : b.isSigned strict d = true) : b.isSigned loose d = true := by
  obtain ⟨hsome, hfew, hscore⟩ := of_decide_eq_true hsigned
  have hmax := UInt64.le_iff_toNat_le.mp h.maxOccurrences_le
  exact decide_eq_true ⟨hsome, hfew.trans hmax, UInt8.le_trans h.minConfidence_le hscore⟩

end Extraction

namespace Binary

variable {b : Binary} {fields : List Declaration} {options : ExtractOptions}
  {extractedAt : String} {e : Extraction}

open Extraction

/-- The signatures of a struct are those of its fields, and behind them that of its type name. -/
theorem signaturesOf_of_extract (h : b.extract fields options extractedAt = .ok e)
    (structName : String) : e.signaturesOf structName =
      (b.fieldSignatures options fields ++ typeNameSignatures b options fields).filter
        (·.structName = structName) := by
  rw [extract, index, validImage_of_extract h] at h
  obtain rfl := Except.ok.inj h
  exact flatMap_filter_setsOf _ _ _ _ _

/-- The structs with a signature of their type name are counted by these signatures. -/
theorem typeNames_of_extract (h : b.extract fields options extractedAt = .ok e) :
    e.tally.typeNames = (typeNameSignatures b options fields).length := by
  rw [extract, index, validImage_of_extract h] at h
  obtain rfl := Except.ok.inj h
  rfl

/-- Under stricter options a valid image gives, of the signatures that it gives under the others,
those that the stricter options accept, and nothing else. -/
theorem extract_narrows (h : b.image.valid = true) (fields : List Declaration)
    {strict loose : ExtractOptions} (hstricter : strict.Stricter loose)
    (strictAt looseAt : String) :
    ∃ narrow wide, b.extract fields strict strictAt = .ok narrow ∧
      b.extract fields loose looseAt = .ok wide ∧ narrow.Narrows wide b strict := by
  obtain ⟨narrow, hnarrow, hstrict⟩ := extract_accounts h fields strict strictAt
  obtain ⟨wide, hwide, hloose⟩ := extract_accounts h fields loose looseAt
  have hmax := UInt64.le_iff_toNat_le.mp hstricter.maxOccurrences_le
  refine ⟨narrow, wide, hnarrow, hwide, ?_⟩
  constructor
  case signatures_eq =>
    intro structName
    rw [signaturesOf_of_extract hnarrow, signaturesOf_of_extract hwide,
      fieldSignatures_of_stricter hstricter, typeNameSignatures_of_stricter hstricter,
      ← List.filter_append, List.filter_comm]
  case attempted_eq => rw [hstrict.attempted_eq, hloose.attempted_eq]
  case absent_eq => rw [hstrict.absent_eq, hloose.absent_eq]
  case covered_le =>
    rw [hstrict.covered_eq, hloose.covered_eq]
    exact List.countP_mono_left fun d _ hsigned => isSigned_of_stricter hstricter hsigned
  case typeNames_le =>
    rw [typeNames_of_extract hnarrow, typeNames_of_extract hwide,
      typeNameSignatures_of_stricter hstricter]
    exact List.length_filter_le _ _
  case ambiguous_le =>
    rw [hstrict.ambiguous_eq, hloose.ambiguous_eq]
    refine List.countP_mono_left fun d _ hmany => ?_
    exact decide_eq_true (hmax.trans_lt (of_decide_eq_true hmany))

/-- The field that is loaded twice loses its signature where one access is the most that is
accepted. The field that is loaded once keeps its own. -/
theorem extract_narrows_namedLoads :
    ∃ narrow wide, namedLoads.extract loadedFields ⟨90, 1, 8, true, none⟩ "" = .ok narrow ∧
      namedLoads.extract loadedFields ⟨50, 2, 8, true, none⟩ "" = .ok wide ∧
      narrow.Narrows wide namedLoads ⟨90, 1, 8, true, none⟩ ∧
      narrow.tally.covered = 1 ∧ wide.tally.covered = 2 := by
  have hvalid : namedLoads.image.valid = true := by
    rw [namedLoads, image_ofCode (by decide)]
  have hstricter : ExtractOptions.Stricter ⟨90, 1, 8, true, none⟩ ⟨50, 2, 8, true, none⟩ :=
    ⟨by decide, by decide, rfl, rfl, rfl⟩
  have hone : (namedLoads.extract loadedFields ⟨90, 1, 8, true, none⟩ "").toOption.map
      (·.tally.covered) = some 1 := by decide +kernel
  have htwo : (namedLoads.extract loadedFields ⟨50, 2, 8, true, none⟩ "").toOption.map
      (·.tally.covered) = some 2 := by decide +kernel
  obtain ⟨narrow, wide, hnarrow, hwide, hnarrows⟩ :=
    extract_narrows hvalid loadedFields hstricter "" ""
  rw [hnarrow, Except.toOption, Option.map_some, Option.some.injEq] at hone
  rw [hwide, Except.toOption, Option.map_some, Option.some.injEq] at htwo
  exact ⟨narrow, wide, hnarrow, hwide, hnarrows, hone, htwo⟩

end Binary

end LayoutWatch
