import LayoutWatch.Extraction
import LayoutWatch.Proofs.CodeImage
import LayoutWatch.Proofs.Scan

/-!
# Malformed signatures

A scan reads the texts of a signature when it comes to the signature, and reads all of them before
it looks for anything. So whether it fails, and with which fault, is decided by the texts alone:
the binary has no say in it beyond being a valid image.
-/

namespace LayoutWatch

/-- The text is no pattern. -/
def Pattern.IsMalformed (text : String) : Prop := ∃ cause, Pattern.parse text = .error cause

/-- It can be checked whether a text is a pattern. -/
instance Pattern.decidableMalformed (text : String) : Decidable (Pattern.IsMalformed text) :=
  match h : Pattern.parse text with
  | .ok _ => isFalse fun hmalformed => by
    obtain ⟨cause, hcause⟩ := hmalformed
    cases h.symm.trans hcause
  | .error cause => isTrue ⟨cause, h⟩

namespace Signature

/-- The texts of a signature that are read as patterns, in this order. -/
def texts (s : Signature) : List String :=
  s.pattern :: (s.contextBefore.toList ++ s.contextAfter.toList)

/-- Some text of the signature is no pattern. -/
def IsMalformed (s : Signature) : Prop := ∃ text ∈ s.texts, Pattern.IsMalformed text

/-- It can be checked whether a signature is malformed. -/
instance decidableMalformed (s : Signature) : Decidable s.IsMalformed :=
  inferInstanceAs (Decidable (∃ text ∈ s.texts, Pattern.IsMalformed text))

variable {s : Signature} {cause : Pattern.Malformed}

/-- A text that may be absent is read as a list of texts is. -/
theorem mapM_parse_toList (text? : Option String) :
    text?.toList.mapM Pattern.parse = (parseOptional text?).map Option.toList := by
  cases text? with
  | none => rfl
  | some text =>
    rw [Option.toList_some, List.mapM_cons, parseOptional]
    cases Pattern.parse text with
    | error cause => rfl
    | ok p => rfl

/-- The patterns of a signature are read from its texts one after the other. -/
theorem mapM_parse_texts (s : Signature) : s.texts.mapM Pattern.parse =
    s.patterns.map fun p => p.main :: (p.before.toList ++ p.behind.toList) := by
  rw [texts, patterns, List.mapM_cons, List.mapM_append, mapM_parse_toList, mapM_parse_toList]
  cases Pattern.parse s.pattern with
  | error cause => rfl
  | ok main =>
    cases parseOptional s.contextBefore with
    | error cause => rfl
    | ok before =>
      cases parseOptional s.contextAfter with
      | error cause => rfl
      | ok behind => rfl

/-- Reading the texts fails where reading the patterns does, and with the same fault. -/
theorem mapM_parse_texts_eq_error_iff :
    s.texts.mapM Pattern.parse = .error cause ↔ s.patterns = .error cause := by
  rw [mapM_parse_texts]
  cases s.patterns <;> simp [Except.map]

/-- The fault of a signature is that of its first text that is no pattern. -/
theorem patterns_eq_error_iff : s.patterns = .error cause ↔
    ∃ text, IsFirstOf Pattern.IsMalformed s.texts text ∧ Pattern.parse text = .error cause := by
  rw [← mapM_parse_texts_eq_error_iff]
  exact mapM_eq_error_iff

/-- A signature has no patterns exactly when some of its texts is none. -/
theorem exists_patterns_eq_error_iff : (∃ cause, s.patterns = .error cause) ↔ s.IsMalformed := by
  simp only [← mapM_parse_texts_eq_error_iff]
  exact exists_mapM_eq_error_iff

end Signature

namespace Binary

variable {b : Binary} {s : Signature} {fault : ScanFault}

/-- The fault of a sighting names the struct and the field of the signature, and what is wrong with
its texts. -/
theorem sightValid_eq_error_iff : b.sightValid s = .error fault ↔ ∃ cause,
    s.patterns = .error cause ∧ fault = .malformedPattern s.structName s.fieldName cause := by
  rw [sightValid]
  cases s.patterns with
  | ok p => simp
  | error cause => simp [eq_comm]

/-- There is no sighting of a malformed signature, and one of every other. -/
theorem exists_sightValid_eq_error_iff :
    (∃ fault, b.sightValid s = .error fault) ↔ s.IsMalformed := by
  rw [← Signature.exists_patterns_eq_error_iff]
  constructor
  · intro hfault
    obtain ⟨fault, hfault⟩ := hfault
    obtain ⟨cause, hcause, -⟩ := sightValid_eq_error_iff.mp hfault
    exact ⟨cause, hcause⟩
  · intro hcause
    obtain ⟨cause, hcause⟩ := hcause
    exact ⟨_, sightValid_eq_error_iff.mpr ⟨cause, hcause, rfl⟩⟩

/-- What the outcome of a scan has to do with the texts of the signatures. -/
structure Answers (b : Binary) (signatures : List Signature)
    (outcome : Except ScanFault ScanReport) : Prop where
  /-- The scan fails exactly when a signature is malformed. -/
  error_iff : (∃ fault, outcome = .error fault) ↔ ∃ s ∈ signatures, s.IsMalformed
  /-- The fault names the first malformed signature, and what is wrong with the first of its texts
  that is no pattern. -/
  fault_iff : ∀ fault, outcome = .error fault ↔ ∃ s text cause,
    IsFirstOf Signature.IsMalformed signatures s ∧ IsFirstOf Pattern.IsMalformed s.texts text ∧
      Pattern.parse text = .error cause ∧
      fault = .malformedPattern s.structName s.fieldName cause
  /-- A report has one sighting for each signature, in their order. -/
  sightings_eq : ∀ r, outcome = .ok r →
    List.Forall₂ (fun s x => b.sight s = .ok x) signatures r.sightings
  /-- Each signature is counted once, as found or as missing. -/
  counts_eq : ∀ r, outcome = .ok r → r.total = signatures.length ∧
    r.matched = r.sightings.countP (·.found) ∧ r.matched + r.missing = r.total

/-- The scan of a valid binary fails for a malformed signature only, whatever it finds before. -/
theorem answers_of_valid (h : b.image.valid = true) (sets : List SignatureSet)
    (scannedAt : String) :
    b.Answers (sets.flatMap (·.signatures)) (b.scan sets scannedAt) := by
  have hvalid : b.validImage = .ok b.image := by rw [validImage, if_pos h]
  have hsight : ∀ s, b.sight s = b.sightValid s := by
    intro s
    rw [sight, hvalid]
    rfl
  have hmalformed : (fun s => ∃ fault, b.sightValid s = .error fault) = Signature.IsMalformed :=
    funext fun s => propext exists_sightValid_eq_error_iff
  have hscan : ∀ fault, b.scan sets scannedAt = .error fault ↔
      (sets.flatMap (·.signatures)).mapM b.sightValid = .error fault := by
    intro fault
    rw [scan, hvalid]
    cases (sets.flatMap (·.signatures)).mapM b.sightValid <;> simp
  constructor
  case error_iff =>
    simp only [hscan, exists_mapM_eq_error_iff, exists_sightValid_eq_error_iff]
  case fault_iff =>
    intro fault
    rw [hscan, mapM_eq_error_iff, hmalformed]
    simp only [sightValid_eq_error_iff, Signature.patterns_eq_error_iff]
    constructor
    · intro hfault
      obtain ⟨s, hs, cause, ⟨text, htext, hparse⟩, hnamed⟩ := hfault
      exact ⟨s, text, cause, hs, htext, hparse, hnamed⟩
    · intro hfault
      obtain ⟨s, text, cause, hs, htext, hparse, hnamed⟩ := hfault
      exact ⟨s, hs, cause, ⟨text, htext, hparse⟩, hnamed⟩
  case sightings_eq =>
    intro r hr
    obtain ⟨sightings, hsightings, rfl⟩ := exists_sightings_of_scan hr
    simp only [hsight]
    exact mapM_eq_ok_iff.mp hsightings
  case counts_eq =>
    intro r hr
    obtain ⟨hsum, htotal⟩ := counts_of_scan hr
    obtain ⟨sightings, -, rfl⟩ := exists_sightings_of_scan hr
    exact ⟨htotal, rfl, hsum⟩

/-- A binary that is no valid image is neither scanned nor extracted from, and both say why. -/
theorem fault_of_invalid (h : b.image.valid = false) :
    (∀ sets scannedAt, b.scan sets scannedAt =
        .error (.invalidImage b.identifier (invalidReason b.image))) ∧
      ∀ fields options extractedAt, b.extract fields options extractedAt =
        .error (.invalidImage b.identifier (invalidReason b.image)) := by
  have hinvalid : b.validImage = .error (.invalidImage b.identifier (invalidReason b.image)) := by
    rw [validImage, if_neg (by rw [h]; exact Bool.false_ne_true)]
  constructor
  · intro sets scannedAt
    rw [scan, hinvalid]
    rfl
  · intro fields options extractedAt
    rw [extract, index, hinvalid]
    rfl

/-- Whether a scan fails is decided by the image and by the texts of the signatures, and the fault
is that of the first text that is no pattern. -/
theorem scan_answers (b : Binary) :
    (b.image.valid = true → ∀ sets scannedAt,
      b.Answers (sets.flatMap (·.signatures)) (b.scan sets scannedAt)) ∧
    (b.image.valid = false →
      (∀ sets scannedAt, b.scan sets scannedAt =
        .error (.invalidImage b.identifier (invalidReason b.image))) ∧
      ∀ fields options extractedAt, b.extract fields options extractedAt =
        .error (.invalidImage b.identifier (invalidReason b.image))) :=
  ⟨fun h => answers_of_valid h, fun h => fault_of_invalid h⟩

/-- A signature that is found nowhere, and one that would be found nowhere either, of whose
contexts neither is a pattern. -/
def strangeSignatures : List Signature :=
  [⟨.fieldAccess, "Foo", "a", 0, "90 90", none, none, 85, none, none⟩,
    ⟨.fieldAccess, "Foo", "b", 8, "CC", some "", some "zz", 85, none, none⟩]

/-- The pattern of the second signature does not occur, and yet the scan fails, for the context in
front of it. Where there is no image, the texts are not looked at. -/
theorem scan_answers_strange :
    (ofCode "return.exe" [0xC3]).scan [⟨"Foo", "", none, 1, "", strangeSignatures⟩] "" =
        .error (.malformedPattern "Foo" "b" .empty) ∧
      Binary.scan ⟨"empty.exe", #[]⟩ [⟨"Foo", "", none, 1, "", strangeSignatures⟩] "" =
        .error (.invalidImage "empty.exe" "buffer too small for a DOS header (0 bytes)") := by
  have hvalid : (ofCode "return.exe" [0xC3]).image.valid = true := by
    rw [image_ofCode (by decide)]
  have hinvalid : (Binary.image ⟨"empty.exe", #[]⟩).valid = false := by decide
  have hreason : invalidReason (Binary.image ⟨"empty.exe", #[]⟩) =
      "buffer too small for a DOS header (0 bytes)" := by decide
  have hanswers := (scan_answers (ofCode "return.exe" [0xC3])).1 hvalid
    [⟨"Foo", "", none, 1, "", strangeSignatures⟩] ""
  constructor
  · refine (hanswers.fault_iff _).mpr
      ⟨⟨.fieldAccess, "Foo", "b", 8, "CC", some "", some "zz", 85, none, none⟩, "", .empty, ?_⟩
    exact ⟨⟨strangeSignatures.take 1, [], rfl, by decide, by decide⟩,
      ⟨["CC"], ["zz"], rfl, by decide, by decide⟩, by decide, rfl⟩
  · rw [← hreason]
    exact ((scan_answers ⟨"empty.exe", #[]⟩).2 hinvalid).1 _ _

end Binary

end LayoutWatch
