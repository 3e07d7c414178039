import LayoutWatch.Project.Settings
import LayoutWatch.Proofs.Json.Record

/-!
# Settings are read back

The settings of a project are read back from the text of their file. Their description is written
also when there is none, as nothing.
-/

namespace LayoutWatch.Project

open Json

namespace ScanSettings

/-- The members of what extractions accept. -/
def entries (s : ScanSettings) : List Entry := [
  ("min_confidence", some (ofNat s.minConfidence.toNat)),
  ("max_occurrences", some (ofNat s.maxOccurrences.toNat)),
  ("context_bytes", some (ofNat s.contextBytes.toNat))]

/-- What extractions accept is written from its entries. -/
theorem toValue_eq (s : ScanSettings) : s.toValue = ofEntries s.entries := rfl

/-- What extractions accept is read back. -/
@[simp] theorem ofValue?_toValue (s : ScanSettings) : ofValue? s.toValue = some s := by
  rw [ofValue?, toValue_eq]
  refine bind_ofTree? rfl (by decide) fun r h => ?_
  rw [h.required rfl (word8?_ofNat s.minConfidence),
    h.required rfl (word64?_ofNat s.maxOccurrences), h.required rfl (word64?_ofNat s.contextBytes)]
  rfl

/-- What extractions accept is built for writing. -/
theorem written_toValue (s : ScanSettings) : Written s.toValue := by
  rw [toValue_eq]
  refine written_ofEntries ?_
  simp [entries]

end ScanSettings

namespace Settings

/-- The members of written settings. -/
def entries (s : Settings) : List Entry := [
  ("name", some (ofText s.name)),
  ("description", some (ofOption ofText s.description)),
  ("config_version", some (ofText s.configVersion)),
  ("db", some (ofEntries [("path", some (ofText s.registry))])),
  ("scan", some s.scan.toValue)]

/-- Settings are written from their entries. -/
theorem toValue_eq (s : Settings) : s.toValue = ofEntries s.entries := rfl

/-- The path of the registry is read back. -/
theorem registryOfValue?_ofEntries (path : String) :
    registryOfValue? (ofEntries [("path", some (ofText path))]) = some path := by
  rw [registryOfValue?]
  exact bind_ofTree? rfl (by decide) fun r h => h.required rfl (text?_ofText path)

/-- Written settings are read back. -/
@[simp] theorem ofValue?_toValue (s : Settings) : ofValue? s.toValue = some s := by
  rw [ofValue?, toValue_eq]
  refine bind_ofTree? rfl (by decide) fun r h => ?_
  rw [h.required rfl (text?_ofText s.name),
    h.nullable (o := s.description) rfl text?_ofText (fun _ => rfl),
    h.required rfl (text?_ofText s.configVersion),
    h.required rfl (registryOfValue?_ofEntries s.registry), h.defaulted rfl s.scan.ofValue?_toValue]
  rfl

/-- Settings are built for writing. -/
theorem written_toValue (s : Settings) : Written s.toValue := by
  have hdescription : Written (ofOption ofText s.description) := by
    cases s.description with
    | none => exact .null
    | some text => exact .text text
  have hregistry : Written (ofEntries [("path", some (ofText s.registry))]) :=
    written_ofEntries (by simp)
  rw [toValue_eq]
  refine written_ofEntries ?_
  simp [entries, hdescription, hregistry, s.scan.written_toValue]

/-- Settings are read back from the text of their file. -/
@[simp] theorem parse?_fileText (s : Settings) : parse? s.fileText = some s := by
  simp [parse?, fileText, Json.parse?_pretty s.written_toValue]

end Settings

end LayoutWatch.Project
