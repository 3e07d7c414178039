import LayoutWatch.Extraction
import LayoutWatch.Json.Parser
import LayoutWatch.Json.Printer

/-!
# Settings of a project

The settings name the project, its registry, and what extractions accept. They are kept as
structured text.
-/

namespace LayoutWatch.Project

open Json

/-- What extractions of a project accept. -/
structure ScanSettings where
  /-- Least score of a signature. -/
  minConfidence : UInt8
  /-- Largest number of accesses of a field. -/
  maxOccurrences : UInt64
  /-- Number of bytes of context on each side. -/
  contextBytes : UInt64
  deriving DecidableEq, Repr

/-- The settings of a project. -/
structure Settings where
  /-- Name of the project. -/
  name : String
  /-- What the project is about. -/
  description : Option String
  /-- Version of the format. -/
  configVersion : String
  /-- Path of the registry. -/
  registry : String
  /-- What extractions accept. -/
  scan : ScanSettings
  deriving DecidableEq, Repr

namespace ScanSettings

/-- What extractions accept in a project that does not say. -/
def standard : ScanSettings where
  minConfidence := ExtractOptions.standard.minConfidence
  maxOccurrences := ExtractOptions.standard.maxOccurrences
  contextBytes := ExtractOptions.standard.contextBytes

/-- What an extraction accepts. -/
def options (s : ScanSettings) : ExtractOptions :=
  { ExtractOptions.standard with
    minConfidence := s.minConfidence
    maxOccurrences := s.maxOccurrences
    contextBytes := s.contextBytes }

/-- Read what extractions accept. -/
def ofValue? (v : Value) : Option ScanSettings := do
  let r ← Record.ofTree? ["min_confidence", "max_occurrences", "context_bytes"] v
  return {
    minConfidence := ← r.required "min_confidence" Tree.word8?
    maxOccurrences := ← r.required "max_occurrences" Tree.word64?
    contextBytes := ← r.required "context_bytes" Tree.word64? }

/-- Write what extractions accept. -/
def toValue (s : ScanSettings) : Value :=
  ofMembers [
    member "min_confidence" (ofNat s.minConfidence.toNat),
    member "max_occurrences" (ofNat s.maxOccurrences.toNat),
    member "context_bytes" (ofNat s.contextBytes.toNat)]

end ScanSettings

namespace Settings

/-- The settings of a new project. -/
def new (name registry : String) : Settings := ⟨name, none, "0.1.0", registry, .standard⟩

/-- Read the path of the registry. -/
def registryOfValue? (v : Value) : Option String := do
  let r ← Record.ofTree? ["path"] v
  r.required "path" Tree.text?

/-- Read settings. -/
def ofValue? (v : Value) : Option Settings := do
  let r ← Record.ofTree? ["name", "description", "config_version", "db", "scan"] v
  return {
    name := ← r.required "name" Tree.text?
    description := ← r.nullable "description" Tree.text?
    configVersion := ← r.required "config_version" Tree.text?
    registry := ← r.required "db" registryOfValue?
    scan := ← r.defaulted "scan" .standard ScanSettings.ofValue? }

/-- Write settings. -/
def toValue (s : Settings) : Value :=
  ofMembers [
    member "name" (ofText s.name),
    member "description" (ofOption ofText s.description),
    member "config_version" (ofText s.configVersion),
    member "db" (ofMembers [member "path" (ofText s.registry)]),
    member "scan" s.scan.toValue]

/-- Read the text of a settings file. -/
def parse? (text : String) : Option Settings := (Json.parse? text.toList).bind ofValue?

/-- The text of a settings file. -/
def fileText (s : Settings) : String := pretty s.toValue

end Settings

end LayoutWatch.Project
