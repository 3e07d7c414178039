import LayoutWatch.Codec.Comparison
import LayoutWatch.Codec.Verification
import LayoutWatch.Command.Scanning

/-!
# Judging layouts

Two layouts can be compared, and one layout can be verified against signatures and the report of a
scan. Neither needs a project.
-/

namespace LayoutWatch.Command

open Json

variable {m : Type → Type} [Monad m] [FileSystem m]

/-- The line about a field that was changed. -/
def fieldChangeLine (f : FieldChange) : String :=
  "    " ++ f.name ++ " " ++
    match f.oldOffset, f.newOffset, f.delta with
    | some old, some new, some delta =>
      if delta ≠ 0 then offsetsText old new ++ " (" ++ Delta.text delta ++ ")"
      else "[" ++ f.change.label ++ "]"
    | _, _, _ => "[" ++ f.change.label ++ "]"

/-- The lines about a struct that was changed. -/
def structChangeLines (s : StructChange) : List String :=
  ("- " ++ s.name ++ " [" ++ s.change.label ++ "]")
    :: (s.fields.filter (·.change != .unchanged)).map fieldChangeLine
    ++ (s.virtuals.filter (·.change != .unchanged)).map fun v =>
      "    vfunc " ++ v.name ++ " [" ++ v.change.label ++ "]"

/-- The lines about a proposed shift. -/
def proposalLines (p : ShiftProposal) : List String :=
  ("- " ++ p.label ++ ": " ++ toString p.matchCount ++ "/" ++ toString p.totalCandidates
    ++ " compared member(s) agree " ++ percentText p.confidence)
    :: p.anomalies.map fun s =>
      "    anomaly: " ++ s.qualified ++ " (" ++ Delta.text s.delta ++ ")"

/-- The lines about a comparison. -/
def comparisonLines (c : Comparison) : List String :=
  [
    "Layout drift " ++ c.oldVersion ++ " -> " ++ c.newVersion ++ ":",
    "  Structs: " ++ toString (c.count .modified) ++ " modified, " ++ toString (c.count .added)
      ++ " added, " ++ toString (c.count .removed) ++ " removed, "
      ++ toString (c.count .unchanged) ++ " unchanged"]
    ++ (c.structs.filter (·.change != .unchanged)).flatMap structChangeLines
    ++ if c.proposals.isEmpty then ["Shift candidates: (none)"]
      else "Shift candidates:" :: c.proposals.flatMap proposalLines

/-- Compare two layouts. Shifts of less confidence than a bound are not proposed. -/
def drift (old new : String) (bound : Binary64.Bound) (json : Bool) : Work m Report := do
  let oldLayout ← loadLayout old
  let newLayout ← loadLayout new
  let c := (Comparison.ofLayouts oldLayout newLayout).retain bound
  return .clean (if json then valueLines c.toValue else comparisonLines c)

/-- What is given about a verification. -/
structure VerifyRequest where
  /-- Path of the layout. -/
  layout : String
  /-- Paths of signature files. -/
  signatures : List String
  /-- Path of the report of a scan. -/
  scanReport : Option String
  /-- The outcome is shown as structured text. -/
  json : Bool
  deriving DecidableEq, Repr

/-- The line about a finding. -/
def issueLine (i : Issue) : String := "- [" ++ i.severity.label ++ "] " ++ i.message

/-- The line about a new offset for a field. -/
def patchLine (p : Patch) : String :=
  "- " ++ p.structName ++ "::" ++ p.fieldName ++ " "
    ++ offsetsText p.currentOffset p.suggestedOffset ++ " " ++ scoreText p.confidence

/-- The line about a shift of a family. -/
def bulkShiftLine (s : BulkShift) : String :=
  "Bulk shift " ++ s.label ++ ": " ++ toString s.matchCount ++ "/" ++ toString s.totalCandidates
    ++ " mismatch(es) agree " ++ percentText s.confidence

/-- The lines about a verification. -/
def verificationLines (v : Verification) : List String :=
  [
    "Verification of layout " ++ v.layoutVersion ++ ":",
    "  Observations checked: " ++ toString v.checked,
    "  Agreeing: " ++ toString v.matched,
    "  Coverage: " ++ toString v.coverage.observed ++ "/" ++ toString v.coverage.declared
      ++ " declared fields " ++ percentText v.coverage.ratio,
    "  Issues: " ++ toString (v.count .error) ++ " error(s), " ++ toString (v.count .warning)
      ++ " warning(s), " ++ toString (v.count .info) ++ " info"]
    ++ (v.issues.filter (·.severity != .info)).map issueLine
    ++ sectionLines "Patch suggestions:" (v.patches.map patchLine)
    ++ sectionLines "Manual review (low confidence):" (v.manualReview.map patchLine)
    ++ v.bulkShifts.map bulkShiftLine

/-- Load what the report of a scan saw. -/
def loadSightings (path : String) : Work m (List Sighting) := do
  let text ← Work.during (.readReport path) (Work.ofAction .file (FileSystem.readText path))
  let report ← Work.during (.parseReport path)
    (Work.ofOption (.malformed .json) ((Json.parse? text.toList).bind ScanReport.ofValue?))
  return report.sightings

/-- Verify a layout. -/
def verify (r : VerifyRequest) : Work m Report := do
  if r.signatures.isEmpty && r.scanReport.isNone then Work.giveUp .noEvidence
  else
    let layout ← loadLayout r.layout
    let sets ← r.signatures.mapM loadSignatures
    let sightings ←
      match r.scanReport with
      | some path => loadSightings path
      | none => pure []
    let v := Verification.ofObservations layout
      (Observation.ofSignatures sets.flatten ++ Observation.ofSightings sightings)
    return .ofFinding v.hasErrors
      (if r.json then valueLines v.toValue else verificationLines v)

end LayoutWatch.Command
