import LayoutWatch.Codec.Scan
import LayoutWatch.Command.Registration

/-!
# Scanning a binary of a project

The signatures of a project are looked for in one of its binaries. The report is written to a file
and the scan is added to the registry, and neither happens if anything is wrong with the binary or
the signatures.
-/

namespace LayoutWatch.Command

open Project Json

variable {m : Type → Type} [Monad m] [FileSystem m]

/-- What is given about a scan. -/
structure ScanRequest where
  /-- Root of the project. -/
  root : String
  /-- Name or path of the binary. -/
  binary : String
  /-- Paths of signature files; none for all of the project. -/
  signatures : List String
  /-- The outcome is shown as structured text. -/
  json : Bool
  deriving DecidableEq, Repr

/-- Texts one after the other. -/
def listed (texts : List String) : String := ", ".intercalate texts

/-- An offset and what it became. -/
def offsetsText (before after : UInt64) : String :=
  Text.hex before.toNat ++ " -> " ++ Text.hex after.toNat

/-- A share of a whole in percent. -/
def percentText (share : Binary64) : String := "(" ++ toString share.percent ++ "%)"

/-- A score. -/
def scoreText (score : UInt8) : String := "(confidence " ++ toString score.toNat ++ ")"

/-- The lines about a change. -/
def changeLines (c : OffsetChange) : List String :=
  ("- " ++ c.structName ++ "::" ++ c.fieldName ++ " "
    ++ offsetsText c.declaredOffset c.observedOffset ++ " " ++ scoreText c.confidence
    ++ (c.label.map fun label => " [" ++ label ++ "]").getD "")
    :: if c.conflicts.isEmpty then []
      else ["    other signatures observed: "
        ++ listed (c.conflicts.map fun offset => Text.hex offset.toNat)]

/-- The lines about a shared shift. -/
def sharedShiftLines (s : SharedShift) : List String :=
  ("- " ++ s.label ++ ": " ++ toString s.matchCount ++ " field(s) in " ++ listed s.structs ++ " "
    ++ percentText s.confidence ++ " - " ++ s.likelyCause)
    :: s.anomalies.map ("    anomaly: " ++ ·)

/-- The line about a sighting that is missing. -/
def missingLine (s : Sighting) : String :=
  "- " ++ s.structName ++ "::" ++ s.fieldName ++ " [" ++ s.kind.label ++ "]"

/-- Lines under a heading, which is left out if there are none. -/
def sectionLines (heading : String) (lines : List String) : List String :=
  if lines.isEmpty then [] else heading :: lines

/-- The lines about a scan. -/
def scanLines (r : ScanReport) : List String :=
  [
    "Scan of " ++ r.binaryIdentifier ++ ":",
    "  SHA-256: " ++ r.binaryHash,
    "  Signatures: " ++ toString r.matched ++ " matched, " ++ toString r.missing ++ " missing, "
      ++ toString r.total ++ " total"]
    ++ (if r.changes.isEmpty then ["Changes: (none)"]
      else "Changes:" :: r.changes.flatMap changeLines)
    ++ sectionLines "Patterns:" (r.shifts.flatMap sharedShiftLines)
    ++ sectionLines "Missing (pattern no longer present):" (r.missingSightings.map missingLine)

/-- The signature files that a scan loads. There has to be one. -/
def scanFiles (f : Folders) (given : List String) : Work m (List String) := do
  let files ← if given.isEmpty then signatureFiles f.signatures else pure (given.map f.resolve)
  if files.isEmpty then Work.giveUp (.noSignatureFiles f.signatures) else return files

/-- What a scan found out before it writes anything down. -/
structure Examination where
  /-- The project. -/
  workspace : Workspace
  /-- Name of the binary. -/
  name : String
  /-- The sets that were loaded. -/
  sets : List SignatureSet
  /-- The report on the binary. -/
  report : ScanReport

/-- Look for the signatures of a project in a binary. -/
def examine (r : ScanRequest) : Work m Examination := do
  let workspace ← Workspace.enter r.root
  let (name, path) ← workspace.locateBinary r.binary
  let files ← scanFiles workspace.folders r.signatures
  let sets := (← files.mapM loadSignatures).flatten
  let binary ← loadBinary path
  let report ← Work.during (.scan name) do
    Work.ofResult .scan (binary.scan sets (← Work.ask FileSystem.now))
  return { workspace, name, sets, report }

namespace Examination

/-- The file of the report. -/
def reportPath (e : Examination) : String := e.workspace.folders.scanReport e.name

/-- Write the report to its file, and add the scan to the registry. -/
def keep (e : Examination) : Work m Unit := do
  writeValue e.workspace.folders.reports e.reportPath e.report.toValue
  let _ ← e.workspace.record (ScanRun.ofReport e.name e.report)

/-- What is said about the scan. -/
def outcome (e : Examination) (json : Bool) : Report :=
  .ofFinding (!e.report.isComplete) <|
    if json then valueLines e.report.toValue
    else scanLines e.report ++ ["Report: " ++ e.reportPath]

end Examination

/-- Scan a binary. -/
def scan (r : ScanRequest) : Work m Report := do
  let e ← examine r
  e.keep
  return e.outcome r.json

/-- The line about a scan that was made. -/
def scanRunLine (s : ScanRun) : String :=
  "- " ++ s.binary ++ " at " ++ s.scannedAt ++ ": " ++ toString s.matched ++ "/"
    ++ toString s.total ++ " matched, " ++ toString s.missing ++ " missing, "
    ++ toString s.changes ++ " change(s), " ++ toString s.patterns ++ " pattern(s)"

/-- List the scans that were made, or those of one binary. -/
def listScans (root : String) (binary : Option String) (json : Bool) : Work m Report := do
  let w ← Workspace.enter root
  let scans ← w.scans binary
  return .clean <|
    if json then valueLines (ofList ScanRun.toValue scans)
    else headedLines "Scan runs:" (scans.map scanRunLine)

end LayoutWatch.Command
