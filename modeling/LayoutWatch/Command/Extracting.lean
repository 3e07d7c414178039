import LayoutWatch.Codec.Scan
import LayoutWatch.Command.Sources

/-!
# Extracting the signatures of a layout

The signatures of the fields of a layout are extracted from a binary of a project and written to
one file for each struct, or to a single file.
-/

namespace LayoutWatch.Command

open Project Json

variable {m : Type → Type} [Monad m] [FileSystem m]

/-- What is given about an extraction. -/
structure ExtractRequest where
  /-- Root of the project. -/
  root : String
  /-- Name or path of the binary. -/
  binary : String
  /-- Path of the layout. -/
  layout : String
  /-- Path of a single file for all signatures. -/
  out : Option String
  /-- Least score of a signature. -/
  minConfidence : Option UInt8
  /-- Largest number of accesses of a field. -/
  maxOccurrences : Option UInt64
  /-- Number of bytes of context on each side. -/
  contextBytes : Option UInt64
  /-- Type names are not looked for. -/
  noTypeNames : Bool
  /-- Version label of the binary. -/
  binaryVersion : Option String
  /-- The outcome is shown as structured text. -/
  json : Bool
  deriving DecidableEq, Repr

namespace ExtractRequest

/-- What the extraction accepts, where nothing is given as the settings say. -/
def options (r : ExtractRequest) (settings : Settings) : ExtractOptions where
  minConfidence := r.minConfidence.getD settings.scan.minConfidence
  maxOccurrences := r.maxOccurrences.getD settings.scan.maxOccurrences
  contextBytes := r.contextBytes.getD settings.scan.contextBytes
  includeTypeNames := !r.noTypeNames
  binaryVersion := r.binaryVersion

end ExtractRequest

/-- Write all sets to a single file. -/
def writeSets (path : String) (sets : List SignatureSet) : Work m Unit :=
  Work.during (.writeSignatures path)
    (Work.ofAction .file (FileSystem.writeText path (SignatureSet.fileText sets)))

/-- Write sets to the files of their structs, and give the paths. -/
def writeEachSet (f : Folders) (sets : List SignatureSet) : Work m (List String) :=
  sets.mapM fun s => do
    let path := f.signatureFile s.structName
    writeValue f.signatures path s.toValue
    return path

/-- An extraction as it is shown. -/
structure ExtractionReport where
  /-- Name of the binary. -/
  binary : String
  /-- Digest of the binary. -/
  hash : String
  /-- Version of the layout. -/
  layoutVersion : String
  /-- Files that were written. -/
  written : List String
  /-- The extraction. -/
  extraction : Extraction

namespace ExtractionReport

/-- Write the outcome of an extraction. -/
def toValue (r : ExtractionReport) : Value :=
  ofMembers ([
    member "binary" (ofText r.binary),
    member "binary_hash" (ofText r.hash),
    member "written" (ofTexts r.written)] ++ r.extraction.toMembers)

/-- The lines about an extraction. -/
def lines (r : ExtractionReport) : List String :=
  let tally := r.extraction.tally
  [
    "Extracted signatures:",
    "  Binary: " ++ r.binary ++ " (" ++ r.hash ++ ")",
    "  Layout version: " ++ r.layoutVersion,
    "  Fields attempted: " ++ toString tally.attempted,
    "  Fields covered: " ++ toString tally.covered,
    "  No reference found: " ++ toString tally.absent,
    "  Too ambiguous: " ++ toString tally.ambiguous,
    "  Below confidence threshold: " ++ toString tally.belowThreshold,
    "  RTTI anchors: " ++ toString tally.typeNames,
    "  Signatures: " ++ toString r.extraction.signatureCount]
    ++ r.written.map ("  Wrote: " ++ ·)

end ExtractionReport

/-- Extract the signatures of a layout and write them to files. -/
def extractToFiles (r : ExtractRequest) : Work m ExtractionReport := do
  let w ← Workspace.enter r.root
  let (name, path) ← w.locateBinary r.binary
  let layout ← loadLayout (w.folders.resolve r.layout)
  let binary ← loadBinary path
  let extraction ← Work.during (.extract name) do
    Work.ofResult .scan
      (binary.extract layout.declarations (r.options w.settings) (← Work.ask FileSystem.now))
  let written ←
    match r.out with
    | some out => do
      let path := w.folders.resolve out
      writeSets path extraction.sets
      pure [path]
    | none => writeEachSet w.folders extraction.sets
  return {
    binary := name
    hash := binary.hash
    layoutVersion := layout.version
    written
    extraction }

/-- Extract the signatures of a layout. -/
def extract (r : ExtractRequest) : Work m Report := do
  let report ← extractToFiles r
  return .clean (if r.json then valueLines report.toValue else report.lines)

end LayoutWatch.Command
