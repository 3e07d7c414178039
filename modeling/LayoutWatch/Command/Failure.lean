import LayoutWatch.Binary
import LayoutWatch.Files.System

/-!
# Failures of commands

A command fails for one cause, in the middle of one or more activities. A failure is told from the
outermost activity to the cause.
-/

namespace LayoutWatch.Command

/-- Notation of a layout file. -/
inductive Notation where
  /-- Structured text with brackets. -/
  | json
  /-- Indented text. -/
  | yaml
  deriving DecidableEq, Repr

/-- The name of a notation. -/
def Notation.name : Notation → String
  | .json => "JSON"
  | .yaml => "YAML"

/-- What a command was doing. -/
inductive Activity where
  /-- Reading the file of the settings. -/
  | readSettings (path : String)
  /-- Making sense of the settings. -/
  | parseSettings
  /-- Writing the file of the settings. -/
  | writeSettings (path : String)
  /-- Making a folder. -/
  | createFolder (path : String)
  /-- Making a folder of a project, which has a label. -/
  | createProjectFolder (label path : String)
  /-- Opening the registry of a project. -/
  | openRegistry (path : String)
  /-- Making the registry of a new project. -/
  | initializeRegistry (path : String)
  /-- Adding a binary to the registry. -/
  | insertBinary
  /-- Listing the binaries of the registry. -/
  | listBinaries
  /-- Looking for a binary in the registry. -/
  | findBinary
  /-- Adding a scan to the registry. -/
  | recordScan
  /-- Listing the scans of the registry. -/
  | listScans
  /-- Reading a binary that is to be registered. -/
  | readBinary (path : String)
  /-- Reading the file of a layout. -/
  | readLayout (path : String)
  /-- Making sense of a layout. -/
  | parseLayout (form : Notation) (path : String)
  /-- Listing a folder. -/
  | readFolder (path : String)
  /-- Writing a file. -/
  | writeFile (path : String)
  /-- Writing a file with all signatures. -/
  | writeSignatures (path : String)
  /-- Loading a file of signatures. -/
  | loadSignatures (path : String)
  /-- Extracting signatures. -/
  | extract (binary : String)
  /-- Scanning a binary. -/
  | scan (binary : String)
  /-- Reading the report of a scan. -/
  | readReport (path : String)
  /-- Making sense of the report of a scan. -/
  | parseReport (path : String)
  deriving DecidableEq, Repr

/-- How a failed activity is told. -/
def Activity.message : Activity → String
  | .readSettings path => "Failed to read project config at " ++ path
  | .parseSettings => "Failed to parse project config JSON"
  | .writeSettings path => "Failed to write project config to " ++ path
  | .createFolder path => "Failed to create " ++ path
  | .createProjectFolder label path => "Failed to create " ++ label ++ ": " ++ path
  | .openRegistry path => "Failed to open project database at " ++ path
  | .initializeRegistry path => "Failed to initialize project database at " ++ path
  | .insertBinary => "Failed to insert binary record"
  | .listBinaries => "Failed to list binaries"
  | .findBinary => "Failed to look up binary"
  | .recordScan => "Failed to record scan run"
  | .listScans => "Failed to list scan runs"
  | .readBinary path => "Failed to read binary " ++ path
  | .readLayout path => "Failed to read layout snapshot " ++ path
  | .parseLayout form path => "Failed to parse " ++ form.name ++ " layout " ++ path
  | .readFolder path => "Failed to read " ++ path
  | .writeFile path => "Failed to write " ++ path
  | .writeSignatures path => "Failed to write signatures to " ++ path
  | .loadSignatures path => "Failed to load signatures from " ++ path
  | .extract binary => "Failed to extract signatures from " ++ binary
  | .scan binary => "Failed to scan " ++ binary
  | .readReport path => "Failed to read scan report " ++ path
  | .parseReport path => "Failed to parse scan report " ++ path

/-- Why a command failed. -/
inductive Cause where
  /-- A file was not read or written. -/
  | file (fault : FileFault)
  /-- The contents of a file are not what they have to be. -/
  | malformed (form : Notation)
  /-- The registry cannot be used. -/
  | registry (fault : Project.Registry.Fault)
  /-- A binary was not read. -/
  | unreadableBinary (path : String) (fault : FileFault)
  /-- A binary was not examined. -/
  | scan (fault : ScanFault)
  /-- There is no file to be registered. -/
  | missingBinary (path : String)
  /-- A binary is neither registered nor a file. -/
  | unknownBinary (binary path : String)
  /-- There are no files of signatures. -/
  | noSignatureFiles (folder : String)
  /-- A layout is to be verified against nothing. -/
  | noEvidence
  deriving DecidableEq, Repr

/-- How a cause is told. -/
def Cause.messages : Cause → List String
  | .file fault => [fault.message]
  | .malformed form => ["the text is no " ++ form.name ++ " of the expected form"]
  | .registry fault => [fault.message]
  | .unreadableBinary path fault =>
    ["Failed to read binary " ++ path ++ ": " ++ fault.message, fault.message]
  | .scan fault =>
    match fault with
    | .invalidImage _ _ => [fault.message]
    | .malformedPattern _ _ cause => [fault.message, cause.message]
  | .missingBinary path => ["Binary file does not exist: " ++ path]
  | .unknownBinary binary path =>
    ["Unknown binary '" ++ binary ++ "': not registered and no file at " ++ path]
  | .noSignatureFiles folder => ["No signature files found in " ++ folder]
  | .noEvidence => ["verify needs --signatures or --scan-report"]

/-- Why and where a command failed. -/
structure Failure where
  /-- What the command was doing, outermost first. -/
  activities : List Activity
  /-- Why it failed. -/
  cause : Cause
  deriving DecidableEq, Repr

namespace Failure

/-- A failure outside of every activity. -/
def of (cause : Cause) : Failure := ⟨[], cause⟩

/-- A failure in the middle of an activity. -/
def during (activity : Activity) (f : Failure) : Failure :=
  { f with activities := activity :: f.activities }

/-- How a failure is told, from the outermost activity to the cause. -/
def messages (f : Failure) : List String :=
  f.activities.map Activity.message ++ f.cause.messages

end Failure

/-- Work on files that may fail. -/
abbrev Work (m : Type → Type) := ExceptT Failure m

namespace Work

variable {m : Type → Type} [Monad m] {ε α : Type}

/-- Ask for something that cannot fail. -/
def ask (question : m α) : Work m α := ExceptT.lift question

/-- Give up for a cause. -/
def giveUp (cause : Cause) : Work m α := throw (.of cause)

/-- Go on with a result, or give up for the cause of its fault. -/
def ofResult (cause : ε → Cause) : Except ε α → Work m α
  | .ok a => pure a
  | .error fault => giveUp (cause fault)

/-- Go on with the result of an action, or give up for the cause of its fault. -/
def ofAction (cause : ε → Cause) (action : m (Except ε α)) : Work m α := do
  ofResult cause (← action)

/-- Go on with a value that is there, or give up. -/
def ofOption (cause : Cause) : Option α → Work m α
  | some a => pure a
  | none => giveUp cause

/-- Work that is one activity. -/
def during (activity : Activity) (work : Work m α) : Work m α :=
  ExceptT.adapt (Failure.during activity) work

end Work

/-- How a command ended. -/
inductive Verdict where
  /-- Everything is in order. -/
  | clean
  /-- The command did its work, and something it found needs attention. -/
  | needsAttention
  /-- The command failed. -/
  | failed (failure : Failure)
  deriving DecidableEq, Repr

/-- What a command has to say. -/
structure Report where
  /-- The lines to be printed. -/
  lines : List String
  /-- How the command ended. -/
  verdict : Verdict
  deriving DecidableEq, Repr

namespace Report

/-- A report that everything is in order. -/
def clean (lines : List String) : Report := ⟨lines, .clean⟩

/-- A report of which it depends on a finding whether everything is in order. -/
def ofFinding (needsAttention : Bool) (lines : List String) : Report :=
  ⟨lines, if needsAttention then .needsAttention else .clean⟩

/-- Run work to its report. Work that fails before its report prints nothing. -/
def ofWork {m : Type → Type} [Monad m] (work : Work m Report) : m Report := do
  match ← work.run with
  | .ok report => return report
  | .error failure => return ⟨[], .failed failure⟩

/-- The printed text. -/
def text (r : Report) : String := String.join (r.lines.map (· ++ "\n"))

/-- The status with which a program ends. -/
def exitCode (r : Report) : UInt32 :=
  match r.verdict with
  | .clean => 0
  | .needsAttention => 2
  | .failed _ => 1

end Report

end LayoutWatch.Command
