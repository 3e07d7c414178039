import LayoutWatch.Command.Extracting
import LayoutWatch.Command.Inspection
import LayoutWatch.Command.Judging
import LayoutWatch.Command.Options
import LayoutWatch.Command.Registration
import LayoutWatch.Command.Scanning
import LayoutWatch.Command.Setup

/-!
# Commands and their arguments

Every command has a name and a table of options. The first argument that is no flag is the name of
the command, and what follows are its options.
-/

namespace LayoutWatch.Command

/-- A command with everything that is given about it. -/
inductive Invocation where
  /-- Set up a project. -/
  | initProject (root : String) (name : Option String)
  /-- Describe a project. -/
  | projectInfo (root : String) (json : Bool)
  /-- Register a binary. -/
  | addBinary (r : Registration)
  /-- List the registered binaries. -/
  | listBinaries (root : String) (json : Bool)
  /-- Show the headers of a binary. -/
  | peInfo (path : String) (json : Bool)
  /-- Show how often the displacements of a binary are used. -/
  | indexStats (path : String) (top : Nat) (json : Bool)
  /-- Extract the signatures of a layout. -/
  | extract (r : ExtractRequest)
  /-- Scan a binary. -/
  | scan (r : ScanRequest)
  /-- List the scans that were made. -/
  | listScans (root : String) (binary : Option String) (json : Bool)
  /-- Compare two layouts. -/
  | drift (old new : String) (bound : Binary64.Bound) (json : Bool)
  /-- Verify a layout. -/
  | verify (r : VerifyRequest)
  deriving DecidableEq, Repr

/-- Run a command to its report. -/
def Invocation.run {m : Type → Type} [Monad m] [FileSystem m] (i : Invocation) : m Report :=
  Report.ofWork <|
    match i with
    | .initProject root name => Command.initProject root name
    | .projectInfo root json => Command.projectInfo root json
    | .addBinary r => Command.addBinary r
    | .listBinaries root json => Command.listBinaries root json
    | .peInfo path json => Command.peInfo path json
    | .indexStats path top json => Command.indexStats path top json
    | .extract r => Command.extract r
    | .scan r => Command.scan r
    | .listScans root binary json => Command.listScans root binary json
    | .drift old new bound json => Command.drift old new bound json
    | .verify r => Command.verify r

/-- The form of a command. -/
structure CommandForm where
  /-- Name of the command. -/
  name : String
  /-- Its own options. -/
  options : List OptionForm
  /-- The command, if every option is given that has to be. -/
  invocation? : Given → Option Invocation

namespace CommandForm

/-- The root of a project is the working folder unless it is given. -/
def rootOption : OptionForm := .text "root"

/-- The flag that asks for structured text. -/
def jsonOption : OptionForm := .flag "json"

/-- The root that is given. -/
def rootOfGiven (g : Given) : String := (g.text? "root").getD "."

/-- Structured text is asked for. -/
def wantsJson (g : Given) : Bool := g.has "json"

/-- The form of the command that sets up a project. -/
def initProject : CommandForm where
  name := "init-project"
  options := [rootOption, .text "name"]
  invocation? g := some (.initProject (rootOfGiven g) (g.text? "name"))

/-- The form of the command that describes a project. -/
def projectInfo : CommandForm where
  name := "project-info"
  options := [rootOption, jsonOption]
  invocation? g := some (.projectInfo (rootOfGiven g) (wantsJson g))

/-- The form of the command that registers a binary. -/
def addBinary : CommandForm where
  name := "add-binary"
  options := [rootOption, .text "path", .text "name", .text "arch", .text "hash",
    .flag "skip-hash"]
  invocation? g := do
    return .addBinary {
      root := rootOfGiven g
      path := ← g.text? "path"
      name := g.text? "name"
      arch := g.text? "arch"
      hash := g.text? "hash"
      skipHash := g.has "skip-hash" }

/-- The form of the command that lists the registered binaries. -/
def listBinaries : CommandForm where
  name := "list-binaries"
  options := [rootOption, jsonOption]
  invocation? g := some (.listBinaries (rootOfGiven g) (wantsJson g))

/-- The form of the command that shows the headers of a binary. -/
def peInfo : CommandForm where
  name := "pe-info"
  options := [.text "path", jsonOption]
  invocation? g := do return .peInfo (← g.text? "path") (wantsJson g)

/-- Number of displacements that are shown unless it is given. -/
def standardTop : UInt64 := 20

/-- The form of the command that shows how often the displacements of a binary are used. -/
def indexStats : CommandForm where
  name := "index-stats"
  options := [.text "path", .value "top" .word64, jsonOption]
  invocation? g := do
    return .indexStats (← g.text? "path") ((g.word64? "top").getD standardTop).toNat (wantsJson g)

/-- The form of the command that extracts signatures. -/
def extract : CommandForm where
  name := "extract"
  options := [rootOption, .text "binary", .text "layout", .text "out",
    .value "min-confidence" .word8, .value "max-occurrences" .word64,
    .value "context-bytes" .word64, .flag "no-rtti", .text "binary-version", jsonOption]
  invocation? g := do
    return .extract {
      root := rootOfGiven g
      binary := ← g.text? "binary"
      layout := ← g.text? "layout"
      out := g.text? "out"
      minConfidence := g.word8? "min-confidence"
      maxOccurrences := g.word64? "max-occurrences"
      contextBytes := g.word64? "context-bytes"
      noTypeNames := g.has "no-rtti"
      binaryVersion := g.text? "binary-version"
      json := wantsJson g }

/-- The form of the command that scans a binary. -/
def scan : CommandForm where
  name := "scan"
  options := [rootOption, .text "binary", .texts "signatures", jsonOption]
  invocation? g := do
    return .scan {
      root := rootOfGiven g
      binary := ← g.text? "binary"
      signatures := g.texts "signatures"
      json := wantsJson g }

/-- The form of the command that lists scans. -/
def listScans : CommandForm where
  name := "list-scans"
  options := [rootOption, .text "binary", jsonOption]
  invocation? g := some (.listScans (rootOfGiven g) (g.text? "binary") (wantsJson g))

/-- The form of the command that compares two layouts. -/
def drift : CommandForm where
  name := "drift"
  options := [.text "old", .text "new", .value "min-confidence" .bound, jsonOption]
  invocation? g := do
    return .drift (← g.text? "old") (← g.text? "new")
      ((g.bound? "min-confidence").getD (.finite Binary64.zero)) (wantsJson g)

/-- The form of the command that verifies a layout. -/
def verify : CommandForm where
  name := "verify"
  options := [.text "layout", .texts "signatures", .text "scan-report", jsonOption]
  invocation? g := do
    return .verify {
      layout := ← g.text? "layout"
      signatures := g.texts "signatures"
      scanReport := g.text? "scan-report"
      json := wantsJson g }

/-- The forms of all commands. -/
def all : List CommandForm := [initProject, projectInfo, addBinary, listBinaries, peInfo,
  indexStats, extract, scan, listScans, drift, verify]

/-- The form of the command with a name. -/
def named? (name : String) : Option CommandForm := all.find? (·.name == name)

/-- Read the options of a command. -/
def read (form : CommandForm) (arguments : List String) : Except UsageFault Invocation := do
  let given ← takeArguments (form.options ++ [.verbose, .help]) .start arguments
  match form.invocation? given with
  | some invocation => return invocation
  | none => throw .missingOption

end CommandForm

/-- Version of the program. -/
def programVersion : String := "0.1.0"

/-- The name of the command that explains the others. -/
def helpName : String := "help"

/-- What comes of asking for an explanation of a command. -/
def explain : List String → UsageFault
  | [] => .help
  | [name] =>
    if name = helpName ∨ (CommandForm.named? name).isSome then .help else .unknownCommand
  | _ :: _ :: _ => .unknownCommand

/-- Read the name of a command and its options. -/
def readCommand (name : String) (arguments : List String) : Except UsageFault Invocation :=
  if name = helpName then .error (explain arguments)
  else
    match CommandForm.named? name with
    | some form => form.read arguments
    | none => .error .unknownCommand

/-- Read arguments without a command. -/
def readNothing (t : Taking) : Except UsageFault Invocation :=
  .error (if t.given.isEmpty then .nothing else .noCommand)

/-- Read arguments behind a separator, where no command may stand. -/
def readSeparated (t : Taking) : List String → Except UsageFault Invocation
  | [] => readNothing t
  | name :: _ =>
    if name = helpName ∨ (CommandForm.named? name).isSome then .error .unknownArgument
    else .error .unknownCommand

/-- The options in front of a command. -/
def generalForms : List OptionForm := [.verbose, .help, .version]

/-- Read arguments from the first one that has not been taken. -/
def readFrom (t : Taking) : List String → Except UsageFault Invocation
  | [] => readNothing t
  | argument :: rest =>
    match Argument.ofText argument with
    | .separator => readSeparated t rest
    | .long name value => do readFrom (← t.takeLong generalForms name value) rest
    | .letters letters => do readFrom (← t.takeLetters generalForms letters) rest
    | .word name => readCommand name rest

/-- The command that arguments give. -/
def Invocation.ofArguments (arguments : List String) : Except UsageFault Invocation :=
  readFrom .start arguments

end LayoutWatch.Command
