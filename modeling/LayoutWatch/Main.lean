import LayoutWatch.Command.Invocation
import LayoutWatch.Json.Parser
import Std.Time.Format

/-!
# The program

The files of the computer take the place of a tree of files, and the registry of a project is kept
in a file as structured text.
-/

namespace LayoutWatch

/-- The fault that an error of the computer stands for. -/
def FileFault.ofError : IO.Error → FileFault
  | .noFileOrDirectory _ _ _ => .notFound
  | .inappropriateType _ code reason =>
    if code = 21 then .isFolder else if code = 20 then .notFolder else .other reason
  | .alreadyExists _ _ _ => .exists
  | error => .other (toString error)

/-- Do something with files. -/
def attemptWithFiles {α : Type} (action : IO α) : IO (Except FileFault α) := do
  match ← action.toBaseIO with
  | .ok a => return .ok a
  | .error error => return .error (.ofError error)

/-- The present time. -/
def presentTime : IO String := do
  let moment ← Std.Time.Timestamp.now
  return (Std.Time.DateTime.ofTimestampWithZone moment .UTC).toISO8601String

/-- What stands at a path. -/
def kindOnComputer? (path : String) : IO (Option FileKind) := do
  if path.isEmpty then return none
  else
    match ← attemptWithFiles ((← IO.currentDir) / path).metadata with
    | .ok about => return some (if about.type == .dir then .folder else .file)
    | .error _ => return none

/-- The path from the root to what stands at a path, without detours. -/
def canonicalOnComputer? (path : String) : IO (Option String) := do
  if (← kindOnComputer? path).isNone then return none
  else
    match ← attemptWithFiles (IO.FS.realPath path) with
    | .ok straight => return some straight.toString
    | .error _ => return none

/-- Names in a folder. -/
def namesOnComputer (path : String) : IO (Except FileFault (List String)) := do
  let entries ← attemptWithFiles ((← IO.currentDir) / path).readDir
  return entries.map fun found => found.toList.map (·.fileName)

/-- The registry that a text stands for. A registry that was never written is a fresh one. -/
def Project.Registry.ofText (text : String) : Except Fault Project.Registry :=
  if text.isEmpty then .ok .fresh
  else
    match (Json.parse? text.toList).bind ofValue? with
    | some registry => .ok registry
    | none => .error .unusable

/-- The registry that a file holds. -/
def registryOnComputer (path : String) :
    IO (Except Project.Registry.Fault Project.Registry) := do
  match ← attemptWithFiles (IO.FS.readFile path) with
  | .ok text => return Project.Registry.ofText text
  | .error .notFound => return .ok .fresh
  | .error _ => return .error .unusable

instance : FileSystem IO where
  workingFolder := do return (← IO.currentDir).toString
  now := presentTime
  canonical? := canonicalOnComputer?
  kind? := kindOnComputer?
  read path := attemptWithFiles do return (← IO.FS.readBinFile path).data
  write path bytes := attemptWithFiles (IO.FS.writeBinFile path ⟨bytes⟩)
  makeFolders path := attemptWithFiles (IO.FS.createDirAll path)
  names := namesOnComputer
  readRegistry := registryOnComputer
  writeRegistry path registry := do
    let written ← attemptWithFiles (IO.FS.writeFile path (Json.compact registry.toValue))
    return written.mapError fun _ => .unusable

namespace Command

/-- The text that explains the program. -/
def helpText : String :=
  "Usage: layout-watch [-v] COMMAND [OPTIONS]\n\nCommands:\n"
    ++ String.join (CommandForm.all.map fun form => "  " ++ form.name ++ "\n")

/-- What is said about arguments that are no command. -/
def UsageFault.message : UsageFault → String
  | .nothing | .noCommand => "no command is given"
  | .help => helpText
  | .version => "layout-watch " ++ programVersion
  | .unknownCommand => "the command is not known"
  | .unknownArgument => "an argument is not known"
  | .missingValue => "an option has no value"
  | .repeated => "an option is given twice"
  | .excessValue => "a flag has a value"
  | .malformedValue => "the value of an option is malformed"
  | .missingOption => "an option is missing"

/-- Print what a command has to say. -/
def Report.print (r : Report) : IO UInt32 := do
  IO.print r.text
  match r.verdict with
  | .failed failure => IO.eprintln ("Error: " ++ ": ".intercalate failure.messages)
  | .clean | .needsAttention => pure ()
  return r.exitCode

/-- Print what is said about arguments that are no command. -/
def UsageFault.print (fault : UsageFault) : IO UInt32 := do
  if fault.isRequest then IO.println fault.message else IO.eprintln ("Error: " ++ fault.message)
  return fault.exitCode

end Command

end LayoutWatch

open LayoutWatch.Command in
/-- Run the command that the arguments give. -/
def main (arguments : List String) : IO UInt32 := do
  match Invocation.ofArguments arguments with
  | .ok invocation => (← (invocation.run : IO Report)).print
  | .error fault => fault.print
