import LayoutWatch.Json.Lexeme
import LayoutWatch.Scan

/-!
# The registry of a project

The registry lists the binaries of a project and the scans that were made. It carries the version
of its form: each version adds one table, and an older registry is brought up to the current one
when it is opened. Rows get ascending numbers, which are not used again.
-/

namespace LayoutWatch.Project

/-- A binary of a project. -/
structure RegisteredBinary where
  /-- Name in the project. -/
  name : String
  /-- Path of the file, seen from the root of the project where that is possible. -/
  path : String
  /-- Name of the architecture. -/
  arch : Option String
  /-- Digest of the file. -/
  hash : Option String
  deriving DecidableEq, Repr

/-- A scan that was made. -/
structure ScanRun where
  /-- Name of the binary. -/
  binary : String
  /-- Digest of the binary. -/
  binaryHash : String
  /-- Number of signatures. -/
  total : Int
  /-- Number of signatures that were found. -/
  matched : Int
  /-- Number of signatures that were not found. -/
  missing : Int
  /-- Number of changes. -/
  changes : Int
  /-- Number of shared shifts. -/
  patterns : Int
  /-- When the scan took place. -/
  scannedAt : String
  deriving DecidableEq, Repr

/-- A binary of which only the name and the path are known. -/
def RegisteredBinary.new (name path : String) : RegisteredBinary := ⟨name, path, none, none⟩

/-- What the registry keeps of the report of a scan. -/
def ScanRun.ofReport (binary : String) (r : ScanReport) : ScanRun where
  binary
  binaryHash := r.binaryHash
  total := r.total
  matched := r.matched
  missing := r.missing
  changes := r.changes.length
  patterns := r.shifts.length
  scannedAt := r.scannedAt

namespace Registry

/-- A table of numbered rows. -/
structure Table (α : Type) where
  /-- Numbers and contents of the rows, ascending. -/
  rows : List (Nat × α)
  /-- The largest number that was ever given to a row. -/
  last : Nat
  deriving DecidableEq, Repr

namespace Table

variable {α : Type}

/-- No rows yet. -/
def empty : Table α := ⟨[], 0⟩

/-- Add a row under the next number. -/
def insert (t : Table α) (row : α) : Table α := ⟨t.rows ++ [(t.last + 1, row)], t.last + 1⟩

/-- Contents of the rows in order. -/
def contents (t : Table α) : List α := t.rows.map (·.2)

/-- Leave out the row with a number. -/
def delete (t : Table α) (number : Int) : Table α :=
  { t with rows := t.rows.filter fun row => Int.ofNat row.1 ≠ number }

end Table

/-- Why a registry cannot be used. -/
inductive Fault where
  /-- The file is no registry, or a table is missing. -/
  | unusable
  /-- The registry has a form of another version. -/
  | unsupportedVersion (found : Int)
  deriving DecidableEq, Repr

/-- Version of the current form. -/
def currentVersion : Int := 2

/-- Oldest version that a registry can have. -/
def oldestVersion : Int := 0

/-- The wording of a fault. -/
def Fault.message : Fault → String
  | .unusable => "the registry cannot be read"
  | .unsupportedVersion found =>
    "Unsupported schema version " ++ toString found ++ "; supported range is "
      ++ toString oldestVersion ++ "..=" ++ toString currentVersion

end Registry

/-- The binaries of a project and the scans that were made. -/
structure Registry where
  /-- Version of the form. -/
  version : Int
  /-- Table of binaries, if there is one. -/
  binaries : Option (Registry.Table RegisteredBinary)
  /-- Table of scans, if there is one. -/
  scans : Option (Registry.Table ScanRun)
  deriving DecidableEq, Repr

namespace Registry

/-- A registry without tables. -/
def fresh : Registry := ⟨0, none, none⟩

/-- Bring a registry up to the current form. Tables that are already there are kept. -/
def migrate (r : Registry) : Except Fault Registry :=
  if currentVersion < r.version then .error (.unsupportedVersion r.version)
  else
    .ok {
      version := currentVersion
      binaries := if r.version < 1 then some (r.binaries.getD .empty) else r.binaries
      scans := if r.version < 2 then some (r.scans.getD .empty) else r.scans }

/-- A table that is there, or a fault. -/
def require {α : Type} (table : Option (Table α)) : Except Fault (Table α) :=
  match table with
  | some t => .ok t
  | none => .error .unusable

/-- Add a binary and give its number. -/
def insertBinary (r : Registry) (b : RegisteredBinary) : Except Fault (Registry × Nat) := do
  let t ← require r.binaries
  return ({ r with binaries := some (t.insert b) }, t.last + 1)

/-- Add a scan and give its number. -/
def insertScan (r : Registry) (s : ScanRun) : Except Fault (Registry × Nat) := do
  let t ← require r.scans
  return ({ r with scans := some (t.insert s) }, t.last + 1)

/-- All binaries in order. -/
def listBinaries (r : Registry) : Except Fault (List RegisteredBinary) :=
  (require r.binaries).map (·.contents)

/-- The first binary of a name. -/
def findBinary (r : Registry) (name : String) : Except Fault (Option RegisteredBinary) :=
  r.listBinaries.map fun binaries => binaries.find? (·.name == name)

/-- All scans in order, or those of one binary. -/
def listScans (r : Registry) (binary : Option String) : Except Fault (List ScanRun) :=
  (require r.scans).map fun t =>
    match binary with
    | some name => t.contents.filter (·.binary == name)
    | none => t.contents

/-- Name of a table. -/
inductive TableName where
  /-- The table of binaries. -/
  | binaries
  /-- The table of scans. -/
  | scans
  deriving DecidableEq, Repr

/-- Delete the row with a number and give the number of deleted rows. -/
def delete (r : Registry) (table : TableName) (number : Int) :
    Except Fault (Registry × Nat) :=
  match table with
  | .binaries => do
    let t ← require r.binaries
    let kept := t.delete number
    return ({ r with binaries := some kept }, t.rows.length - kept.rows.length)
  | .scans => do
    let t ← require r.scans
    let kept := t.delete number
    return ({ r with scans := some kept }, t.rows.length - kept.rows.length)

/-- Drop a table. -/
def drop (r : Registry) (table : TableName) : Except Fault Registry :=
  match table with
  | .binaries => (require r.binaries).map fun _ => { r with binaries := none }
  | .scans => (require r.scans).map fun _ => { r with scans := none }

end Registry

open Json

namespace RegisteredBinary

/-- Read a binary. -/
def ofValue? (v : Value) : Option RegisteredBinary := do
  let r ← Record.ofTree? ["name", "path", "arch", "hash"] v
  return {
    name := ← r.required "name" Tree.text?
    path := ← r.required "path" Tree.text?
    arch := ← r.nullable "arch" Tree.text?
    hash := ← r.nullable "hash" Tree.text? }

/-- Write a binary. -/
def toValue (b : RegisteredBinary) : Value :=
  ofMembers [
    member "name" (ofText b.name),
    member "path" (ofText b.path),
    member "arch" (ofOption ofText b.arch),
    member "hash" (ofOption ofText b.hash)]

end RegisteredBinary

namespace ScanRun

/-- Read a scan. -/
def ofValue? (v : Value) : Option ScanRun := do
  let r ← Record.ofTree? ["binary", "binary_hash", "signatures_total", "matched", "missing",
    "changes", "patterns", "scanned_at"] v
  return {
    binary := ← r.required "binary" Tree.text?
    binaryHash := ← r.required "binary_hash" Tree.text?
    total := ← r.required "signatures_total" signed64?
    matched := ← r.required "matched" signed64?
    missing := ← r.required "missing" signed64?
    changes := ← r.required "changes" signed64?
    patterns := ← r.required "patterns" signed64?
    scannedAt := ← r.required "scanned_at" Tree.text? }

/-- Write a scan. -/
def toValue (s : ScanRun) : Value :=
  ofMembers [
    member "binary" (ofText s.binary),
    member "binary_hash" (ofText s.binaryHash),
    member "signatures_total" (ofInt s.total),
    member "matched" (ofInt s.matched),
    member "missing" (ofInt s.missing),
    member "changes" (ofInt s.changes),
    member "patterns" (ofInt s.patterns),
    member "scanned_at" (ofText s.scannedAt)]

end ScanRun

namespace Registry

/-- Read a numbered row. -/
def rowOfValue? {α : Type} (row : Value → Option α) (v : Value) : Option (Nat × α) :=
  v.pair? Tree.count? row

/-- Read a table. -/
def tableOfValue? {α : Type} (row : Value → Option α) (v : Value) : Option (Table α) := do
  let r ← Record.ofTree? ["rows", "last"] v
  return {
    rows := ← r.required "rows" (Tree.list? (rowOfValue? row))
    last := ← r.required "last" Tree.count? }

/-- Write a table. -/
def tableToValue {α : Type} (row : α → Value) (t : Table α) : Value :=
  ofMembers [
    member "rows" (ofList (fun (n, a) => .list [ofNat n, row a]) t.rows),
    member "last" (ofNat t.last)]

/-- Read a registry. -/
def ofValue? (v : Value) : Option Registry := do
  let r ← Record.ofTree? ["version", "binaries", "scans"] v
  return {
    version := ← r.required "version" signed64?
    binaries := ← r.nullable "binaries" (tableOfValue? RegisteredBinary.ofValue?)
    scans := ← r.nullable "scans" (tableOfValue? ScanRun.ofValue?) }

/-- Write a registry. -/
def toValue (r : Registry) : Value :=
  ofMembers [
    member "version" (ofInt r.version),
    member "binaries" (ofOption (tableToValue RegisteredBinary.toValue) r.binaries),
    member "scans" (ofOption (tableToValue ScanRun.toValue) r.scans)]

end Registry

end LayoutWatch.Project
