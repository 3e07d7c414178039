import LayoutWatch.Files.Path
import LayoutWatch.Files.System

/-!
# A tree of files as a value

Files and folders are known by the names that lead to them from the root. Paths are followed
segment by segment through folders that are there, as a computer follows them.
-/

namespace LayoutWatch

/-- The names that lead from the root to a file or folder. -/
abbrev Location := List String

/-- A file or folder. -/
inductive FileNode where
  /-- A folder. -/
  | folder
  /-- A file of bytes. -/
  | file (bytes : Bytes)
  /-- A file that holds a registry. -/
  | registry (registry : Project.Registry)

/-- Files and folders by location. The root is a folder without being listed. -/
structure FileTree where
  /-- What is listed. -/
  nodes : List (Location × FileNode)

namespace FileTree

/-- Nothing but the root. -/
def empty : FileTree := ⟨[]⟩

/-- What stands at a location. -/
def node? (t : FileTree) (l : Location) : Option FileNode :=
  if l.isEmpty then some .folder else t.nodes.lookup l

/-- Put something at a location, in place of what stood there. -/
def put (t : FileTree) (l : Location) (n : FileNode) : FileTree :=
  if (t.nodes.lookup l).isSome then
    ⟨t.nodes.map fun entry => if entry.1 = l then (l, n) else entry⟩
  else ⟨t.nodes ++ [(l, n)]⟩

/-- Take away what stands at a location. -/
def remove (t : FileTree) (l : Location) : FileTree := ⟨t.nodes.filter (·.1 ≠ l)⟩

/-- The segments of a path that is seen from a folder, from the root on. -/
def segmentsFrom (folder path : String) : List String :=
  (Path.segments (Path.join folder path)).drop 1

/-- Follow segments through folders that are there. The last one need not lead to anything. -/
def follow (t : FileTree) (l : Location) : List String → Except FileFault Location
  | [] => .ok l
  | segment :: rest =>
    match t.node? l with
    | none => .error .notFound
    | some .folder =>
      if segment = "" ∨ segment = "." then t.follow l rest
      else if segment = ".." then t.follow l.dropLast rest
      else t.follow (l ++ [segment]) rest
    | some (.file _) | some (.registry _) => .error .notFolder

/-- The location that a path leads to, seen from a folder. An empty path leads nowhere. -/
def locate (t : FileTree) (folder path : String) : Except FileFault Location :=
  if path = "" then .error .notFound else t.follow [] (segmentsFrom folder path)

/-- What a path leads to. -/
def find (t : FileTree) (folder path : String) : Except FileFault (Location × FileNode) := do
  let l ← t.locate folder path
  match t.node? l with
  | some n => return (l, n)
  | none => throw .notFound

/-- The path from the root to a location. -/
def pathOf (l : Location) : String := "/" ++ "/".intercalate l

/-- What the file of a registry holds when it is read as bytes: neither a text nor an image. -/
def registryBytes : Bytes := #[0xFF]

/-- Contents of the file at a path. -/
def read (t : FileTree) (folder path : String) : Except FileFault Bytes := do
  match ← t.find folder path with
  | (_, .file bytes) => return bytes
  | (_, .registry _) => return registryBytes
  | (_, .folder) => throw .isFolder

/-- Where a file can be written. A path that ends in a slash can only be a folder. -/
def target (t : FileTree) (folder path : String) : Except FileFault Location := do
  let segments := segmentsFrom folder path
  if path ≠ "" ∧ segments.getLast? = some "" then
    let _ ← t.follow [] segments.dropLast
    throw .isFolder
  else
    let l ← t.locate folder path
    match t.node? l with
    | some .folder => throw .isFolder
    | _ => return l

/-- Replace the contents of the file at a path, or make a new one. -/
def write (t : FileTree) (folder path : String) (bytes : Bytes) : Except FileFault FileTree :=
  (t.target folder path).map fun l => t.put l (.file bytes)

/-- Follow segments, making folders where nothing stands. -/
def makeAlong (t : FileTree) (l : Location) : List String → FileTree × Except FileFault Unit
  | [] => (t, .ok ())
  | segment :: rest =>
    if segment = "" ∨ segment = "." then t.makeAlong l rest
    else if segment = ".." then t.makeAlong l.dropLast rest
    else
      match t.node? (l ++ [segment]) with
      | none => (t.put (l ++ [segment]) .folder).makeAlong (l ++ [segment]) rest
      | some .folder => t.makeAlong (l ++ [segment]) rest
      | some (.file _) | some (.registry _) =>
        (t, .error (if rest.all (· = "") then .exists else .notFolder))

/-- Make the folder at a path and those that it stands in. -/
def makeFolders (t : FileTree) (folder path : String) : FileTree × Except FileFault Unit :=
  if path = "" then (t, .ok ()) else t.makeAlong [] (segmentsFrom folder path)

/-- The name of a location directly inside a folder. -/
def childName? (parent l : Location) : Option String :=
  match l.getLast? with
  | some name => if l.dropLast = parent then some name else none
  | none => none

/-- Names in the folder at a path. -/
def names (t : FileTree) (folder path : String) : Except FileFault (List String) := do
  match ← t.find folder path with
  | (l, .folder) => return t.nodes.filterMap fun entry => childName? l entry.1
  | _ => throw .notFolder

/-- Segments with the steps up taken back, whether or not the steps down lead to anything. -/
def straighten (l : Location) : List String → Location
  | [] => l
  | segment :: rest =>
    if segment = "" ∨ segment = "." then straighten l rest
    else if segment = ".." then straighten l.dropLast rest
    else straighten (l ++ [segment]) rest

/-- Where the registry at a path is kept. -/
def registryLocation (t : FileTree) (folder path : String) : Option Location :=
  (t.follow [] (straighten [] (segmentsFrom folder path))).toOption

/-- The registry at a path. -/
def readRegistry (t : FileTree) (folder path : String) :
    Except Project.Registry.Fault Project.Registry :=
  match t.registryLocation folder path with
  | none => .error .unusable
  | some l =>
    match t.node? l with
    | none => .ok .fresh
    | some (.registry registry) => .ok registry
    | some (.file bytes) => if bytes.isEmpty then .ok .fresh else .error .unusable
    | some .folder => .error .unusable

/-- Replace the registry at a path. -/
def writeRegistry (t : FileTree) (folder path : String) (registry : Project.Registry) :
    Except Project.Registry.Fault FileTree :=
  match t.registryLocation folder path with
  | none => .error .unusable
  | some l => .ok (t.put l (.registry registry))

end FileTree

/-- A tree of files with a working folder and a clock that stands still. -/
structure FileWorld where
  /-- The files. -/
  tree : FileTree
  /-- The working folder, from the root on. -/
  workingFolder : String
  /-- The present time. -/
  now : String

namespace FileWorld

/-- Ask for something. -/
def ask {α : Type} (question : FileWorld → α) : StateM FileWorld α := fun w => (question w, w)

/-- Change the files, if that is possible. -/
def change {ε : Type} (action : FileWorld → Except ε FileTree) :
    StateM FileWorld (Except ε Unit) := fun w =>
  match action w with
  | .ok tree => (.ok (), { w with tree })
  | .error fault => (.error fault, w)

end FileWorld

instance : FileSystem (StateM FileWorld) where
  workingFolder := FileWorld.ask (·.workingFolder)
  now := FileWorld.ask (·.now)
  canonical? path := FileWorld.ask fun w =>
    (w.tree.find w.workingFolder path).toOption.map fun (l, _) => FileTree.pathOf l
  kind? path := FileWorld.ask fun w =>
    (w.tree.find w.workingFolder path).toOption.map fun
      | (_, .folder) => .folder
      | (_, .file _) => .file
      | (_, .registry _) => .file
  read path := FileWorld.ask fun w => w.tree.read w.workingFolder path
  write path bytes := FileWorld.change fun w => w.tree.write w.workingFolder path bytes
  makeFolders path := fun w =>
    let (tree, result) := w.tree.makeFolders w.workingFolder path
    (result, { w with tree })
  names path := FileWorld.ask fun w => w.tree.names w.workingFolder path
  readRegistry path := FileWorld.ask fun w => w.tree.readRegistry w.workingFolder path
  writeRegistry path registry :=
    FileWorld.change fun w => w.tree.writeRegistry w.workingFolder path registry

end LayoutWatch
