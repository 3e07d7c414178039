import LayoutWatch.Files.Tree
import LayoutWatch.Proofs.Files.Path
import LayoutWatch.Proofs.Outcome
import Mathlib.Data.List.Nodup

/-!
# Folders of a tree of files

What stands at a location after something was put somewhere, and which names are listed in a folder
then. A path that leads to a folder goes on doing so as long as no folder is replaced, and what is
read, written or listed there is what stands at the locations behind that of the folder.
-/

namespace LayoutWatch.FileTree

open LayoutWatch.Path

variable {t t' : FileTree} {l l' : Location}

/-! ## Locations -/

/-- Below the root, what stands at a location is what is listed for it. -/
theorem node?_eq_lookup (h : l ≠ []) : t.node? l = t.nodes.lookup l := by
  rw [node?, if_neg (by simpa using h)]

/-- The root is a folder. -/
@[simp] theorem node?_root (t : FileTree) : t.node? [] = some .folder := rfl

/-- Entries whose values under a key are replaced. -/
theorem lookup_map_replace (entries : List (Location × FileNode)) (l : Location) (n : FileNode)
    (l' : Location) :
    (entries.map fun entry => if entry.1 = l then (l, n) else entry).lookup l' =
      if l' = l then (entries.lookup l).map fun _ => n else entries.lookup l' := by
  induction entries with
  | nil => simp
  | cons entry entries ih =>
    obtain ⟨key, value⟩ := entry
    rw [List.map_cons, List.lookup_cons, List.lookup_cons, List.lookup_cons]
    by_cases hkey : key = l
    · subst hkey
      by_cases hl : l' = key
      · simp [hl]
      · simpa [hl, beq_eq_false_iff_ne.mpr hl] using ih
    · rw [if_neg hkey, beq_eq_false_iff_ne.mpr (Ne.symm hkey)]
      by_cases hl : l' = key
      · simp [hl, hkey]
      · rw [beq_eq_false_iff_ne.mpr hl]
        exact ih

/-- What was put at a location stands there, and all else stays. -/
theorem node?_put (h : l ≠ []) (n : FileNode) (l' : Location) :
    (t.put l n).node? l' = if l' = l then some n else t.node? l' := by
  by_cases hroot : l' = []
  · subst hroot
    rw [node?_root, node?_root, if_neg (Ne.symm h)]
  rw [node?_eq_lookup hroot, node?_eq_lookup hroot, put]
  split
  · next hlisted =>
    obtain ⟨old, hold⟩ := Option.isSome_iff_exists.mp hlisted
    rw [lookup_map_replace, hold, Option.map_some]
  · next hfree =>
    rw [List.lookup_append, List.lookup_cons]
    by_cases hl : l' = l
    · subst hl
      rw [Option.not_isSome_iff_eq_none.mp hfree]
      simp
    · simp [hl, beq_eq_false_iff_ne.mpr hl]

/-- What is put at a location takes the place of what was put there. -/
@[simp] theorem put_put (t : FileTree) (l : Location) (first second : FileNode) :
    (t.put l first).put l second = t.put l second := by
  have hlisted : ((t.put l first).nodes.lookup l).isSome := by
    rw [put]
    split
    · next hold =>
      rw [lookup_map_replace, if_pos rfl]
      simpa using hold
    · rw [List.lookup_append]
      simp
  rw [put, if_pos hlisted, put, put]
  split
  · rw [List.map_map]
    refine congrArg FileTree.mk (List.map_congr_left fun entry _ => ?_)
    by_cases hentry : entry.1 = l <;> simp [hentry]
  · next hfree =>
    have hsame : t.nodes.map (fun entry => if entry.1 = l then (l, second) else entry) =
        t.nodes := by
      have hnone := List.lookup_eq_none_iff.mp (Option.not_isSome_iff_eq_none.mp hfree)
      refine (List.map_congr_left fun entry hentry => ?_).trans (List.map_id _)
      rw [if_neg fun hkey => absurd (hnone entry hentry) (by simp [hkey]), id]
    rw [List.map_append, hsame]
    simp

/-! ## Names in a folder -/

/-- The names of what is listed directly inside a location. -/
def childNames (t : FileTree) (l : Location) : List String :=
  t.nodes.filterMap fun entry => childName? l entry.1

/-- A location stands directly inside another one under its last name. -/
@[simp] theorem childName?_eq_some_iff {name : String} :
    childName? l l' = some name ↔ l' = l ++ [name] := by
  rw [childName?]
  constructor
  · intro h
    split at h
    · next last hlast =>
      split at h
      · next hfront =>
        obtain rfl : last = name := Option.some.inj h
        obtain ⟨front, rfl⟩ := List.getLast?_eq_some_iff.mp hlast
        rw [List.dropLast_concat] at hfront
        rw [hfront]
      · cases h
    · cases h
  · rintro rfl
    rw [List.getLast?_concat]
    dsimp only
    rw [List.dropLast_concat, if_pos rfl]

/-- What is listed for a location is what stands there. -/
theorem exists_mem_nodes_iff :
    (∃ entry ∈ t.nodes, entry.1 = l) ↔ (t.nodes.lookup l).isSome := by
  rw [← not_iff_not, Option.not_isSome_iff_eq_none, List.lookup_eq_none_iff]
  simp only [not_exists, not_and, bne_iff_ne]
  exact forall₂_congr fun _ _ => ne_comm

/-- The names are those of what stands directly inside. -/
@[simp] theorem mem_childNames {name : String} :
    name ∈ t.childNames l ↔ (t.node? (l ++ [name])).isSome := by
  rw [childNames, List.mem_filterMap, node?_eq_lookup (by simp), ← exists_mem_nodes_iff]
  simp only [childName?_eq_some_iff]

/-- No name is listed twice after something was put somewhere. -/
theorem nodup_childNames_put (h : (t.childNames l).Nodup) (l' : Location) (n : FileNode) :
    ((t.put l' n).childNames l).Nodup := by
  rw [put]
  split
  · have hsame : (⟨t.nodes.map fun entry => if entry.1 = l' then (l', n) else entry⟩ :
        FileTree).childNames l = t.childNames l := by
      rw [childNames, childNames, List.filterMap_map]
      refine List.filterMap_congr fun entry _ => ?_
      rw [Function.comp_apply]
      split
      · next hkey => exact congrArg _ hkey.symm
      · rfl
    rwa [hsame]
  · next hfree =>
    have hnames : (⟨t.nodes ++ [(l', n)]⟩ : FileTree).childNames l =
        t.childNames l ++ (childName? l l').toList := by
      rw [childNames, List.filterMap_append]
      cases hname : childName? l l' <;> simp [childNames, hname]
    rw [hnames]
    cases hname : childName? l l' with
    | none => simpa using h
    | some name =>
      obtain rfl := childName?_eq_some_iff.mp hname
      have hnew : name ∉ t.childNames l := by
        rwa [mem_childNames, node?_eq_lookup (by simp)]
      rw [Option.toList_some, ← List.concat_eq_append]
      exact List.Nodup.concat hnew h

/-! ## Paths -/

/-- Where a segment leads from a folder. -/
def advance (l : Location) (segment : String) : Location :=
  if segment = "" ∨ segment = "." then l
  else if segment = ".." then l.dropLast
  else l ++ [segment]

/-- A name leads into the folder. -/
theorem advance_name {name : String} (h : IsFileName name) : advance l name = l ++ [name] := by
  rw [advance, if_neg (not_or.mpr ⟨h.ne_empty, h.ne_here⟩), if_neg h.ne_up]

/-- A segment is followed from a folder. -/
theorem follow_cons (h : t.node? l = some .folder) (segment : String) (rest : List String) :
    t.follow l (segment :: rest) = t.follow (advance l segment) rest := by
  rw [follow, h, advance]
  dsimp only
  split
  · rfl
  · split <;> rfl

/-- A segment is followed from nothing but a folder. -/
theorem isFolder_of_follow_cons {segment : String} {rest : List String}
    (h : t.follow l (segment :: rest) = .ok l') : t.node? l = some .folder := by
  rw [follow] at h
  split at h
  · cases h
  · assumption
  · cases h
  · cases h

/-- What leads to a folder begins at one. -/
theorem isFolder_of_follow {segments : List String} (h : t.follow l segments = .ok l')
    (hfolder : t.node? l' = some .folder) : t.node? l = some .folder := by
  cases segments with
  | nil =>
    cases h
    exact hfolder
  | cons segment rest => exact isFolder_of_follow_cons h

/-- Segments are followed one after the other. -/
theorem follow_append {front : List String} (h : t.follow l front = .ok l')
    (rest : List String) : t.follow l (front ++ rest) = t.follow l' rest := by
  induction front generalizing l with
  | nil =>
    cases h
    rfl
  | cons segment front ih =>
    have hfolder := isFolder_of_follow_cons h
    rw [follow_cons hfolder] at h
    rw [List.cons_append, follow_cons hfolder, ih h]

/-- Segments that are followed to the end are followed to every place between. -/
theorem exists_follow_of_append {front rest : List String}
    (h : t.follow l (front ++ rest) = .ok l') : ∃ between, t.follow l front = .ok between := by
  induction front generalizing l with
  | nil => exact ⟨l, rfl⟩
  | cons segment front ih =>
    have hfolder := isFolder_of_follow_cons h
    rw [List.cons_append, follow_cons hfolder] at h
    rw [follow_cons hfolder]
    exact ih h

/-- Segments lead to where they led before, as long as folders stay. -/
theorem follow_mono (hstay : ∀ p, t.node? p = some .folder → t'.node? p = some .folder)
    {segments : List String} (h : t.follow l segments = .ok l') :
    t'.follow l segments = .ok l' := by
  induction segments generalizing l with
  | nil => exact h
  | cons segment rest ih =>
    have hfolder := isFolder_of_follow_cons h
    rw [follow_cons hfolder] at h
    rw [follow_cons (hstay l hfolder), ih h]

/-- A segment that leads to a folder makes nothing. -/
theorem makeAlong_cons {segment : String} (h : t.node? (advance l segment) = some .folder)
    (rest : List String) :
    t.makeAlong l (segment :: rest) = t.makeAlong (advance l segment) rest := by
  rw [makeAlong]
  rw [advance] at h ⊢
  split
  · rfl
  · next hhere =>
    rw [if_neg hhere] at h
    split
    · rfl
    · next hup =>
      rw [if_neg hup] at h
      rw [h]

/-- Segments that lead to a folder make nothing. -/
theorem makeAlong_append {front : List String} (h : t.follow l front = .ok l')
    (hfolder : t.node? l' = some .folder) (rest : List String) :
    t.makeAlong l (front ++ rest) = t.makeAlong l' rest := by
  induction front generalizing l with
  | nil =>
    cases h
    rfl
  | cons segment front ih =>
    rw [follow_cons (isFolder_of_follow_cons h)] at h
    rw [List.cons_append, makeAlong_cons (isFolder_of_follow h hfolder), ih h]

/-- The segments of a joined name are those of the path with the name behind them. -/
theorem segmentsFrom_join {folder base name : String} (hfolder : folder ≠ "")
    (hname : IsName name) :
    segmentsFrom folder (join base name) = closed (segmentsFrom folder base) ++ [name] := by
  have hrelative := isAbsolute_name hname
  have hjoin : segments (join base name) = closed (segments base) ++ [name] := by
    rw [segments_join hrelative, segments_name hname]
  by_cases hroot : isAbsolute base = true
  · obtain ⟨rest, hrest, hbase⟩ := exists_segments_of_isAbsolute hroot
    have hkeep : ∀ path, isAbsolute path = true → join folder path = path :=
      fun path hpath => by rw [join, if_pos hpath]
    have hclosed : closed ("" :: rest) = "" :: closed rest := closed_append [""] hrest
    rw [segmentsFrom, segmentsFrom, hkeep _ ((isAbsolute_join hrelative).trans hroot),
      hkeep _ hroot, hjoin, hbase, hclosed]
    rfl
  · have hbase : isAbsolute base = false := Bool.not_eq_true _ ▸ hroot
    cases hfront : closed (segments folder) with
    | nil => exact absurd hfront (closed_segments_ne_nil hfolder)
    | cons first front =>
      rw [segmentsFrom, segmentsFrom, segments_join ((isAbsolute_join hrelative).trans hbase),
        segments_join hbase, hjoin, hfront]
      have hclosed := closed_append front (segments_ne_nil base)
      simp only [List.cons_append, List.drop_succ_cons, List.drop_zero, hclosed,
        List.append_assoc]

/-- What is found at a path is what stands at its location. -/
theorem find_eq {folder path : String} (h : t.locate folder path = .ok l) :
    t.find folder path = ((t.node? l).map (l, ·)).elim (.error .notFound) .ok := by
  rw [find, h, ok_bind]
  cases t.node? l <;> rfl

/-- What is read where a file or folder stands. -/
def contents : FileNode → Except FileFault Bytes
  | .file bytes => .ok bytes
  | .registry _ => .ok registryBytes
  | .folder => .error .isFolder

/-- What is read at a path is what stands at its location. -/
theorem read_eq {folder path : String} {n : FileNode} (h : t.locate folder path = .ok l)
    (hn : t.node? l = some n) : t.read folder path = contents n := by
  rw [read, find_eq h, hn]
  cases n <;> rfl

/-- A path leads to a folder, whether or not it ends in a slash. -/
structure Reaches (t : FileTree) (folder path : String) (l : Location) : Prop where
  /-- Its segments lead there. -/
  follow_eq : t.follow [] (closed (segmentsFrom folder path)) = .ok l
  /-- A folder is there. -/
  isFolder : t.node? l = some .folder

section Reaching

variable {folder base name : String}

/-- A path goes on leading to a folder as long as folders stay. -/
theorem Reaches.mono (h : t.Reaches folder base l)
    (hstay : ∀ p, t.node? p = some .folder → t'.node? p = some .folder) :
    t'.Reaches folder base l :=
  ⟨follow_mono hstay h.follow_eq, hstay l h.isFolder⟩

/-- A joined name is no empty path. -/
theorem join_ne_empty (base : String) (hname : IsFileName name) : join base name ≠ "" := by
  have hne : name.toList ≠ [] := fun hnil => hname.ne_empty (String.toList_eq_nil_iff.mp hnil)
  have hne' : ∀ front : String, front ++ name ≠ "" := by
    intro front hempty
    have htext := congrArg String.toList hempty
    rw [String.toList_append] at htext
    exact hne (List.append_eq_nil_iff.mp htext).2
  rw [join, isAbsolute_name hname.isName, if_neg Bool.false_ne_true]
  split
  · exact hne' base
  · exact hne' (base ++ "/")

section Joined

variable (hfolder : folder ≠ "") (hname : IsFileName name)

include hfolder hname

/-- A name in a folder leads to a location in the folder. -/
theorem Reaches.locate_join (h : t.Reaches folder base l) :
    t.locate folder (join base name) = .ok (l ++ [name]) := by
  rw [locate, if_neg (join_ne_empty base hname), segmentsFrom_join hfolder hname.isName,
    follow_append h.follow_eq, follow_cons h.isFolder, advance_name hname]
  rfl

/-- Where a name in a folder leads somewhere, the folder is there. -/
theorem reaches_of_locate_join (h : t.locate folder (join base name) = .ok l') :
    ∃ l, t.Reaches folder base l ∧ l' = l ++ [name] := by
  rw [locate, if_neg (join_ne_empty base hname), segmentsFrom_join hfolder hname.isName] at h
  obtain ⟨l, hfront⟩ := exists_follow_of_append h
  rw [follow_append hfront] at h
  have hl := isFolder_of_follow_cons h
  rw [follow_cons hl, advance_name hname] at h
  cases h
  exact ⟨l, ⟨hfront, hl⟩, rfl⟩

/-- A folder in a folder is reached by its name. -/
theorem Reaches.join (h : t.Reaches folder base l)
    (hchild : t.node? (l ++ [name]) = some .folder) :
    t.Reaches folder (Path.join base name) (l ++ [name]) := by
  refine ⟨?_, hchild⟩
  rw [segmentsFrom_join hfolder hname.isName, closed_append_name _ hname.ne_empty,
    follow_append h.follow_eq, follow_cons h.isFolder, advance_name hname]
  rfl

/-- Only a path that leads to a folder goes on to a name in it. -/
theorem reaches_of_reaches_join (h : t.Reaches folder (Path.join base name) l') :
    ∃ l, t.Reaches folder base l ∧ l' = l ++ [name] := by
  have hfollow := h.follow_eq
  rw [segmentsFrom_join hfolder hname.isName, closed_append_name _ hname.ne_empty] at hfollow
  refine reaches_of_locate_join hfolder hname ?_
  rw [locate, if_neg (join_ne_empty base hname), segmentsFrom_join hfolder hname.isName, hfollow]

/-- A folder in a folder is made where nothing stands, and left as it is where it stands. -/
theorem Reaches.makeFolders_join (h : t.Reaches folder base l)
    (hmade : t.makeFolders folder (Path.join base name) = (t', .ok ())) :
    (t.node? (l ++ [name]) = some .folder ∧ t' = t) ∨
      (t.node? (l ++ [name]) = none ∧ t' = t.put (l ++ [name]) .folder) := by
  rw [makeFolders, if_neg (join_ne_empty base hname), segmentsFrom_join hfolder hname.isName,
    makeAlong_append h.follow_eq h.isFolder, makeAlong,
    if_neg (not_or.mpr ⟨hname.ne_empty, hname.ne_here⟩), if_neg hname.ne_up] at hmade
  split at hmade
  · next hfree =>
    cases hmade
    exact .inr ⟨hfree, rfl⟩
  · next hthere =>
    cases hmade
    exact .inl ⟨hthere, rfl⟩
  · cases hmade
  · cases hmade

/-- A file in a folder is written unless a folder stands there. -/
theorem Reaches.write_join (h : t.Reaches folder base l) {bytes : Bytes}
    (hwritten : t.write folder (Path.join base name) bytes = .ok t') :
    t.node? (l ++ [name]) ≠ some .folder ∧ t' = t.put (l ++ [name]) (.file bytes) := by
  have hlast : ¬(Path.join base name ≠ "" ∧
      (segmentsFrom folder (Path.join base name)).getLast? = some "") := by
    rw [segmentsFrom_join hfolder hname.isName, List.getLast?_concat, Option.some.injEq, not_and]
    exact fun _ => hname.ne_empty
  have hlocate := h.locate_join hfolder hname
  rw [write, target, if_neg hlast, hlocate, ok_bind] at hwritten
  split at hwritten
  · cases hwritten
  · next hfree =>
    cases hwritten
    exact ⟨hfree, rfl⟩

end Joined

end Reaching

/-! ## Registries -/

/-- Segments that are followed to the end lead where they advance to. -/
theorem eq_foldl_of_follow {segments : List String} (h : t.follow l segments = .ok l') :
    l' = segments.foldl advance l := by
  induction segments generalizing l with
  | nil =>
    cases h
    rfl
  | cons segment rest ih =>
    rw [follow_cons (isFolder_of_follow_cons h)] at h
    exact ih h

/-- Segments are straightened by advancing along them. -/
theorem straighten_eq_foldl (l : Location) (segments : List String) :
    straighten l segments = segments.foldl advance l := by
  induction segments generalizing l with
  | nil => rfl
  | cons segment rest ih =>
    rw [List.foldl_cons, ← ih, straighten, advance]
    split
    · rfl
    · split <;> rfl

/-- Advancing along names leads through names of files and folders. -/
theorem isFileName_of_mem_foldl {segments : List String} (hsegments : ∀ s ∈ segments, IsName s)
    (hl : ∀ s ∈ l, IsFileName s) : ∀ s ∈ segments.foldl advance l, IsFileName s := by
  induction segments generalizing l with
  | nil => exact hl
  | cons segment rest ih =>
    obtain ⟨hsegment, hrest⟩ := List.forall_mem_cons.mp hsegments
    refine ih hrest fun s hs => ?_
    rw [advance] at hs
    split at hs
    · exact hl s hs
    · next hhere =>
      split at hs
      · exact hl s (List.dropLast_subset l hs)
      · next hup =>
        rcases List.mem_append.mp hs with hs | hs
        · exact hl s hs
        · obtain rfl := List.mem_singleton.mp hs
          exact ⟨hsegment, fun h => hhere (.inl h), fun h => hhere (.inr h), hup⟩

/-- The straightened segments of a path lead to where a registry is kept. -/
theorem follow_of_registryLocation {folder path : String}
    (h : t.registryLocation folder path = some l) :
    t.follow [] (straighten [] (segmentsFrom folder path)) = .ok l := by
  rw [registryLocation] at h
  cases hresult : t.follow [] (straighten [] (segmentsFrom folder path)) with
  | error fault =>
    rw [hresult] at h
    cases h
  | ok place =>
    rw [hresult] at h
    cases h
    rfl

/-- Names are followed through names of files and folders. -/
theorem isFileName_of_follow {segments : List String} (hsegments : ∀ s ∈ segments, IsName s)
    (h : t.follow [] segments = .ok l) : ∀ s ∈ l, IsFileName s := by
  rw [eq_foldl_of_follow h]
  exact isFileName_of_mem_foldl hsegments fun _ hs => absurd hs List.not_mem_nil

/-- The segments of a path are names. -/
theorem isName_of_mem_segmentsFrom (folder path : String) :
    ∀ segment ∈ segmentsFrom folder path, IsName segment :=
  fun _ hsegment => isName_of_mem_segments (List.mem_of_mem_drop hsegment)

/-- A registry is kept under names of files and folders. -/
theorem isFileName_of_registryLocation {folder path : String}
    (h : t.registryLocation folder path = some l) : ∀ s ∈ l, IsFileName s := by
  have hstraight : ∀ s ∈ straighten [] (segmentsFrom folder path), IsFileName s := by
    rw [straighten_eq_foldl]
    exact isFileName_of_mem_foldl (isName_of_mem_segmentsFrom folder path)
      fun _ hs => absurd hs List.not_mem_nil
  exact isFileName_of_follow (fun s hs => (hstraight s hs).isName) (follow_of_registryLocation h)

end LayoutWatch.FileTree
