import LayoutWatch.Proofs.Files.RelativePath
import LayoutWatch.Proofs.Files.Tree

/-!
# Locations and the paths that spell them

Many paths lead to one location, and one of them is made of its names alone. Whatever path leads to
a folder, this one leads there as well, and the registry of a project is kept at one location for
all spellings of the root.
-/

namespace LayoutWatch.FileTree

open LayoutWatch.Path

variable {t : FileTree} {l l' : Location} {folder path : String}

/-- Names are advanced along one by one. -/
theorem foldl_advance_names {names : List String} (h : ∀ name ∈ names, IsFileName name)
    (l : Location) : names.foldl advance l = l ++ names := by
  induction names generalizing l with
  | nil => exact (List.append_nil l).symm
  | cons name names ih =>
    obtain ⟨hname, hnames⟩ := List.forall_mem_cons.mp h
    rw [List.foldl_cons, advance_name hname, ih hnames, List.append_assoc]
    rfl

/-- A location that its names lead to can be left for the folder around it. -/
theorem follow_dropLast (hnames : ∀ name ∈ l, IsFileName name) (h : t.follow [] l = .ok l) :
    t.follow [] l.dropLast = .ok l.dropLast := by
  rcases List.eq_nil_or_concat' l with rfl | ⟨front, last, rfl⟩
  · exact h
  · obtain ⟨between, hfront⟩ := exists_follow_of_append h
    have hbetween := eq_foldl_of_follow hfront
    have hfile : ∀ name ∈ front, IsFileName name :=
      fun name hname => hnames name (List.mem_append_left _ hname)
    rw [foldl_advance_names hfile] at hbetween
    rw [List.dropLast_concat, hfront, hbetween, List.nil_append]

/-- Where segments lead, the names of the location lead too. -/
theorem follow_names {segments : List String} (hsegments : ∀ s ∈ segments, IsName s)
    (hnames : ∀ name ∈ l, IsFileName name) (hl : t.follow [] l = .ok l)
    (h : t.follow l segments = .ok l') : t.follow [] l' = .ok l' := by
  induction segments generalizing l with
  | nil =>
    cases h
    exact hl
  | cons segment rest ih =>
    have hfolder := isFolder_of_follow_cons h
    obtain ⟨hsegment, hrest⟩ := List.forall_mem_cons.mp hsegments
    rw [follow_cons hfolder] at h
    have honly : ∀ s ∈ [segment], IsName s := by simpa using hsegment
    have hadvance : ∀ name ∈ advance l segment, IsFileName name :=
      isFileName_of_mem_foldl honly hnames
    refine ih hrest hadvance ?_ h
    rw [advance]
    split
    · exact hl
    · next hhere =>
      split
      · exact follow_dropLast hnames hl
      · next hup =>
        have hname : IsFileName segment :=
          ⟨hsegment, fun h => hhere (.inl h), fun h => hhere (.inr h), hup⟩
        rw [follow_append hl, follow_cons hfolder, advance_name hname]
        rfl

/-- The segments of the path of a location are its names. -/
theorem closed_segmentsFrom_pathOf (hnames : ∀ name ∈ l, IsFileName name) (folder : String) :
    closed (segmentsFrom folder (pathOf l)) = l := by
  have htext : (pathOf l).toList = [] ++ '/' :: ("/".intercalate l).toList := by
    rw [pathOf, String.toList_append]
    rfl
  have hroot : isAbsolute (pathOf l) = true := by
    rw [isAbsolute, htext]
    rfl
  have hsegments : segmentsFrom folder (pathOf l) = segments ("/".intercalate l) := by
    rw [segmentsFrom, join, if_pos hroot, segments_slash htext, String.ofList_toList]
    rfl
  rw [hsegments]
  cases l with
  | nil => decide
  | cons first rest =>
    have hparts : segments ("/".intercalate (first :: rest)) = first :: rest := by
      have hslash : "/".toList = ['/'] := rfl
      have hno : ∀ part ∈ (first :: rest).map String.toList, '/' ∉ part := by
        intro part hpart
        obtain ⟨name, hname, rfl⟩ := List.mem_map.mp hpart
        exact (hnames name hname).isName
      rw [segments, String.toList_intercalate, hslash, splitSlashes_eq_splitOn,
        List.splitOn_intercalate '/' hno (by simp), List.map_map]
      simp [Function.comp_def]
    rw [hparts]
    obtain ⟨front, last, hlast⟩ := (List.eq_nil_or_concat' (first :: rest)).resolve_left (by simp)
    rw [hlast, closed_append_name]
    exact (hnames last (by simp [hlast])).ne_empty

/-- The segments that lead to a folder are names. -/
theorem isName_of_mem_closed (folder path : String) :
    ∀ segment ∈ closed (segmentsFrom folder path), IsName segment := by
  intro segment hsegment
  refine isName_of_mem_segmentsFrom folder path segment ?_
  rw [closed] at hsegment
  split at hsegment
  · exact List.dropLast_subset _ hsegment
  · exact hsegment

/-- A path that leads to a folder leads through names to its location. -/
theorem Reaches.isFileName (h : t.Reaches folder path l) : ∀ name ∈ l, IsFileName name :=
  isFileName_of_follow (isName_of_mem_closed folder path) h.follow_eq

/-- The path of a folder leads to it. -/
theorem Reaches.pathOf (h : t.Reaches folder path l) : t.Reaches folder (pathOf l) l := by
  refine ⟨?_, h.isFolder⟩
  rw [closed_segmentsFrom_pathOf h.isFileName]
  exact follow_names (isName_of_mem_closed folder path) (fun _ hs => absurd hs List.not_mem_nil)
    rfl h.follow_eq

/-- The path of a location leads to no other folder. -/
theorem Reaches.eq_of_pathOf (hnames : ∀ name ∈ l, IsFileName name)
    (h : t.Reaches folder (FileTree.pathOf l) l') : l' = l := by
  have hl := eq_foldl_of_follow h.follow_eq
  rwa [closed_segmentsFrom_pathOf hnames, foldl_advance_names hnames] at hl

/-- A path that leads to a folder leads to its location. -/
theorem Reaches.locate_eq (h : t.Reaches folder path l) (hpath : path ≠ "") :
    t.locate folder path = .ok l := by
  have hfollow := h.follow_eq
  rw [locate, if_neg hpath]
  rw [closed] at hfollow
  split at hfollow
  · next hlast =>
    obtain ⟨front, hfront⟩ := List.getLast?_eq_some_iff.mp hlast
    rw [hfront, List.dropLast_concat] at hfollow
    rw [hfront, follow_append hfollow, follow_cons h.isFolder]
    rfl
  · exact hfollow

/-- What is found at a path stands at its location. -/
theorem locate_of_find {n : FileNode} (h : t.find folder path = .ok (l, n)) :
    t.locate folder path = .ok l := by
  rw [find] at h
  cases hlocate : t.locate folder path with
  | error fault =>
    rw [hlocate] at h
    cases h
  | ok place =>
    rw [hlocate, ok_bind] at h
    split at h
    · cases h
      rfl
    · cases h

/-- A path leads through names of files and folders. -/
theorem isFileName_of_locate (h : t.locate folder path = .ok l) : ∀ name ∈ l, IsFileName name := by
  rw [locate] at h
  split at h
  · cases h
  · exact isFileName_of_follow (isName_of_mem_segmentsFrom folder path) h

/-- From a folder that is known from the root on, a path leads to the same place when it is joined
to the folder. -/
theorem segmentsFrom_join_self (hfolder : isAbsolute folder = true) (path : String) :
    segmentsFrom folder (join folder path) = segmentsFrom folder path := by
  have hjoin : isAbsolute (join folder path) = true := by
    cases hpath : isAbsolute path with
    | true => rw [join, if_pos hpath, hpath]
    | false => rw [isAbsolute_join hpath, hfolder]
  rw [segmentsFrom, join, if_pos hjoin, segmentsFrom]

/-- A registry in a folder of a folder is kept at one location, by whatever path the outer folder is
reached. -/
theorem Reaches.registryLocation_join_join {base inner name : String} (hfolder : folder ≠ "")
    (hinner : IsFileName inner) (hname : IsFileName name) (h : t.Reaches folder base l) :
    t.registryLocation folder (Path.join (Path.join base inner) name) =
      (t.follow [] (l ++ [inner] ++ [name])).toOption := by
  rw [registryLocation, segmentsFrom_join hfolder hname.isName,
    segmentsFrom_join hfolder hinner.isName, closed_append_name _ hinner.ne_empty,
    straighten_eq_foldl, List.foldl_append, List.foldl_append, ← eq_foldl_of_follow h.follow_eq]
  simp only [List.foldl_cons, List.foldl_nil, advance_name hinner, advance_name hname]

end LayoutWatch.FileTree
