import LayoutWatch.Proofs.Files.Path

/-!
# Paths as they are seen from a folder

Joining works on texts, and taking a path apart works on steps. A path whose segments all lead
somewhere is given back when it is joined to a folder and then seen from that folder, however the
folder is spelled. So the registry of a project has one name in all settings, and this name leads
from the root of the project to the registry.
-/

namespace LayoutWatch.Path

/-! ## Joining -/

/-- A slash is put between a file name and what is joined to a path that ends in it. -/
theorem join_append_name {inner name : String} (hinner : IsFileName inner) (hname : IsName name)
    (front : String) : join (front ++ inner) name = front ++ inner ++ "/" ++ name := by
  have hne : inner.toList ≠ [] := fun hnil => hinner.ne_empty (String.toList_eq_nil_iff.mp hnil)
  have hlast : (front ++ inner).toList.getLast? ≠ some '/' := by
    rw [String.toList_append, List.getLast?_append, List.getLast?_eq_some_getLast hne]
    intro hslash
    exact hinner.isName (Option.some.inj hslash ▸ List.getLast_mem hne)
  have hsome : (front ++ inner).isEmpty = false := by
    rw [← Bool.not_eq_true, String.isEmpty_iff, ← String.toList_eq_nil_iff, String.toList_append]
    exact fun hnil => hne (List.append_eq_nil_iff.mp hnil).2
  rw [join, isAbsolute_name hname, if_neg Bool.false_ne_true, hsome, Bool.false_or,
    if_neg (by simpa using hlast)]

/-- A name in a folder of a folder is a longer path in the outer one. -/
theorem join_join {inner name : String} (hinner : IsFileName inner) (hname : IsName name)
    (base : String) : join (join base inner) name = join base (inner ++ "/" ++ name) := by
  have hrelative : isAbsolute (inner ++ "/" ++ name) = false := by
    rw [String.append_assoc, isAbsolute_append hinner.ne_empty, isAbsolute_name hinner.isName]
  rw [join.eq_def base inner, join.eq_def base (inner ++ "/" ++ name), hrelative,
    isAbsolute_name hinner.isName, if_neg Bool.false_ne_true, if_neg Bool.false_ne_true]
  split
  · rw [join_append_name hinner hname]
    simp only [String.append_assoc]
  · rw [join_append_name hinner hname]
    simp only [String.append_assoc]

/-! ## Segments -/

/-- The parts of a text are what a list of characters is split into at slashes. -/
theorem splitSlashes_eq_splitOn (text : List Char) : splitSlashes text = text.splitOn '/' := by
  induction text with
  | nil => rfl
  | cons c text ih =>
    rw [List.splitOn] at ih ⊢
    rw [List.splitOnP_cons_eq_if_modifyHead, ← ih]
    by_cases hc : c = '/'
    · subst hc
      rfl
    · obtain ⟨part, parts, htext, hcons⟩ := splitSlashes_cons hc text
      rw [hcons, htext, if_neg (by simpa using hc), List.modifyHead_cons]

/-- A path is made of its segments with slashes between them. -/
@[simp] theorem intercalate_segments (path : String) : "/".intercalate (segments path) = path := by
  have hparts : (segments path).map String.toList = splitSlashes path.toList := by
    simp [segments, Function.comp_def]
  have hslash : "/".toList = ['/'] := rfl
  rw [← String.toList_inj, String.toList_intercalate, hparts, splitSlashes_eq_splitOn, hslash,
    List.intercalate_splitOn]

/-- Only an empty segment at the end is left out of a path that something is joined to. -/
theorem segments_eq_closed_append (path : String) :
    ∃ gap, segments path = closed (segments path) ++ gap ∧ ∀ segment ∈ gap, segment = "" := by
  rw [closed]
  split
  · next hlast =>
    obtain ⟨front, hfront⟩ := List.getLast?_eq_some_iff.mp hlast
    refine ⟨[""], ?_, fun segment hsegment => List.mem_singleton.mp hsegment⟩
    rw [hfront, List.dropLast_concat]
  · exact ⟨[], (List.append_nil _).symm, fun segment hsegment => absurd hsegment List.not_mem_nil⟩

/-! ## Steps -/

/-- Segments behind the first one, with their steps. -/
def behindFirst (segments : List String) : List Marked := segments.map fun s => (s, step? s)

/-- The step of the first segment of a path. -/
def firstStep? (path first : String) : Option Step :=
  if isAbsolute path then some .root else if first = "." then some .here else step? first

/-- The segments of a path are marked with their steps. -/
theorem marked_eq {path first : String} {rest : List String} (h : segments path = first :: rest) :
    marked path = (first, firstStep? path first) :: behindFirst rest := by
  rw [marked, h]
  rfl

/-- Every segment of the path leads somewhere, and not to where one is already. -/
def AlwaysLeads (path : String) : Prop := ∀ segment ∈ segments path, (step? segment).isSome

instance (path : String) : Decidable (AlwaysLeads path) :=
  inferInstanceAs (Decidable (∀ segment ∈ segments path, (step? segment).isSome))

variable {base path : String}

/-- A path whose segments all lead somewhere does not begin at the root. -/
theorem AlwaysLeads.isAbsolute_eq (h : AlwaysLeads path) : isAbsolute path = false := by
  refine Bool.eq_false_iff.mpr fun habsolute => ?_
  obtain ⟨rest, -, hsegments⟩ := exists_segments_of_isAbsolute habsolute
  exact absurd (h "" (hsegments ▸ List.mem_cons_self)) (by decide)

/-- The steps of a path that is joined to a folder stand behind those of the folder. Between them
stands at most a segment that leads nowhere. -/
theorem marked_join (base : String) (h : AlwaysLeads path) :
    ∃ front gap, marked base = front ++ gap ∧ (∀ m ∈ gap, m.2 = none) ∧
      marked (join base path) = front ++ behindFirst (segments path) := by
  have hrelative := h.isAbsolute_eq
  obtain ⟨gap, hbase, hgap⟩ := segments_eq_closed_append base
  have hempty : ∀ m ∈ behindFirst gap, m.2 = none := by
    intro m hm
    obtain ⟨segment, hsegment, rfl⟩ := List.mem_map.mp hm
    rw [hgap segment hsegment]
    rfl
  cases hclosed : closed (segments base) with
  | nil =>
    -- Nothing but an empty folder has no segment that is kept.
    obtain rfl : base = "" :=
      Decidable.byContradiction fun hne => closed_segments_ne_nil hne hclosed
    refine ⟨[], marked "", rfl, by decide, ?_⟩
    have hjoin : join "" path = path := by
      rw [join, hrelative]
      rfl
    cases hpath : segments path with
    | nil => exact absurd hpath (segments_ne_nil path)
    | cons first rest =>
      have hfirst : first ≠ "." := by
        rintro rfl
        exact absurd (h "." (hpath ▸ List.mem_cons_self)) (by decide)
      rw [hjoin, marked_eq hpath, firstStep?, hrelative, if_neg Bool.false_ne_true, if_neg hfirst]
      rfl
  | cons first front =>
    have hjoin : segments (join base path) = first :: (front ++ segments path) := by
      rw [segments_join hrelative, hclosed, List.cons_append]
    rw [hclosed, List.cons_append] at hbase
    refine ⟨(first, firstStep? base first) :: behindFirst front, behindFirst gap, ?_, hempty, ?_⟩
    · rw [marked_eq hbase, behindFirst, List.map_append]
      rfl
    · rw [marked_eq hjoin, firstStep?, firstStep?, isAbsolute_join hrelative, behindFirst,
        List.map_append]
      rfl

/-- The steps of some segments lead through these segments. Those at the end that lead nowhere are
left. -/
theorem behind?_append (front rest : List Marked) :
    ∃ gap, (∀ m ∈ gap, m.2 = none) ∧
      behind? (front.filterMap (·.2)) (front ++ rest) = some (gap ++ rest) := by
  have hstop : ∀ marks : List Marked, behind? [] marks = some marks := fun marks => by rw [behind?]
  induction front with
  | nil => exact ⟨[], fun m hm => absurd hm List.not_mem_nil, hstop rest⟩
  | cons m front ih =>
    obtain ⟨gap, hgap, hbehind⟩ := ih
    obtain ⟨segment, step⟩ := m
    cases step with
    | some s =>
      refine ⟨gap, hgap, ?_⟩
      rw [List.filterMap_cons, List.cons_append, behind?, if_pos rfl]
      exact hbehind
    | none =>
      rw [List.filterMap_cons]
      dsimp only
      cases hsteps : front.filterMap (·.2) with
      | nil =>
        refine ⟨(segment, none) :: front, ?_, hstop _⟩
        exact List.forall_mem_cons.mpr ⟨rfl, List.filterMap_eq_nil_iff.mp hsteps⟩
      | cons s steps =>
        rw [hsteps] at hbehind
        refine ⟨gap, hgap, ?_⟩
        rw [List.cons_append, behind?]
        exact hbehind

/-- Segments that lead nowhere are cut off in front of segments that lead somewhere. -/
theorem trim_append {gap rest : List Marked} (hgap : ∀ m ∈ gap, m.2 = none)
    (hrest : ∀ m ∈ rest, m.2.isSome) : trim (gap ++ rest) = rest := by
  have hkeep : ∀ parts : List Marked, (∀ m ∈ parts, m.2.isSome) →
      parts.dropWhile (·.2.isNone) = parts := by
    intro parts hparts
    cases parts with
    | nil => rfl
    | cons m parts =>
      have hm : m.2.isNone = false := by simpa using hparts m List.mem_cons_self
      rw [List.dropWhile_cons_of_neg (by simp [hm])]
  have hdrop : (gap ++ rest).dropWhile (·.2.isNone) = rest := by
    rw [List.dropWhile_append_of_pos fun m hm => by simp [hgap m hm], hkeep rest hrest]
  rw [trim, hdrop, hkeep rest.reverse fun m hm => hrest m (List.mem_reverse.mp hm),
    List.reverse_reverse]

/-- A path whose segments all lead somewhere is given back when it is joined to a folder and seen
from there. -/
theorem relativeTo?_join (base : String) (h : AlwaysLeads path) :
    relativeTo? base (join base path) = some path := by
  obtain ⟨front, gap, hbase, hgap, hjoin⟩ := marked_join base h
  have hsteps : steps base = front.filterMap (·.2) := by
    rw [steps, hbase, List.filterMap_append, List.filterMap_eq_nil_iff.mpr hgap, List.append_nil]
  obtain ⟨left, hleft, hbehind⟩ := behind?_append front (behindFirst (segments path))
  have hsegments : (behindFirst (segments path)).map (·.1) = segments path := by
    simp [behindFirst, Function.comp_def]
  have hlead : ∀ m ∈ behindFirst (segments path), m.2.isSome := by
    intro m hm
    obtain ⟨segment, hsegment, rfl⟩ := List.mem_map.mp hm
    exact h segment hsegment
  rw [relativeTo?, hsteps, hjoin, hbehind, Option.map_some, trim_append hleft hlead, hsegments,
    intercalate_segments]

end LayoutWatch.Path

namespace LayoutWatch.Project.Folders

open LayoutWatch.Path

/-- The registry as it is named in the settings of every project. -/
def registryName : String := ".drift/project.db"

/-- The registry is what its name in the settings leads to from the root. -/
theorem registry_eq_join (f : Folders) : f.registry = join f.root registryName :=
  join_join ⟨by decide, by decide, by decide, by decide⟩ (by decide) f.root

/-- All settings name the registry in the same way. -/
theorem registryInSettings_eq (f : Folders) : f.registryInSettings = registryName := by
  have hname : AlwaysLeads registryName := by decide
  rw [registryInSettings, registry_eq_join, relativeTo?_join f.root hname, Option.getD_some]

end LayoutWatch.Project.Folders
