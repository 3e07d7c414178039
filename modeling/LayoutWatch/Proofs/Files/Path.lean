import LayoutWatch.Project.Folders

/-!
# Names at the end of a path

A name without slashes that is joined to a path is one more segment behind those of the path, and
the file name of the whole. The extension of a name is what was put behind its last dot.
-/

namespace LayoutWatch.Path

/-! ## Parts -/

/-- A text has at least one part. -/
@[simp] theorem splitSlashes_ne_nil (text : List Char) : splitSlashes text ≠ [] := by
  fun_cases splitSlashes text <;> simp

/-- A character that is no slash belongs to the first part. -/
theorem splitSlashes_cons {c : Char} (hc : c ≠ '/') (text : List Char) :
    ∃ part parts, splitSlashes text = part :: parts ∧
      splitSlashes (c :: text) = (c :: part) :: parts := by
  cases htext : splitSlashes text with
  | nil => exact absurd htext (splitSlashes_ne_nil text)
  | cons part parts =>
    refine ⟨part, parts, rfl, ?_⟩
    rw [splitSlashes, if_neg hc, htext]

/-- The parts around a slash are those in front of it and those behind it. -/
@[simp] theorem splitSlashes_append (front rest : List Char) :
    splitSlashes (front ++ '/' :: rest) = splitSlashes front ++ splitSlashes rest := by
  induction front with
  | nil => rfl
  | cons c front ih =>
    by_cases hc : c = '/'
    · subst hc
      exact congrArg ([] :: ·) ih
    · obtain ⟨part, parts, hfront, hcons⟩ := splitSlashes_cons hc front
      rw [List.cons_append, splitSlashes, if_neg hc, ih, hcons, hfront]
      rfl

/-- A text without slashes is its only part. -/
theorem splitSlashes_of_not_mem {text : List Char} (h : '/' ∉ text) :
    splitSlashes text = [text] := by
  induction text with
  | nil => rfl
  | cons c text ih =>
    rw [List.mem_cons, not_or] at h
    rw [splitSlashes, if_neg (Ne.symm h.1), ih h.2]

/-- No part holds a slash. -/
theorem not_mem_of_mem_splitSlashes {text part : List Char} (h : part ∈ splitSlashes text) :
    '/' ∉ part := by
  induction text generalizing part with
  | nil =>
    rw [List.mem_singleton.mp h]
    exact List.not_mem_nil
  | cons c text ih =>
    by_cases hc : c = '/'
    · subst hc
      rcases List.mem_cons.mp h with rfl | h
      · exact List.not_mem_nil
      · exact ih h
    · obtain ⟨first, parts, htext, hcons⟩ := splitSlashes_cons hc text
      rw [htext] at ih
      rw [hcons] at h
      rcases List.mem_cons.mp h with rfl | h
      · rw [List.mem_cons, not_or]
        exact ⟨Ne.symm hc, ih List.mem_cons_self⟩
      · exact ih (List.mem_cons_of_mem _ h)

/-- The last part is empty only where a slash stands last, or nothing at all. -/
theorem eq_nil_or_getLast? {text : List Char} (h : (splitSlashes text).getLast? = some []) :
    text = [] ∨ text.getLast? = some '/' := by
  induction text with
  | nil => exact .inl rfl
  | cons c text ih =>
    have hmore : (splitSlashes text).getLast? = some [] ∧ (text = [] → c = '/') := by
      by_cases hc : c = '/'
      · subst hc
        have hparts : splitSlashes ('/' :: text) = [] :: splitSlashes text := rfl
        rw [hparts, List.getLast?_cons_of_ne_nil (splitSlashes_ne_nil text)] at h
        exact ⟨h, fun _ => rfl⟩
      · obtain ⟨first, parts, htext, hcons⟩ := splitSlashes_cons hc text
        rw [hcons] at h
        cases parts with
        | nil => cases h
        | cons next parts =>
          rw [htext]
          refine ⟨h, ?_⟩
          rintro rfl
          cases htext
    rcases ih hmore.1 with rfl | hlast
    · obtain rfl := hmore.2 rfl
      exact .inr rfl
    · have hne : text ≠ [] := by
        rintro rfl
        cases hlast
      exact .inr ((List.getLast?_cons_of_ne_nil hne).trans hlast)

/-! ## Segments -/

/-- Segments without an empty one at the end. -/
def closed (segments : List String) : List String :=
  if segments.getLast? = some "" then segments.dropLast else segments

/-- An empty segment at the end is left out. -/
@[simp] theorem closed_append_empty (segments : List String) :
    closed (segments ++ [""]) = segments := by
  rw [closed, List.getLast?_concat, if_pos rfl, List.dropLast_concat]

/-- Segments that end in a name are left as they are. -/
theorem closed_append_name (segments : List String) {name : String} (h : name ≠ "") :
    closed (segments ++ [name]) = segments ++ [name] := by
  rw [closed, List.getLast?_concat, if_neg (by simpa using h)]

/-- What stands in front of the last segment stays. -/
theorem closed_append (front : List String) {segments : List String} (h : segments ≠ []) :
    closed (front ++ segments) = front ++ closed segments := by
  rw [closed, closed, List.getLast?_append, List.getLast?_eq_some_getLast h, Option.some_or]
  split
  · rw [List.dropLast_append_of_ne_nil h]
  · rfl

/-- A path has at least one segment. -/
@[simp] theorem segments_ne_nil (path : String) : segments path ≠ [] := by
  rw [segments, ne_eq, List.map_eq_nil_iff]
  exact splitSlashes_ne_nil _

/-- A name is a text without slashes. -/
def IsName (name : String) : Prop := '/' ∉ name.toList

instance (name : String) : Decidable (IsName name) :=
  inferInstanceAs (Decidable ('/' ∉ name.toList))

/-- A name of a file or folder is one that leads somewhere. -/
structure IsFileName (name : String) : Prop where
  /-- It is a name. -/
  isName : IsName name
  /-- It is not empty. -/
  ne_empty : name ≠ ""
  /-- It does not stand for the same place. -/
  ne_here : name ≠ "."
  /-- It does not stand for the place above. -/
  ne_up : name ≠ ".."

/-- A name is its only segment. -/
theorem segments_name {name : String} (h : IsName name) : segments name = [name] := by
  rw [segments, splitSlashes_of_not_mem h, List.map_singleton, String.ofList_toList]

/-- A segment is a name. -/
theorem isName_of_mem_segments {path segment : String} (h : segment ∈ segments path) :
    IsName segment := by
  obtain ⟨part, hpart, rfl⟩ := List.mem_map.mp h
  rw [IsName, String.toList_ofList]
  exact not_mem_of_mem_splitSlashes hpart

/-- The segments of a text around a slash are those in front of it and those behind it. -/
theorem segments_slash {text : String} {front rest : List Char}
    (h : text.toList = front ++ '/' :: rest) :
    segments text = segments (String.ofList front) ++ segments (String.ofList rest) := by
  simp only [segments, h, splitSlashes_append, List.map_append, String.toList_ofList]

/-- The segments of a joined path are those of its two parts. -/
theorem segments_join {base path : String} (h : isAbsolute path = false) :
    segments (join base path) = closed (segments base) ++ segments path := by
  rw [join, h, if_neg Bool.false_ne_true]
  by_cases hempty : base = ""
  · subst hempty
    rfl
  by_cases hslash : base.toList.getLast? = some '/'
  · obtain ⟨front, hfront⟩ := List.getLast?_eq_some_iff.mp hslash
    have hbase : segments base = segments (String.ofList front) ++ [""] := segments_slash hfront
    have hjoin : (base ++ path).toList = front ++ '/' :: path.toList := by
      rw [String.toList_append, hfront, List.append_assoc]
      rfl
    rw [hbase, closed_append_empty, hslash, if_pos (by simp), segments_slash hjoin,
      String.ofList_toList]
  · have hjoin : (base ++ "/" ++ path).toList = base.toList ++ '/' :: path.toList := by
      rw [String.toList_append, String.toList_append, List.append_assoc]
      rfl
    have hclosed : closed (segments base) = segments base := by
      rw [closed, if_neg]
      intro hlast
      rw [segments, List.getLast?_map] at hlast
      obtain ⟨part, hpart, hempty'⟩ := Option.map_eq_some_iff.mp hlast
      obtain rfl : part = [] := by simpa using congrArg String.toList hempty'
      rcases eq_nil_or_getLast? hpart with hnil | hlast
      · exact hempty (String.toList_eq_nil_iff.mp hnil)
      · exact hslash hlast
    rw [hclosed, if_neg (by simp [hempty, hslash]), segments_slash hjoin, String.ofList_toList,
      String.ofList_toList]

/-- Only an empty path is left without segments. -/
theorem closed_segments_ne_nil {path : String} (h : path ≠ "") : closed (segments path) ≠ [] := by
  intro hclosed
  have honly : segments path = [""] := by
    rw [closed] at hclosed
    split at hclosed
    · next hlast =>
      obtain ⟨front, hfront⟩ := List.getLast?_eq_some_iff.mp hlast
      rw [hfront, List.dropLast_concat] at hclosed
      rw [hfront, hclosed, List.nil_append]
    · exact absurd hclosed (segments_ne_nil path)
  rw [segments, List.map_eq_singleton_iff] at honly
  obtain ⟨part, hparts, hempty⟩ := honly
  have hnil : part = [] := by simpa using congrArg String.toList hempty
  subst hnil
  cases hpath : path.toList with
  | nil => exact h (String.toList_eq_nil_iff.mp hpath)
  | cons c rest =>
    rw [hpath] at hparts
    by_cases hc : c = '/'
    · subst hc
      have hrest : splitSlashes rest = [] := congrArg List.tail hparts
      exact splitSlashes_ne_nil rest hrest
    · obtain ⟨first, parts, -, hcons⟩ := splitSlashes_cons hc rest
      rw [hcons] at hparts
      cases hparts

/-- Behind the root of all files there is at least one more segment. -/
theorem exists_segments_of_isAbsolute {path : String} (h : isAbsolute path = true) :
    ∃ rest, rest ≠ [] ∧ segments path = "" :: rest := by
  rw [isAbsolute, beq_iff_eq] at h
  cases hpath : path.toList with
  | nil =>
    rw [hpath] at h
    cases h
  | cons c rest =>
    rw [hpath] at h
    obtain rfl : c = '/' := Option.some.inj h
    refine ⟨segments (String.ofList rest), segments_ne_nil _, ?_⟩
    have hfront : path.toList = [] ++ '/' :: rest := hpath
    exact segments_slash hfront

/-- A name does not begin at the root. -/
theorem isAbsolute_name {name : String} (h : IsName name) : isAbsolute name = false := by
  rw [isAbsolute]
  cases hname : name.toList with
  | nil => rfl
  | cons c rest =>
    have hc : c ≠ '/' := by
      rintro rfl
      exact h (hname ▸ List.mem_cons_self)
    simpa using hc

/-- A path that is not empty begins where each longer one does. -/
theorem isAbsolute_append {front : String} (h : front ≠ "") (rest : String) :
    isAbsolute (front ++ rest) = isAbsolute front := by
  rw [isAbsolute, isAbsolute, String.toList_append]
  cases hfront : front.toList with
  | nil => exact absurd (String.toList_eq_nil_iff.mp hfront) h
  | cons c chars => rfl

/-- What is joined to a path does not change where the path begins, unless it begins at the root
itself. -/
theorem isAbsolute_join {base path : String} (h : isAbsolute path = false) :
    isAbsolute (join base path) = isAbsolute base := by
  rw [join, h, if_neg Bool.false_ne_true]
  by_cases hempty : base = ""
  · subst hempty
    rw [if_pos (by simp), String.empty_append]
    exact h
  · split
    · exact isAbsolute_append hempty path
    · rw [String.append_assoc, isAbsolute_append hempty]

/-! ## File names -/

/-- A name that leads somewhere is the file name of the path that it stands for. -/
theorem fileName?_name {name : String} (h : IsFileName name) : fileName? name = some name := by
  have hsteps : steps name = [.name name] := by
    simp [steps, marked, segments_name h.isName, isAbsolute_name h.isName, step?, h.ne_empty,
      h.ne_here, h.ne_up]
  rw [fileName?, hsteps]
  rfl

/-- What is put behind a dot is the extension, unless it is put behind nothing. -/
theorem extensionOfName?_append {front behind : String} (h : '.' ∉ behind.toList) :
    extensionOfName? (front ++ "." ++ behind) = if front = "" then none else some behind := by
  have hreverse : (front ++ "." ++ behind).toList.reverse =
      behind.toList.reverse ++ '.' :: front.toList.reverse := by
    simp
  have hbehind : ∀ c ∈ behind.toList.reverse, (c != '.') = true := by
    intro c hc
    refine bne_iff_ne.mpr ?_
    rintro rfl
    exact h (List.mem_reverse.mp hc)
  rw [extensionOfName?, hreverse, List.takeWhile_append_of_pos hbehind,
    List.dropWhile_append_of_pos hbehind]
  simp

end LayoutWatch.Path

namespace LayoutWatch.Project.Folders

open LayoutWatch.Path

/-- A plain name holds plain characters only. -/
theorem isPlain_of_mem_plainName {name : String} {c : Char} (h : c ∈ (plainName name).toList) :
    isPlain c = true := by
  rw [plainName, String.toList_ofList] at h
  obtain ⟨original, -, rfl⟩ := List.mem_map.mp h
  split
  · next hplain => exact hplain
  · rfl

/-- Only the empty name has an empty plain name. -/
@[simp] theorem plainName_eq_empty_iff {name : String} : plainName name = "" ↔ name = "" := by
  rw [← String.toList_eq_nil_iff, ← String.toList_eq_nil_iff, plainName, String.toList_ofList,
    List.map_eq_nil_iff]

section Extensions

variable {front : String} (h : ∀ c ∈ front.toList, isPlain c = true)

include h

/-- The extension of the files of a project is made of plain characters. -/
theorem isPlain_of_mem_append_json {c : Char} (hc : c ∈ (front ++ ".json").toList) :
    isPlain c = true := by
  have hextension : ∀ c ∈ ".json".toList, isPlain c = true := by simp [isPlain]
  rw [String.toList_append] at hc
  rcases List.mem_append.mp hc with hc | hc
  · exact h c hc
  · exact hextension c hc

/-- Plain characters with an extension make a name that leads somewhere. -/
theorem isFileName_append_json : IsFileName (front ++ ".json") := by
  have hlast : ∀ other : String, other.toList.getLast? ≠ some 'n' → front ++ ".json" ≠ other := by
    rintro other hother rfl
    rw [String.toList_append, List.getLast?_append] at hother
    exact hother rfl
  refine ⟨fun hslash => ?_, hlast _ (by decide), hlast _ (by decide), hlast _ (by decide)⟩
  exact absurd (isPlain_of_mem_append_json h hslash) (by decide)

end Extensions

/-- The name of a signature file is a name that leads somewhere. -/
theorem isFileName_signatureFileName (structName : String) :
    IsFileName (signatureFileName structName) :=
  isFileName_append_json fun _ => isPlain_of_mem_plainName

/-- A signature file has its extension unless its struct has no name. -/
theorem extension?_signatureFileName (structName : String) :
    extension? (signatureFileName structName) =
      if structName = "" then none else some "json" := by
  have htext : signatureFileName structName = plainName structName ++ "." ++ "json" := by
    rw [signatureFileName, String.append_assoc]
    rfl
  rw [extension?, fileName?_name (isFileName_signatureFileName structName), Option.bind_some,
    htext, extensionOfName?_append (by decide)]
  simp only [plainName_eq_empty_iff]

end LayoutWatch.Project.Folders
