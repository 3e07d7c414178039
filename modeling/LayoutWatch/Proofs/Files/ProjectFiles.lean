import LayoutWatch.Proofs.Files.RelativePath
import LayoutWatch.Proofs.Files.Tree

/-!
# Files that stay in their folders

The names of structs and binaries come from files that anyone may have written. The name of a file
that is made from one of them holds harmless characters only and leads somewhere, whatever name it
was made from. Joined to a folder, it is one more step from there, and the folder is what is above
it. So no name leads out of the folders of a project.
-/

namespace LayoutWatch.Path

variable {name inner : String}

/-! ## Steps of a joined name -/

/-- A name that leads somewhere is a step of its own. -/
theorem step?_name (h : IsFileName name) : step? name = some (.name name) := by
  rw [step?, if_neg (not_or.mpr ⟨h.ne_empty, h.ne_here⟩), if_neg h.ne_up]

/-- A name that leads somewhere is joined as one more segment, behind the steps of the folder. -/
theorem marked_join_name (base : String) (h : IsFileName name) :
    ∃ front gap, marked base = front ++ gap ∧ (∀ m ∈ gap, m.2 = none) ∧
      marked (join base name) = front ++ [(name, some (.name name))] := by
  have hleads : AlwaysLeads name := by
    intro segment hsegment
    rw [segments_name h.isName, List.mem_singleton] at hsegment
    rw [hsegment, step?_name h]
    rfl
  obtain ⟨front, gap, hbase, hgap, hjoin⟩ := marked_join base hleads
  refine ⟨front, gap, hbase, hgap, ?_⟩
  rw [hjoin, segments_name h.isName, behindFirst, List.map_singleton, step?_name h]

/-- A name that leads somewhere is the last step of the path to which it is joined. -/
theorem steps_join_name (base : String) (h : IsFileName name) :
    steps (join base name) = steps base ++ [.name name] := by
  obtain ⟨front, gap, hbase, hgap, hjoin⟩ := marked_join_name base h
  rw [steps, steps, hbase, hjoin, List.filterMap_append, List.filterMap_append,
    List.filterMap_eq_nil_iff.mpr hgap, List.append_nil]
  rfl

/-! ## What is above a joined name -/

/-- The segments of a path are marked in their order. -/
theorem map_fst_marked (path : String) : (marked path).map (·.1) = segments path := by
  cases hpath : segments path with
  | nil => exact absurd hpath (segments_ne_nil path)
  | cons first rest =>
    rw [marked_eq hpath]
    simp [behindFirst, Function.comp_def]

/-- A path that ends in a name is the text of its segments. -/
theorem textOf_marked_join (base : String) (h : IsFileName name) :
    textOf (marked (join base name)) = join base name := by
  obtain ⟨front, gap, -, -, hjoin⟩ := marked_join_name base h
  have hroot : (marked (join base name)).map (·.2) ≠ [some .root] := by
    rw [hjoin, List.map_append]
    intro heq
    have hlast := congrArg List.getLast? heq
    simp at hlast
  rw [textOf, if_neg hroot, map_fst_marked, intercalate_segments]

/-- A path that ends in a name ends in a step. -/
theorem dropWhile_marked_join (base : String) (h : IsFileName name) :
    (marked (join base name)).reverse.dropWhile (·.2.isNone) =
      (marked (join base name)).reverse := by
  obtain ⟨front, -, -, -, hjoin⟩ := marked_join_name base h
  rw [hjoin, List.reverse_concat]
  rfl

/-- Behind a path that ends in a name, nothing stands between its steps and a joined name. -/
theorem marked_join_join (base : String) (hinner : IsFileName inner) (h : IsFileName name) :
    marked (join (join base inner) name) =
      marked (join base inner) ++ [(name, some (.name name))] := by
  obtain ⟨outer, -, -, -, hfolder⟩ := marked_join_name base hinner
  obtain ⟨front, gap, hsplit, hgap, hjoin⟩ := marked_join_name (join base inner) h
  rcases List.eq_nil_or_concat' gap with rfl | ⟨others, last, rfl⟩
  · rw [hjoin, hsplit, List.append_nil]
  · -- A gap would end in the name of the folder, and a name is no gap.
    have hlast : last = (inner, some (.name inner)) := by
      have hends := congrArg List.getLast? (hsplit.symm.trans hfolder)
      rw [← List.append_assoc, List.getLast?_concat, List.getLast?_concat] at hends
      exact Option.some.inj hends
    exact absurd (hgap last (by simp)) (by simp [hlast])

/-- Above a name that is joined to a folder is the folder, as it was written. -/
theorem parent?_join_join (base : String) (hinner : IsFileName inner) (h : IsFileName name) :
    parent? (join (join base inner) name) = some (join base inner) := by
  rw [parent?, dropWhile_marked_join _ h, marked_join_join base hinner h, List.reverse_concat]
  change some (textOf ((marked (join base inner)).reverse.dropWhile (·.2.isNone)).reverse) = _
  rw [dropWhile_marked_join base hinner, List.reverse_reverse, textOf_marked_join base hinner]

example : parent? "/a" = some "/" ∧ parent? "a/./b//" = some "a" ∧ parent? "./.." = some "." ∧
    parent? "a" = some "" ∧ parent? "/" = none ∧ parent? "" = none := by decide

/-- A path leads from a folder to a file in it, by a harmless name. -/
structure EntersPlainly (folder path file : String) : Prop where
  /-- The file is joined to the folder. -/
  eq_join : path = join folder file
  /-- Its name leads somewhere. -/
  isFileName : IsFileName file
  /-- The name is made of letters, digits and three other characters. -/
  plain : ∀ c ∈ file.toList, 'A' ≤ c ∧ c ≤ 'Z' ∨ 'a' ≤ c ∧ c ≤ 'z' ∨ '0' ≤ c ∧ c ≤ '9' ∨
    c = '-' ∨ c = '_' ∨ c = '.'
  /-- From the folder it is one step. -/
  steps_eq : steps path = steps folder ++ [.name file]
  /-- It is the file name of the path. -/
  fileName?_eq : fileName? path = some file
  /-- What is above the path is the folder. -/
  parent?_eq : parent? path = some folder
  /-- Wherever the folder is, the path leads to a place in it. -/
  locate_eq : ∀ (t : FileTree) (workingFolder : String) (l : Location), workingFolder ≠ "" →
    t.Reaches workingFolder folder l → t.locate workingFolder path = .ok (l ++ [file])

end LayoutWatch.Path

namespace LayoutWatch.Project.Folders

open LayoutWatch.Path

/-- A plain character is a letter, a digit or one of three others. -/
theorem isPlain_iff {c : Char} : isPlain c = true ↔
    'A' ≤ c ∧ c ≤ 'Z' ∨ 'a' ≤ c ∧ c ≤ 'z' ∨ '0' ≤ c ∧ c ≤ '9' ∨ c = '-' ∨ c = '_' ∨ c = '.' := by
  have halphanum : c.isAlphanum = (c.isUpper || c.isLower || c.isDigit) := rfl
  have hupper : c.isUpper = decide ('A' ≤ c ∧ c ≤ 'Z') := rfl
  have hlower : c.isLower = (decide ('a' ≤ c) && decide (c ≤ 'z')) := rfl
  have hdigit : c.isDigit = (decide ('0' ≤ c) && decide (c ≤ '9')) := rfl
  simp only [isPlain, halphanum, hupper, hlower, hdigit, Bool.or_eq_true, Bool.and_eq_true,
    decide_eq_true_eq, beq_iff_eq, or_assoc]

/-- A name of plain characters with an extension enters a folder of the project. -/
theorem entersPlainly {folder front : String} (root : String) (hfolder : IsFileName folder)
    (hfront : ∀ c ∈ front.toList, isPlain c = true) :
    EntersPlainly (join root folder) (join (join root folder) (front ++ ".json"))
      (front ++ ".json") := by
  have hname := isFileName_append_json hfront
  have hsteps := steps_join_name (join root folder) hname
  refine ⟨rfl, hname, ?_, hsteps, ?_, parent?_join_join root hfolder hname, ?_⟩
  · exact fun c hc => isPlain_iff.mp (isPlain_of_mem_append_json hfront hc)
  · rw [fileName?, hsteps, List.getLast?_concat]
  · exact fun t workingFolder l hworking hreaches => hreaches.locate_join hworking hname

/-- The plain name of a binary is marked as that of a scan. -/
theorem isPlain_of_mem_scan {binaryName : String} {c : Char}
    (h : c ∈ ("scan-" ++ plainName binaryName).toList) : isPlain c = true := by
  have hmark : ∀ c ∈ "scan-".toList, isPlain c = true := by simp [isPlain]
  rw [String.toList_append] at h
  rcases List.mem_append.mp h with h | h
  · exact hmark c h
  · exact isPlain_of_mem_plainName h

/-- No name leads out of the folders of a project. The signature file of a struct is in the folder
of signatures and the report on a binary in the folder of reports, each under one harmless name,
whatever the struct or the binary is called and wherever the project is. -/
theorem files_stayInside (f : Folders) (name : String) :
    EntersPlainly f.signatures (f.signatureFile name) (signatureFileName name) ∧
      EntersPlainly f.reports (f.scanReport name) (scanReportName name) :=
  ⟨entersPlainly f.root ⟨by decide, by decide, by decide, by decide⟩
      fun _ => isPlain_of_mem_plainName,
    entersPlainly f.root ⟨by decide, by decide, by decide, by decide⟩
      fun _ => isPlain_of_mem_scan⟩

/-- A project with the folders for its files. -/
def madeFolders : FileTree :=
  ⟨[(["proj"], .folder), (["proj", "signatures"], .folder), (["proj", "reports"], .folder)]⟩

/-- Names that lead up, to the root or nowhere are names of files in the folders of the project. -/
theorem hostile_names_stayInside :
    madeFolders.Reaches "/" "/proj/./signatures" ["proj", "signatures"] ∧
    madeFolders.locate "/" (signatureFile ⟨"/proj/."⟩ "../../etc/passwd") =
      .ok ["proj", "signatures", ".._.._etc_passwd.json"] ∧
    Path.parent? (signatureFile ⟨"/proj/."⟩ "") = some "/proj/./signatures" ∧
    Path.parent? (scanReport ⟨""⟩ "/etc/passwd") = some "reports" ∧
    Path.fileName? (scanReport ⟨""⟩ "/etc/passwd") = some "scan-_etc_passwd.json" := by
  have hreaches : madeFolders.Reaches "/" "/proj/./signatures" ["proj", "signatures"] :=
    ⟨by decide, rfl⟩
  have hup := (files_stayInside ⟨"/proj/."⟩ "../../etc/passwd").1
  have hempty := (files_stayInside ⟨"/proj/."⟩ "").1
  have hroot := (files_stayInside ⟨""⟩ "/etc/passwd").2
  have hfolder : signatures ⟨"/proj/."⟩ = "/proj/./signatures" := by decide
  have hname : signatureFileName "../../etc/passwd" = ".._.._etc_passwd.json" := by decide
  refine ⟨hreaches, ?_, hfolder ▸ hempty.parent?_eq, ?_, ?_⟩
  · rw [hup.locate_eq madeFolders "/" _ (by decide) (hfolder ▸ hreaches), hname]
    rfl
  · rw [hroot.parent?_eq]
    decide
  · rw [hroot.fileName?_eq]
    decide

end LayoutWatch.Project.Folders
