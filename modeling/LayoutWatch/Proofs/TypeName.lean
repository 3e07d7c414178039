import LayoutWatch.Proofs.CodeImage
import LayoutWatch.Proofs.Extraction

/-!
# Type names in two binaries

The signature of a type name is extracted where the name begins somewhere in the file: no longer
identifier ends there. The search for that signature looks for the bytes of the name alone, so it
finds them in another binary wherever they occur. The two rules part exactly on binaries in which
the name occurs and only ends longer identifiers.
-/

namespace LayoutWatch

open Extraction

/-- The type name of a struct stands at this place of a file. -/
def NameStandsAt (bytes : Bytes) (structName : String) (site : Nat) : Prop :=
  bytes.slice? site (textBytes (typeNameText structName)).length =
    some (textBytes (typeNameText structName))

instance (bytes : Bytes) (structName : String) (site : Nat) :
    Decidable (NameStandsAt bytes structName site) := inferInstanceAs (Decidable (_ = _))

/-- The type name of a struct begins somewhere in a file. -/
def NameBegins (bytes : Bytes) (structName : String) : Prop :=
  ∃ site, NameStandsAt bytes structName site ∧ beginsTypeName bytes site = true

/-- The marks that stand in front of the name of a class and of a struct. -/
def typeMarks : List (List UInt8) := [textBytes ".?AV", textBytes ".?AU"]

/-- A mark stands directly in front of a place. -/
def MarkEndsAt (bytes : Bytes) (mark : List UInt8) (site : Nat) : Prop :=
  ∃ start, start + mark.length = site ∧ bytes.slice? start mark.length = some mark

/-- What stands at this place ends a longer identifier. -/
structure EndsIdentifier (bytes : Bytes) (site : Nat) : Prop where
  /-- The place is not the first of the file. -/
  pos : 0 < site
  /-- A byte of an identifier stands in front. -/
  before : ∃ b, bytes[site - 1]? = some b ∧ isIdentifierByte b = true
  /-- No mark stands in front. -/
  unmarked : ∀ mark ∈ typeMarks, ¬MarkEndsAt bytes mark site

/-- The type name of a struct occurs in a file, and only at the end of longer identifiers. -/
def NameOnlyEndsIdentifiers (bytes : Bytes) (structName : String) : Prop :=
  (∃ site, NameStandsAt bytes structName site) ∧
    ∀ site, NameStandsAt bytes structName site → EndsIdentifier bytes site

/-- The bytes of a type name are those of the struct, with two signs behind them. -/
@[simp] theorem textBytes_typeNameText (structName : String) :
    textBytes (typeNameText structName) = textBytes structName ++ [0x40, 0x40] := by
  have hsigns : "@@".toByteArray.data.toList = [0x40, 0x40] := rfl
  simp [textBytes, typeNameText, hsigns]

/-- A mark of four bytes is read in front of a place. -/
theorem markEndsAt_iff {bytes : Bytes} {mark : List UInt8} {site : Nat}
    (hlength : mark.length = 4) (hsite : site ≤ bytes.size) :
    MarkEndsAt bytes mark site ↔ 4 ≤ site ∧ bytes.within ⟨site - 4, site⟩ = mark := by
  simp only [MarkEndsAt, hlength, Bytes.slice?_eq_some_iff]
  constructor
  · intro hmark
    rcases hmark with ⟨start, rfl, -, hbytes⟩
    exact ⟨Nat.le_add_left 4 start, by rw [Nat.add_sub_cancel, hbytes]⟩
  · intro hmark
    rcases hmark with ⟨hfour, hbytes⟩
    have hback : site - 4 + 4 = site := Nat.sub_add_cancel hfour
    exact ⟨site - 4, hback, by omega, by rw [hback, hbytes]⟩

/-- A type name does not begin exactly where a longer identifier ends. -/
theorem beginsTypeName_eq_false_iff {bytes : Bytes} {site : Nat} :
    beginsTypeName bytes site = false ↔ EndsIdentifier bytes site := by
  cases hbefore : bytes.slice? (site - 1) 1 with
  | none =>
    have hbegins : beginsTypeName bytes site = true := by rw [beginsTypeName, hbefore]
    refine iff_of_false (by simp [hbegins]) fun hends => ?_
    obtain ⟨b, hb, -⟩ := hends.before
    have hin : site - 1 < bytes.size := (Array.getElem?_eq_some_iff.mp hb).1
    simp [Bytes.slice?, Nat.succ_le_of_lt hin] at hbefore
  | some word =>
    obtain ⟨b, rfl⟩ := List.length_eq_one_iff.mp (Bytes.length_of_slice? hbefore)
    have hb : bytes[site - 1]? = some b := Bytes.getElem?_of_slice? hbefore Nat.zero_lt_one
    have hin : site - 1 < bytes.size := (Array.getElem?_eq_some_iff.mp hb).1
    have hsite : site ≤ bytes.size := by omega
    have hclass : textBytes ".?AV" = [0x2E, 0x3F, 0x41, 0x56] := rfl
    have hstruct : textBytes ".?AU" = [0x2E, 0x3F, 0x41, 0x55] := rfl
    have hunmarked : (∀ mark ∈ typeMarks, ¬MarkEndsAt bytes mark site) ↔
        ¬(4 ≤ site ∧ (bytes.within ⟨site - 4, site⟩ = [0x2E, 0x3F, 0x41, 0x56] ∨
          bytes.within ⟨site - 4, site⟩ = [0x2E, 0x3F, 0x41, 0x55])) := by
      simp only [typeMarks, hclass, hstruct, List.forall_mem_cons, List.not_mem_nil,
        false_implies, implies_true, and_true]
      rw [markEndsAt_iff rfl hsite, markEndsAt_iff rfl hsite, ← not_or, ← and_or_left]
    have hcases : beginsTypeName bytes site = false ↔ site ≠ 0 ∧ isIdentifierByte b = true ∧
        ¬(4 ≤ site ∧ (bytes.within ⟨site - 4, site⟩ = [0x2E, 0x3F, 0x41, 0x56] ∨
          bytes.within ⟨site - 4, site⟩ = [0x2E, 0x3F, 0x41, 0x55])) := by
      rw [beginsTypeName, hbefore]
      simp [and_assoc]
    rw [hcases, ← hunmarked]
    constructor
    · intro hends
      rcases hends with ⟨hpos, hidentifier, hmarks⟩
      exact ⟨Nat.pos_of_ne_zero hpos, ⟨b, hb, hidentifier⟩, hmarks⟩
    · intro hends
      rcases hends with ⟨hpos, ⟨b', hb', hidentifier⟩, hmarks⟩
      obtain rfl : b = b' := Option.some.inj (hb.symm.trans hb')
      exact ⟨Nat.ne_of_gt hpos, hidentifier, hmarks⟩

/-- Where a name occurs, it begins somewhere unless it only ends longer identifiers. -/
theorem stands_iff_begins_iff {bytes : Bytes} {structName : String} :
    ((∃ site, NameStandsAt bytes structName site) ↔ NameBegins bytes structName) ↔
      ¬NameOnlyEndsIdentifiers bytes structName := by
  have hstands : NameBegins bytes structName → ∃ site, NameStandsAt bytes structName site := by
    intro hbegins
    rcases hbegins with ⟨site, hsite, -⟩
    exact ⟨site, hsite⟩
  have hends : (∀ site, NameStandsAt bytes structName site → EndsIdentifier bytes site) ↔
      ¬NameBegins bytes structName := by
    simp only [NameBegins, ← beginsTypeName_eq_false_iff, not_exists, not_and,
      Bool.not_eq_true]
  rw [NameOnlyEndsIdentifiers, hends, not_and_not_right]
  exact ⟨fun h => h.mp, fun h => ⟨h, hstands⟩⟩

namespace Binary

variable {a b : Binary} {s : Signature} {structName : String}

/-- A type name that is extracted begins somewhere in its file. -/
theorem nameBegins_of_typeNameSignature? {options : ExtractOptions}
    (h : typeNameSignature? a options structName = some s) : NameBegins a.bytes structName := by
  obtain ⟨-, -, -, -, hsites⟩ := typeNameSignature?_parts h
  obtain ⟨site, hsite⟩ := List.exists_mem_of_ne_nil _ hsites
  obtain ⟨hkept, hbegins⟩ := List.mem_filter.mp hsite
  obtain ⟨-, -, -, hmatch⟩ := Pattern.mem_findAll.mp (mem_of_mem_dropOverlaps hkept)
  exact ⟨site, Pattern.matchesAt_ofBytes_iff.mp hmatch, hbegins⟩

/-- The search for a type name has a site wherever the name stands. -/
theorem takenSites_typeName_ne_nil_iff :
    b.takenSites .typeName ⟨Pattern.ofBytes (textBytes (typeNameText structName)), none, none⟩ ≠ []
      ↔ ∃ site, NameStandsAt b.bytes structName site := by
  have hbare : b.takenSites .typeName
      ⟨Pattern.ofBytes (textBytes (typeNameText structName)), none, none⟩ =
        b.sites [⟨0, b.bytes.size⟩]
          (Pattern.ofBytes (textBytes (typeNameText structName))) := rfl
  rw [hbare]
  constructor
  · intro hne
    obtain ⟨site, hsite⟩ := List.exists_mem_of_ne_nil _ hne
    obtain ⟨-, -, -, -, -, hmatch⟩ := mem_sites.mp hsite
    exact ⟨site, Pattern.matchesAt_ofBytes_iff.mp hmatch⟩
  · intro hstands
    rcases hstands with ⟨site, hsite⟩
    have hmatch := Pattern.matchesAt_ofBytes_iff.mpr hsite
    have hne : Pattern.ofBytes (textBytes (typeNameText structName)) ≠ [] := by
      simp [Pattern.ofBytes]
    exact List.ne_nil_of_mem (mem_sites.mpr ⟨_, List.mem_singleton_self _, hne, Nat.zero_le _,
      (Pattern.matchesAt_iff.mp hmatch).1, hmatch⟩)

section Extracted

variable {fields : List Declaration} {options : ExtractOptions} {extractedAt : String}
  {e : Extraction} {image : Image}

/-- The signature of a type name that was extracted is that of its struct. -/
theorem typeNameSignature?_of_extract (h : a.extract fields options extractedAt = .ok e)
    (hs : s ∈ e.sets.flatMap (·.signatures)) (hkind : s.kind = .typeName) :
    typeNameSignature? a options s.structName = some s := by
  rcases (mem_signatures_iff h).mp hs with ⟨d, -, hcovered⟩ | htype
  · obtain ⟨first, rest, -, -, -, rfl⟩ := attempt_eq_covered_iff.mp hcovered
    exact absurd hkind (by simp [fieldSignature])
  · obtain ⟨structName, hname⟩ := typeNameSignature?_of_mem htype
    obtain ⟨-, rfl, -⟩ := typeNameSignature?_parts hname
    exact hname

/-- The signature of a type name is looked for in every valid binary, and found exactly where the
name stands. -/
theorem exists_sight_typeName (h : typeNameSignature? a options structName = some s)
    (hvalid : b.validImage = .ok image) :
    ∃ x, b.sight s = .ok x ∧
      (x.found = true ↔ ∃ site, NameStandsAt b.bytes s.structName site) := by
  obtain ⟨hkind, rfl, -, hpatterns, -⟩ := typeNameSignature?_parts h
  refine ⟨b.sightPatterns s
    ⟨Pattern.ofBytes (textBytes (typeNameText s.structName)), none, none⟩, ?_, ?_⟩
  · rw [sight, hvalid, ok_bind, sightValid, hpatterns]
  · rw [found_sightPatterns, hkind, takenSites_typeName_ne_nil_iff]

/-- A type name that was extracted from one binary begins there. In another binary its signature is
found exactly where the name stands at all; and to be found means to begin there too, unless the
name only ends longer identifiers. -/
theorem typeName_found_iff (h : a.extract fields options extractedAt = .ok e)
    (hs : s ∈ e.sets.flatMap (·.signatures)) (hkind : s.kind = .typeName)
    (hvalid : b.validImage = .ok image) :
    NameBegins a.bytes s.structName ∧ ∃ x, b.sight s = .ok x ∧
      (x.found = true ↔ ∃ site, NameStandsAt b.bytes s.structName site) ∧
      ((x.found = true ↔ NameBegins b.bytes s.structName) ↔
        ¬NameOnlyEndsIdentifiers b.bytes s.structName) := by
  have hname := typeNameSignature?_of_extract h hs hkind
  obtain ⟨x, hsight, hfound⟩ := exists_sight_typeName hname hvalid
  refine ⟨nameBegins_of_typeNameSignature? hname, x, hsight, hfound, ?_⟩
  rw [hfound]
  exact stands_iff_begins_iff

end Extracted

/-- A file with the type name of a class. -/
def named : Binary := ofCode "named.exe" (textBytes ".?AVFoo@@")

/-- A file with the type name of another class, which ends in that one. -/
def longerNamed : Binary := ofCode "longer.exe" (textBytes ".?AVBigFoo@@")

/-- A file with both names. -/
def twiceNamed : Binary := ofCode "twice.exe" (textBytes ".?AVBigFoo@@.?AVFoo@@")

/-- The signature of the type name in the first file. -/
theorem exists_named_signature : ∃ e s,
    named.extract [⟨"Foo", "health", 16⟩] .standard "" = .ok e ∧
      s ∈ e.sets.flatMap (·.signatures) ∧ s.kind = .typeName ∧ s.structName = "Foo" := by
  have hvalid : named.validImage = .ok named.image := validImage_ofCode (by decide +kernel)
  have hsites : typeNameSites named.bytes "Foo" = [164] := by decide +kernel
  obtain ⟨e, he⟩ := exists_extract hvalid [⟨"Foo", "health", 16⟩] .standard ""
  have hsome : (typeNameSignature? named .standard "Foo").isSome = true := by
    simp only [typeNameSignature?, hsites]
    decide
  obtain ⟨s, hs⟩ := Option.isSome_iff_exists.mp hsome
  obtain ⟨hkind, hname, -⟩ := typeNameSignature?_parts hs
  refine ⟨e, s, he, (mem_signatures_iff he).mpr (Or.inr ?_), hkind, hname⟩
  exact List.mem_filterMap.mpr ⟨"Foo", by decide, hs⟩

/-- The name is found in the third file, where it stands twice and begins once. -/
theorem typeName_found_twice : ∃ e s x,
    named.extract [⟨"Foo", "health", 16⟩] .standard "" = .ok e ∧
      s ∈ e.sets.flatMap (·.signatures) ∧ s.kind = .typeName ∧ twiceNamed.sight s = .ok x ∧
      x.found = true ∧ NameBegins twiceNamed.bytes s.structName := by
  have hvalid : twiceNamed.validImage = .ok twiceNamed.image :=
    validImage_ofCode (by decide +kernel)
  have hstands : NameStandsAt twiceNamed.bytes "Foo" 176 := by decide +kernel
  have hbegins : beginsTypeName twiceNamed.bytes 176 = true := by decide +kernel
  obtain ⟨e, s, he, hs, hkind, hname⟩ := exists_named_signature
  obtain ⟨-, x, hsight, hfound, -⟩ := typeName_found_iff he hs hkind hvalid
  rw [hname] at hfound
  exact ⟨e, s, x, he, hs, hkind, hsight, hfound.mpr ⟨176, hstands⟩, 176, hname ▸ hstands, hbegins⟩

/-- The name is found in the second file, where it only ends the longer name. -/
theorem longerName_found : ∃ e s x,
    named.extract [⟨"Foo", "health", 16⟩] .standard "" = .ok e ∧
      s ∈ e.sets.flatMap (·.signatures) ∧ s.kind = .typeName ∧ longerNamed.sight s = .ok x ∧
      x.found = true ∧ ¬NameBegins longerNamed.bytes s.structName := by
  have hvalid : longerNamed.validImage = .ok longerNamed.image :=
    validImage_ofCode (by decide +kernel)
  have hstands : NameStandsAt longerNamed.bytes "Foo" 167 := by decide +kernel
  have hplaces : (Pattern.ofBytes (textBytes (typeNameText "Foo"))).findAll longerNamed.bytes
      ⟨0, longerNamed.bytes.size⟩ = [167] := by decide +kernel
  have hends : beginsTypeName longerNamed.bytes 167 = false := by decide +kernel
  obtain ⟨e, s, he, hs, hkind, hname⟩ := exists_named_signature
  obtain ⟨x, hsight, hfound⟩ :=
    exists_sight_typeName (typeNameSignature?_of_extract he hs hkind) hvalid
  rw [hname] at hfound
  refine ⟨e, s, x, he, hs, hkind, hsight, hfound.mpr ⟨167, hstands⟩, ?_⟩
  intro hbegins
  rcases hname ▸ hbegins with ⟨site, hsite, htrue⟩
  have hmatch := Pattern.matchesAt_ofBytes_iff.mpr hsite
  have hplace : site ∈ [167] := by
    rw [← hplaces, Pattern.mem_findAll]
    exact ⟨by decide +kernel, Nat.zero_le _, (Pattern.matchesAt_iff.mp hmatch).1, hmatch⟩
  rw [List.mem_singleton.mp hplace, hends] at htrue
  exact absurd htrue Bool.false_ne_true

end Binary

end LayoutWatch
