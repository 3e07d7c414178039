import LayoutWatch.Extraction
import LayoutWatch.Proofs.Access
import LayoutWatch.Proofs.Ordered
import LayoutWatch.Proofs.Pattern.Text
import LayoutWatch.Proofs.Scan

/-!
# What an extraction emits

Every signature of an extraction is read back as the patterns it was made from, and its pattern
matches at the site it was made from. So the search for it takes some site of the same binary.
The site of a field is among those that are taken unless a section ends inside the instruction.
-/

namespace LayoutWatch

namespace Extraction

/-- The pattern of some bytes of context; none for no bytes. -/
def contextPattern? (bytes : List UInt8) : Option Pattern :=
  if bytes.isEmpty then none else some (Pattern.ofBytes bytes)

/-- The text of context is read as the pattern of its bytes. -/
@[simp] theorem parseOptional_contextText? (bytes : List UInt8) :
    Signature.parseOptional (contextText? bytes) = .ok (contextPattern? bytes) := by
  unfold contextText? contextPattern?
  cases bytes with
  | nil => rfl
  | cons b rest =>
    have hparse := Pattern.parse_text (p := Pattern.ofBytes (b :: rest)) (by simp [Pattern.ofBytes])
    simp only [List.isEmpty_cons, Bool.false_eq_true, if_false, Signature.parseOptional,
      Pattern.textOfBytes, hparse]
    rfl

/-- Where there is no pattern of context, there are no bytes of it either. -/
@[simp] theorem getD_contextPattern? (bytes : List UInt8) :
    (contextPattern? bytes).getD [] = Pattern.ofBytes bytes := by
  cases bytes with
  | nil => rfl
  | cons b rest => rfl

section Context

variable {bytes : Bytes} {windows : List Window} {site length : Nat}

/-- The window that is looked at holds the site. -/
theorem start_le_of_find? {w : Window} (h : windows.find? (·.contains site) = some w) :
    w.start ≤ site := by
  have hcontains : w.contains site = true := by simpa using List.find?_some h
  exact (Window.contains_iff.mp hcontains).1

/-- The bytes stand around a site, inside a window. -/
structure Surround (bytes : Bytes) (w : Window) (site length : Nat) (before behind : List UInt8) :
    Prop where
  /-- The bytes in front do not reach beyond the start of the window. -/
  start_le : w.start + before.length ≤ site
  /-- They stand directly in front. -/
  front : bytes.slice? (site - before.length) before.length = some before
  /-- The bytes behind stand directly behind. -/
  back : bytes.slice? (site + length) behind.length = some behind
  /-- They do not reach beyond the stop of the window. -/
  le_stop : site + length + behind.length ≤ w.stop

/-- The bytes that the context of a site is written from. -/
def contextBytes (bytes : Bytes) (windows : List Window) (site length width : Nat) :
    List UInt8 × List UInt8 :=
  match windows.find? (·.contains site) with
  | none => ([], [])
  | some w =>
    let afterStart := min (site + length) w.stop
    (bytes.within ⟨max (site - width) w.start, site⟩,
      bytes.within ⟨afterStart, min (afterStart + width) w.stop⟩)

/-- The context of a site is the text of these bytes; no width leaves none of them. -/
theorem contextAround_eq (bytes : Bytes) (windows : List Window) (site length width : Nat) :
    contextAround bytes windows site length width =
      (contextText? (contextBytes bytes windows site length width).1,
        contextText? (contextBytes bytes windows site length width).2) := by
  unfold contextAround contextBytes
  by_cases hwidth : width = 0
  · rw [if_pos hwidth, hwidth]
    cases hfound : windows.find? (·.contains site) with
    | none => rfl
    | some w =>
      have hstart : max site w.start = site := Nat.max_eq_left (start_le_of_find? hfound)
      simp [hstart, Bytes.within, contextText?]
  · rw [if_neg hwidth]
    cases windows.find? (·.contains site) with
    | none => rfl
    | some w => rfl

/-- The bytes stand around the site, when the window that is looked at holds the whole
instruction. -/
theorem surround_contextBytes {w : Window} (hw : windows.find? (·.contains site) = some w)
    (hstop : w.stop ≤ bytes.size) (hfit : site + length ≤ w.stop) (width : Nat) :
    Surround bytes w site length (contextBytes bytes windows site length width).1
      (contextBytes bytes windows site length width).2 := by
  have hstart := start_le_of_find? hw
  have hmin : min (site + length) w.stop = site + length := Nat.min_eq_left hfit
  have hfront : (bytes.within ⟨max (site - width) w.start, site⟩).length =
      site - max (site - width) w.start := Bytes.length_within (by dsimp only; omega)
  have hback : (bytes.within ⟨site + length, min (site + length + width) w.stop⟩).length =
      min (site + length + width) w.stop - (site + length) :=
    Bytes.length_within (by dsimp only; omega)
  simp only [contextBytes, hw, hmin]
  refine ⟨by omega, ?_, ?_, by omega⟩
  · rw [hfront, Bytes.slice?_eq_some_iff]
    exact ⟨by omega, by congr 2 <;> omega⟩
  · rw [hback, Bytes.slice?_eq_some_iff]
    exact ⟨by omega, by congr 2; omega⟩

end Context

/-- The places that are kept are among those that were given. -/
theorem mem_of_mem_dropOverlaps {width free site : Nat} {places : List Nat}
    (h : site ∈ dropOverlaps width free places) : site ∈ places := by
  induction places generalizing free with
  | nil => simp [dropOverlaps] at h
  | cons place rest ih =>
    rw [dropOverlaps] at h
    split at h
    · rcases List.mem_cons.mp h with rfl | h
      · exact List.mem_cons_self
      · exact List.mem_cons_of_mem place (ih h)
    · exact List.mem_cons_of_mem place (ih h)

/-- The sets of an extraction hold its signatures and no others. -/
theorem mem_setsOf {b : Binary} {version : Option String} {extractedAt : String}
    {signatures : List Signature} {s : Signature} :
    s ∈ (setsOf b version extractedAt signatures).flatMap (·.signatures) ↔ s ∈ signatures := by
  simp only [setsOf, List.mem_flatMap, List.mem_map, Prod.exists, Ordered.mem_collect]
  constructor
  · intro hlisted
    rcases hlisted with ⟨_, ⟨structName, own, ⟨-, rfl⟩, rfl⟩, hs⟩
    obtain ⟨t, ht, heq⟩ := List.mem_map.mp (Ordered.mem_valuesOf.mp hs)
    obtain rfl : t = s := congrArg Prod.snd heq
    exact ht
  · intro hs
    have hpair : (s.structName, s) ∈ signatures.map fun s => (s.structName, s) :=
      List.mem_map.mpr ⟨s, hs, rfl⟩
    exact ⟨_, ⟨s.structName, _, ⟨⟨s.structName, s, ⟨s, hs, rfl⟩, rfl⟩, rfl⟩, rfl⟩,
      Ordered.mem_valuesOf.mpr hpair⟩

/-- A field is covered by the signature of its first access, when there are not too many and the
score is high enough. -/
theorem attempt_eq_covered_iff {b : Binary} {index : AccessIndex} {options : ExtractOptions}
    {d : Declaration} {s : Signature} :
    attempt b index options d = .covered s ↔ ∃ first rest,
      index.lookup d.offset.toNat = first :: rest ∧
      rest.length + 1 ≤ options.maxOccurrences.toNat ∧
      options.minConfidence ≤ Score.extracted .fieldAccess (rest.length + 1) ∧
      s = fieldSignature b options d first (rest.length + 1) := by
  unfold attempt
  cases hlookup : index.lookup d.offset.toNat with
  | nil => simp
  | cons first rest =>
    dsimp only
    by_cases hmany : options.maxOccurrences.toNat < rest.length + 1
    · rw [if_pos hmany]
      simp only [reduceCtorEq, false_iff]
      intro hcovered
      rcases hcovered with ⟨_, _, heq, hfew, -⟩
      obtain ⟨rfl, rfl⟩ := List.cons.inj heq
      omega
    · by_cases hweak : Score.extracted .fieldAccess (rest.length + 1) < options.minConfidence
      · rw [if_neg hmany, if_pos hweak]
        simp only [reduceCtorEq, false_iff]
        intro hcovered
        rcases hcovered with ⟨_, _, heq, -, hstrong, -⟩
        obtain ⟨rfl, rfl⟩ := List.cons.inj heq
        exact absurd hweak (UInt8.not_lt.mpr hstrong)
      · rw [if_neg hmany, if_neg hweak, Attempt.covered.injEq]
        constructor
        · rintro rfl
          exact ⟨first, rest, rfl, Nat.le_of_not_lt hmany, UInt8.not_lt.mp hweak, rfl⟩
        · intro hcovered
          rcases hcovered with ⟨_, _, heq, -, -, rfl⟩
          obtain ⟨rfl, rfl⟩ := List.cons.inj heq
          rfl

/-- Only a field that is covered has a signature. -/
@[simp] theorem signature?_eq_some_iff {tried : Attempt} {s : Signature} :
    tried.signature? = some s ↔ tried = .covered s := by
  cases tried <;> simp [Attempt.signature?]

end Extraction

open Extraction

/-- The window of an executable section lies inside the file. -/
theorem Image.stop_le_of_mem_executableWindows {image : Image} {size : Nat} {w : Window}
    (hw : w ∈ image.executableWindows size) : w.stop ≤ size := by
  obtain ⟨_, -, rfl⟩ := List.mem_map.mp hw
  exact Nat.min_le_right _ _

namespace Binary

variable {b : Binary} {a : Access} {displacement : Nat} {options : ExtractOptions}

/-- An extraction has a result for valid images only. -/
theorem validImage_of_extract {fields : List Declaration} {extractedAt : String} {e : Extraction}
    (h : b.extract fields options extractedAt = .ok e) : b.validImage = .ok b.image := by
  unfold extract index validImage at h
  rw [validImage]
  split
  · rfl
  · next hinvalid => simp [hinvalid, Except.map] at h

/-- A valid image has an extraction. -/
theorem exists_extract {image : Image} (hvalid : b.validImage = .ok image)
    (fields : List Declaration) (options : ExtractOptions) (extractedAt : String) :
    ∃ e, b.extract fields options extractedAt = .ok e := by
  rw [extract, index, hvalid]
  exact ⟨_, rfl⟩

/-- The signatures of an extraction are those of the fields that are covered and those of the type
names. -/
theorem mem_signatures_iff {fields : List Declaration} {extractedAt : String} {e : Extraction}
    (h : b.extract fields options extractedAt = .ok e) {s : Signature} :
    s ∈ e.sets.flatMap (·.signatures) ↔
      (∃ d ∈ fields, attempt b (AccessIndex.build b.image b.bytes) options d = .covered s) ∨
        s ∈ typeNameSignatures b options fields := by
  rw [extract, index, validImage_of_extract h] at h
  simp only [Except.map, Except.ok.injEq] at h
  rw [← h, mem_setsOf, List.mem_append]
  simp only [List.mem_filterMap, List.mem_map, exists_exists_and_eq_and, signature?_eq_some_iff]

/-- Each signature of a type name is that of one struct. -/
theorem typeNameSignature?_of_mem {fields : List Declaration} {s : Signature}
    (h : s ∈ typeNameSignatures b options fields) :
    ∃ structName, typeNameSignature? b options structName = some s := by
  unfold typeNameSignatures at h
  split at h
  · obtain ⟨structName, -, hsignature⟩ := List.mem_filterMap.mp h
    exact ⟨structName, hsignature⟩
  · exact absurd h List.not_mem_nil

/-- A site of a pattern lies with the whole pattern inside one of the windows. -/
theorem mem_sites {windows : List Window} {p : Pattern} {site : Nat} :
    site ∈ b.sites windows p ↔ ∃ w ∈ windows, p ≠ [] ∧ w.start ≤ site ∧
      site + p.length ≤ w.stop ∧ p.matchesAt b.bytes site = true := by
  simp only [sites, List.mem_flatMap, Pattern.mem_findAll]

/-- The pattern of an access is found at its place in every binary of the same size and with the
same executable windows that differs in the displacement only. -/
theorem mem_sites_pattern (h : a ∈ (AccessIndex.build b.image b.bytes).lookup displacement)
    {b' : Binary} (hsize : b'.bytes.size = b.bytes.size)
    (hwindows : b'.executableWindows = b.executableWindows)
    (hagree : ∀ i < 3, b'.bytes[a.fileOffset + i]? = b.bytes[a.fileOffset + i]?) :
    a.fileOffset ∈ b'.sites (b'.searchWindows .fieldAccess) a.pattern := by
  obtain ⟨w, hw, hstart, hstop, hat⟩ := AccessIndex.mem_lookup_build.mp h
  have hlength := (Access.pattern_shape hat).1
  have hw' : w ∈ b'.searchWindows .fieldAccess := by
    change w ∈ b'.executableWindows
    rw [hwindows]
    exact hw
  exact mem_sites.mpr ⟨w, hw', Access.pattern_ne_nil hat, hstart, hlength ▸ hstop,
    Access.matchesAt_pattern hat hsize hagree⟩

/-- The patterns of a signature that is made from an access. -/
def accessPatterns (b : Binary) (options : ExtractOptions) (a : Access) : Signature.Patterns :=
  let context := contextBytes b.bytes b.executableWindows a.fileOffset Access.length
    options.contextBytes.toNat
  ⟨a.pattern, contextPattern? context.1, contextPattern? context.2⟩

/-- The signature of a field is read back as the patterns it was made from. -/
theorem patterns_fieldSignature
    (h : a ∈ (AccessIndex.build b.image b.bytes).lookup displacement) (options : ExtractOptions)
    (d : Declaration) (sites : Nat) :
    (fieldSignature b options d a sites).patterns = .ok (b.accessPatterns options a) := by
  obtain ⟨-, -, -, -, hat⟩ := AccessIndex.mem_lookup_build.mp h
  have hlength := (Access.pattern_shape hat).1
  have hmain : Pattern.parse (Pattern.text (Pattern.ofBytesMasked a.bytes
      Access.displacementWindow)) = .ok a.pattern := Pattern.parse_text (Access.pattern_ne_nil hat)
  have hwidth : (Pattern.ofBytesMasked a.bytes Access.displacementWindow).length =
      Access.length := hlength
  simp only [Signature.patterns, fieldSignature, hmain, hwidth, contextAround_eq,
    parseOptional_contextText?]
  rfl

/-- The site that a signature was made from is among those that the search takes, unless the
first window that holds the site ends inside the instruction. -/
theorem mem_takenSites_own (h : a ∈ (AccessIndex.build b.image b.bytes).lookup displacement)
    {w : Window} (hw : b.executableWindows.find? (·.contains a.fileOffset) = some w)
    (hfit : a.fileOffset + Access.length ≤ w.stop) (options : ExtractOptions) :
    a.fileOffset ∈ b.takenSites .fieldAccess (b.accessPatterns options a) := by
  obtain ⟨-, -, -, -, hat⟩ := AccessIndex.mem_lookup_build.mp h
  have hmem := List.mem_of_find?_eq_some hw
  obtain ⟨hstart, hfront, hback, hstop⟩ := surround_contextBytes hw
    (Image.stop_le_of_mem_executableWindows hmem) hfit options.contextBytes.toNat
  have hlength := (Access.pattern_shape hat).1
  rw [takenSites, accessPatterns]
  dsimp only
  generalize (contextBytes b.bytes b.executableWindows a.fileOffset Access.length
    options.contextBytes.toNat).1 = before at *
  generalize (contextBytes b.bytes b.executableWindows a.fileOffset Access.length
    options.contextBytes.toNat).2 = behind at *
  split
  · exact mem_sites_pattern h rfl rfl fun i _ => rfl
  · next hcontext =>
    unfold contextSites at hcontext ⊢
    split
    · have hfrontCells : (Pattern.ofBytes before).length = before.length := List.length_map _
      have hbackCells : (Pattern.ofBytes behind).length = behind.length := List.length_map _
      have hsite : a.fileOffset - before.length + before.length = a.fileOffset := by omega
      refine List.mem_map.mpr ⟨a.fileOffset - before.length, mem_sites.mpr ⟨w, hmem, ?_⟩, ?_⟩
      · simp only [Signature.Patterns.whole, Signature.Patterns.lead, getD_contextPattern?]
        refine ⟨by simp [Access.pattern_ne_nil hat], by omega, ?_, ?_⟩
        · simp only [List.length_append, hfrontCells, hbackCells, hlength]
          omega
        · rw [Pattern.matchesAt_append, Pattern.matchesAt_append, List.length_append, hfrontCells,
            hlength, ← Nat.add_assoc, hsite, Pattern.ofBytes_eq_ofBytesMasked,
            Pattern.ofBytes_eq_ofBytesMasked]
          exact ⟨⟨Pattern.matchesAt_ofBytesMasked hfront _, Access.matchesAt_pattern hat rfl
            fun i _ => rfl⟩, Pattern.matchesAt_ofBytesMasked hback _⟩
      · simp only [Signature.Patterns.lead, getD_contextPattern?, hfrontCells, hsite]
    · next hnone => simp [hnone] at hcontext

/-- The signature of a type name is named after the struct, expects offset zero and is read back as
the bytes of the name without context. It is made where the name begins somewhere. -/
theorem typeNameSignature?_parts {structName : String} {s : Signature}
    (h : typeNameSignature? b options structName = some s) :
    s.kind = .typeName ∧ s.structName = structName ∧ s.expectedOffset = 0 ∧
      s.patterns =
        .ok ⟨Pattern.ofBytes (textBytes (typeNameText structName)), none, none⟩ ∧
      typeNameSites b.bytes structName ≠ [] := by
  unfold typeNameSignature? at h
  dsimp only at h
  split at h
  · exact absurd h (by simp)
  · next hsites =>
    simp only [Option.some.injEq] at h
    subst h
    obtain ⟨hsome, -⟩ := not_or.mp hsites
    obtain ⟨site, hsite⟩ := List.exists_mem_of_length_pos (Nat.pos_of_ne_zero hsome)
    have hfound := mem_of_mem_dropOverlaps (List.mem_filter.mp hsite).1
    have hne := (Pattern.mem_findAll.mp hfound).1
    refine ⟨rfl, rfl, rfl, ?_, List.ne_nil_of_mem hsite⟩
    simp only [Signature.patterns, Pattern.textOfBytes, Pattern.parse_text hne]
    rfl

/-- The signature of a type name expects offset zero, leaves nothing open, has no context and is
found. -/
theorem patterns_typeNameSignature {structName : String} {s : Signature}
    (h : typeNameSignature? b options structName = some s) :
    s.kind = .typeName ∧ s.expectedOffset = 0 ∧ ∃ p : Pattern, p.wildcardRun? = none ∧
      s.patterns = .ok ⟨p, none, none⟩ ∧ b.sites (b.searchWindows .typeName) p ≠ [] := by
  obtain ⟨hkind, -, hexpected, hpatterns, hsites⟩ := typeNameSignature?_parts h
  obtain ⟨site, hsite⟩ := List.exists_mem_of_ne_nil _ hsites
  have hfound := mem_of_mem_dropOverlaps (List.mem_filter.mp hsite).1
  refine ⟨hkind, hexpected, _, Pattern.wildcardRun?_ofBytes _, hpatterns, ?_⟩
  exact List.ne_nil_of_mem (List.mem_flatMap.mpr ⟨_, List.mem_singleton_self _, hfound⟩)

end Binary

end LayoutWatch
