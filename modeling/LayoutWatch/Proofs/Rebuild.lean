import LayoutWatch.Proofs.CodeImage
import LayoutWatch.Proofs.Delta
import LayoutWatch.Proofs.Extraction

/-!
# A rebuild that changes a displacement

A binary that differs from another one in a single displacement still holds every signature made
from that access. Where the pattern with its context singles the access out, the new displacement
is read there, and a scan reports it as one change, unless it is negative or the old one.
-/

namespace LayoutWatch

/-- An extraction has this signature for a declared field. -/
structure Extraction.Emits (e : Extraction) (d : Declaration) (s : Signature) : Prop where
  /-- The signature was extracted. -/
  mem : s ∈ e.sets.flatMap (·.signatures)
  /-- It leads to an access of the field. -/
  kind : s.kind = .fieldAccess
  /-- It names the struct of the field. -/
  structName : s.structName = d.structName
  /-- It names the field. -/
  fieldName : s.fieldName = d.fieldName
  /-- It expects the declared offset. -/
  offset : s.expectedOffset = d.offset

/-- The displacement that an access is listed under is below the limit. -/
theorem Access.displacement_lt {bytes : Bytes} {offset displacement : Nat} {a : Access}
    (h : at? bytes offset = some (displacement, a)) : displacement < displacementLimit := by
  obtain ⟨-, -, hdecode⟩ := at?_eq_some_iff.mp h
  obtain ⟨_, _, _, _, _, _, -, -, hlimit⟩ := decode?_eq_some hdecode
  exact hlimit

/-- A displacement that is not negative is a 64-bit number of the same value. -/
theorem toNat_ofNat_displacement {displacement : Int} (hpos : 0 ≤ displacement)
    (hrange : displacement < 0x80000000) :
    ((UInt64.ofNat displacement.toNat).toNat : Int) = displacement := by
  have hfits : displacement.toNat < UInt64.size := by
    rw [UInt64.size]
    omega
  rw [UInt64.toNat_ofNat_of_lt' hfits]
  omega

/-- The delta from an offset to a displacement is their difference, since nothing is clamped. -/
theorem Delta.between_displacement {offset : UInt64} {displacement : Int}
    (hlimit : offset.toNat < Access.displacementLimit) (hpos : 0 ≤ displacement)
    (hrange : displacement < 0x80000000) :
    between offset (UInt64.ofNat displacement.toNat) = displacement - offset.toNat := by
  rw [Access.displacementLimit] at hlimit
  have hvalue := toNat_ofNat_displacement hpos hrange
  rw [between_eq_clamp, hvalue]
  exact clamp_of_mem (by rw [least]; omega) (by rw [greatest]; omega)

/-- What is carried where a displacement is read: its value, unless it is negative. -/
theorem Sighting.observe_of_displacement {b : Binary} {s : Signature} {p : Pattern} {run : Window}
    {site : Nat} {displacement : Int} (hrun : p.wildcardRun? = some run)
    (hread : p.displacement? b.bytes site = some displacement) :
    observe b s p site =
      if 0 ≤ displacement then some (UInt64.ofNat displacement.toNat) else none := by
  unfold observe
  rw [hrun, hread]
  cases displacement with
  | ofNat n => rfl
  | negSucc n => rfl

namespace Binary

/-- A binary that was built again: its headers are the same, and its bytes differ at most in the
displacement of the instruction at a site. -/
structure Rebuilt (b b' : Binary) (site : Nat) : Prop where
  /-- The files have one size. -/
  size_eq : b'.bytes.size = b.bytes.size
  /-- In front of the displacement and behind it the bytes are the same. -/
  bytes_eq : ∀ i, i < site + 3 ∨ site + 7 ≤ i → b'.bytes[i]? = b.bytes[i]?
  /-- The headers say the same. -/
  image_eq : b'.image = b.image

/-- The displacement of the instruction at a site. -/
def displacementAt (b : Binary) (site : Nat) : Int :=
  Pattern.signedLittleEndian (b.bytes.within ⟨site + 3, site + 7⟩)

variable {b b' : Binary} {a : Access} {displacement : Nat}

/-- The executable windows of a binary that was built again are the same. -/
theorem Rebuilt.executableWindows_eq {site : Nat} (h : b.Rebuilt b' site) :
    b'.executableWindows = b.executableWindows := by
  rw [executableWindows, executableWindows, h.image_eq, h.size_eq]

/-- A binary that was built again is valid if the other one is. -/
theorem Rebuilt.validImage {site : Nat} {image : Image} (h : b.Rebuilt b' site)
    (hvalid : b.validImage = .ok image) : b'.validImage = .ok image := by
  unfold Binary.validImage at hvalid ⊢
  rw [h.image_eq]
  split at hvalid
  · next hok => rw [if_pos hok, hvalid]
  · exact absurd hvalid (by simp)

/-- The pattern of an access reads the new displacement at its place. -/
theorem Rebuilt.displacement?_eq (h : b.Rebuilt b' a.fileOffset)
    (ha : a ∈ (AccessIndex.build b.image b.bytes).lookup displacement) :
    a.pattern.displacement? b'.bytes a.fileOffset = some (b'.displacementAt a.fileOffset) := by
  obtain ⟨-, -, -, -, hat⟩ := AccessIndex.mem_lookup_build.mp ha
  obtain ⟨-, hread, -⟩ := Access.at?_eq_some_iff.mp hat
  have hfit := (Bytes.slice?_eq_some_iff.mp hread).1
  rw [Access.length] at hfit
  have hinside : a.fileOffset + 3 + 4 ≤ b'.bytes.size := by
    rw [h.size_eq]
    omega
  rw [Access.displacement?_pattern hat, Bytes.slice?, if_pos hinside, Option.map_some]
  rfl

/-- The pattern of an access is still found at its place. -/
theorem Rebuilt.mem_sites (h : b.Rebuilt b' a.fileOffset)
    (ha : a ∈ (AccessIndex.build b.image b.bytes).lookup displacement) :
    a.fileOffset ∈ b'.sites (b'.searchWindows .fieldAccess) a.pattern :=
  mem_sites_pattern ha h.size_eq h.executableWindows_eq fun _ hi =>
    h.bytes_eq _ (Or.inl (Nat.add_lt_add_left hi _))

/-- Where the pattern with its context has a site, the search takes its sites. -/
theorem takenSites_of_whole {kind : Signature.Kind} {p : Signature.Patterns} {taken : List Nat}
    (h : (b.sites (b.searchWindows kind) p.whole).map (· + p.lead.length) = taken)
    (hne : taken ≠ []) : b.takenSites kind p = taken := by
  cases hcontext : p.hasContext with
  | true =>
    have hsites : b.contextSites kind p = taken := by rw [contextSites, if_pos hcontext, h]
    rw [takenSites_of_context (hsites ▸ hne), hsites]
  | false =>
    -- Without context the pattern with its context is the bare pattern.
    have hnone : b.contextSites kind p = [] := by simp [contextSites, hcontext]
    obtain ⟨main, before, behind⟩ := p
    obtain ⟨rfl, rfl⟩ : before = none ∧ behind = none := by
      simpa [Signature.Patterns.hasContext] using hcontext
    rw [takenSites, hnone]
    simpa [Signature.Patterns.whole, Signature.Patterns.lead] using h

/-- The signature that is emitted for a field is made from the first access with its offset. -/
theorem patterns_of_emits {fields : List Declaration} {options : ExtractOptions}
    {extractedAt : String} {e : Extraction} {d : Declaration} {s : Signature} {index : AccessIndex}
    {first : Access} {rest : List Access} (h : b.extract fields options extractedAt = .ok e)
    (hemits : e.Emits d s) (hindex : b.index = .ok index)
    (hfirst : index.lookup d.offset.toNat = first :: rest) :
    first ∈ (AccessIndex.build b.image b.bytes).lookup d.offset.toNat ∧
      s.patterns = .ok (b.accessPatterns options first) := by
  rw [Binary.index, validImage_of_extract h] at hindex
  obtain rfl : AccessIndex.build b.image b.bytes = index := Except.ok.inj hindex
  have hmem : first ∈ (AccessIndex.build b.image b.bytes).lookup d.offset.toNat :=
    hfirst ▸ List.mem_cons_self
  refine ⟨hmem, ?_⟩
  rcases (mem_signatures_iff h).mp hemits.mem with ⟨d', -, hcovered⟩ | htype
  · obtain ⟨first', rest', hfirst', -, -, rfl⟩ := Extraction.attempt_eq_covered_iff.mp hcovered
    have hoffset : d'.offset = d.offset := hemits.offset
    rw [hoffset, hfirst] at hfirst'
    obtain ⟨rfl, rfl⟩ := List.cons.inj hfirst'
    exact patterns_fieldSignature (hoffset ▸ hmem) options d' _
  · obtain ⟨structName, hstruct⟩ := typeNameSignature?_of_mem htype
    have hkind := (patterns_typeNameSignature hstruct).1
    rw [hemits.kind] at hkind
    exact absurd hkind (by decide)

/-- A signature is looked for in a valid binary by its patterns. -/
theorem sight_eq {s : Signature} {p : Signature.Patterns} {image : Image}
    (hvalid : b.validImage = .ok image) (hpatterns : s.patterns = .ok p) :
    b.sight s = .ok (b.sightPatterns s p) := by
  simp [sight, sightValid, hvalid, hpatterns]

/-- A scan for one signature reports on its sighting. -/
theorem scan_singleton {s : Signature} {p : Signature.Patterns} {image : Image}
    (hvalid : b.validImage = .ok image) (hpatterns : s.patterns = .ok p) {set : SignatureSet}
    (hset : set.signatures = [s]) (scannedAt : String) :
    b.scan [set] scannedAt =
      .ok (ScanReport.ofSightings b.identifier b.hash scannedAt [b.sightPatterns s p]) := by
  refine scan_eq hvalid ?_ scannedAt
  rw [List.flatMap_singleton, hset, mapM_eq_ok_iff]
  exact .cons (by rw [sightValid, hpatterns]) .nil

section Emitted

variable {fields : List Declaration} {options : ExtractOptions} {extractedAt : String}
  {e : Extraction} {d : Declaration} {s : Signature} {index : AccessIndex} {first : Access}
  {rest : List Access}

/-- Where the access is singled out, its new displacement is seen at its place. -/
theorem Rebuilt.sightPatterns_of_single (h : b.Rebuilt b' a.fileOffset)
    (ha : a ∈ (AccessIndex.build b.image b.bytes).lookup displacement)
    (hkind : s.kind = .fieldAccess)
    (hsingle : (b'.sites b'.executableWindows (b.accessPatterns options a).whole).map
      (· + (b.accessPatterns options a).lead.length) = [a.fileOffset]) :
    (b'.sightPatterns s (b.accessPatterns options a)).found = true ∧
      (b'.sightPatterns s (b.accessPatterns options a)).fileOffset = some a.fileOffset ∧
      (b'.sightPatterns s (b.accessPatterns options a)).occurrences = 1 ∧
      (b'.sightPatterns s (b.accessPatterns options a)).observedOffset =
        if 0 ≤ b'.displacementAt a.fileOffset then
          some (UInt64.ofNat (b'.displacementAt a.fileOffset).toNat)
        else none := by
  obtain ⟨-, -, -, -, hat⟩ := AccessIndex.mem_lookup_build.mp ha
  have hrun : (b.accessPatterns options a).main.wildcardRun? = some Access.displacementWindow :=
    (Access.pattern_shape hat).2
  have htaken : b'.takenSites s.kind (b.accessPatterns options a) = [a.fileOffset] := by
    rw [hkind]
    exact takenSites_of_whole hsingle (List.cons_ne_nil _ _)
  obtain ⟨hfound, hplace, hcount, hobserved⟩ := sightPatterns_singleton htaken
  refine ⟨hfound, hplace, hcount, ?_⟩
  rw [hobserved]
  exact Sighting.observe_of_displacement hrun (h.displacement?_eq ha)

/-- A sighting of one signature is reported as one change when it saw another offset than the
expected one, and as none otherwise. -/
theorem changes_of_observed {x : Sighting} {displacement : Int} {offset : UInt64}
    {identifier hash scannedAt : String} (hlimit : offset.toNat < Access.displacementLimit)
    (hrange : displacement < 0x80000000) (hfound : x.found = true)
    (hexpected : x.expectedOffset = offset)
    (hobserved : x.observedOffset =
      if 0 ≤ displacement then some (UInt64.ofNat displacement.toNat) else none) :
    (0 ≤ displacement ∧ displacement ≠ offset.toNat → ∃ c,
        (ScanReport.ofSightings identifier hash scannedAt [x]).changes = [c] ∧
        c.structName = x.structName ∧ c.fieldName = x.fieldName ∧
        c.delta = displacement - offset.toNat) ∧
      (¬(0 ≤ displacement ∧ displacement ≠ offset.toNat) →
        (ScanReport.ofSightings identifier hash scannedAt [x]).changes = []) := by
  constructor
  · intro hmoved
    rcases hmoved with ⟨hpos, hne⟩
    rw [if_pos hpos] at hobserved
    have hother : UInt64.ofNat displacement.toNat ≠ x.expectedOffset := by
      intro heq
      rw [hexpected] at heq
      exact hne (by rw [← toNat_ofNat_displacement hpos hrange, heq])
    have hdelta : Delta.between x.expectedOffset (UInt64.ofNat displacement.toNat) =
        displacement - offset.toNat := by
      rw [hexpected]
      exact Delta.between_displacement hlimit hpos hrange
    refine ⟨_, by
      rw [ScanReport.ofSightings, OffsetChange.ofSightings_singleton hfound hobserved hother]
      rfl, rfl, rfl, hdelta⟩
  · intro hsame
    rw [ScanReport.changes_eq_nil_iff]
    simp only [List.mem_singleton, forall_eq, Sighting.isChanged, hexpected, hobserved, hfound,
      Bool.true_and]
    by_cases hpos : 0 ≤ displacement
    · have heq : displacement = offset.toNat := by
        by_contra hne
        exact hsame ⟨hpos, hne⟩
      simp [heq]
    · simp [hpos]

/-- The signature of a field is found in every binary that was built again with another
displacement at the first access of the field. Where the search for the pattern with its context
yields that access alone, the displacement is seen there, and a scan reports it as the one change
unless it is negative or the declared offset. -/
theorem rebuilt_displacement_seen (h : b.extract fields options extractedAt = .ok e)
    (hemits : e.Emits d s) (hindex : b.index = .ok index)
    (hfirst : index.lookup d.offset.toNat = first :: rest)
    (hrebuilt : b.Rebuilt b' first.fileOffset) :
    (∃ x, b'.sight s = .ok x ∧ x.found = true) ∧
      ∃ p, s.patterns = .ok p ∧
        ((b'.sites b'.executableWindows p.whole).map (· + p.lead.length) = [first.fileOffset] →
          (∃ x, b'.sight s = .ok x ∧ x.found = true ∧ x.fileOffset = some first.fileOffset ∧
            x.occurrences = 1 ∧ x.observedOffset =
              if 0 ≤ b'.displacementAt first.fileOffset then
                some (UInt64.ofNat (b'.displacementAt first.fileOffset).toNat)
              else none) ∧
          ∀ set scannedAt, set.signatures = [s] → ∃ r, b'.scan [set] scannedAt = .ok r ∧
            (0 ≤ b'.displacementAt first.fileOffset ∧
                b'.displacementAt first.fileOffset ≠ d.offset.toNat →
              ∃ c, r.changes = [c] ∧ c.structName = d.structName ∧ c.fieldName = d.fieldName ∧
                c.delta = b'.displacementAt first.fileOffset - d.offset.toNat) ∧
            (¬(0 ≤ b'.displacementAt first.fileOffset ∧
                b'.displacementAt first.fileOffset ≠ d.offset.toNat) → r.changes = [])) := by
  obtain ⟨hmem, hpatterns⟩ := patterns_of_emits h hemits hindex hfirst
  obtain ⟨-, -, -, -, hat⟩ := AccessIndex.mem_lookup_build.mp hmem
  have hvalid := hrebuilt.validImage (validImage_of_extract h)
  have hsight := sight_eq hvalid hpatterns
  obtain ⟨hstruct, hfield, -, hexpected⟩ :=
    sightPatterns_names b' s (b.accessPatterns options first)
  refine ⟨⟨_, hsight, ?_⟩, b.accessPatterns options first, hpatterns, fun hsingle => ?_⟩
  · rw [found_sightPatterns, hemits.kind]
    exact takenSites_ne_nil (hrebuilt.mem_sites hmem)
  · have hseen := hrebuilt.sightPatterns_of_single (s := s) hmem hemits.kind hsingle
    refine ⟨⟨_, hsight, hseen⟩, fun set scannedAt hset => ?_⟩
    obtain ⟨hfound, -, -, hobserved⟩ := hseen
    have hrange := Pattern.displacement?_lt (hrebuilt.displacement?_eq hmem)
    refine ⟨_, scan_singleton hvalid hpatterns hset scannedAt, ?_⟩
    rw [← hemits.structName, ← hemits.fieldName, ← hstruct, ← hfield]
    exact changes_of_observed (Access.displacement_lt hat) hrange hfound
      (hexpected.trans hemits.offset) hobserved

end Emitted

/-- Another word of the same length leaves the bytes in front of it and behind it where they are. -/
theorem getElem?_exchange {front word word' back : List UInt8}
    (hlength : word'.length = word.length) {i : Nat}
    (hi : i < front.length ∨ front.length + word.length ≤ i) :
    (front ++ word' ++ back)[i]? = (front ++ word ++ back)[i]? := by
  rcases hi with hi | hi
  · rw [List.append_assoc, List.append_assoc, List.getElem?_append_left hi,
      List.getElem?_append_left hi]
  · rw [List.getElem?_append_right, List.getElem?_append_right, List.length_append,
      List.length_append, hlength]
    · rw [List.length_append]
      omega
    · rw [List.length_append]
      omega

/-- Code around a word of four bytes may be built again with another word. -/
theorem rebuilt_ofCode {identifier identifier' : String} {front word word' back : List UInt8}
    (hword : word.length = 4) (hword' : word'.length = 4)
    (hsize : (front ++ word ++ back).length < UInt32.size) :
    (ofCode identifier (front ++ word ++ back)).Rebuilt
      (ofCode identifier' (front ++ word' ++ back)) (157 + front.length) := by
  have hlength : (front ++ word' ++ back).length = (front ++ word ++ back).length := by
    simp only [List.length_append, hword, hword']
  have hheaders : (codeHeaders (front ++ word ++ back).length ++ front).length =
      160 + front.length := List.length_append
  have hbytes : ∀ w, codeHeaders (front ++ word ++ back).length ++ (front ++ w ++ back) =
      codeHeaders (front ++ word ++ back).length ++ front ++ w ++ back := by
    intro w
    simp only [List.append_assoc]
  refine ⟨by rw [size_ofCode, size_ofCode, hlength], fun i hi => ?_, ?_⟩
  · rw [ofCode, ofCode, List.getElem?_toArray, List.getElem?_toArray, hlength, hbytes, hbytes]
    refine getElem?_exchange (hword'.trans hword.symm) ?_
    rw [hheaders, hword]
    omega
  · rw [image_ofCode (hlength ▸ hsize), image_ofCode hsize, hlength]

/-- Filler bytes, a load from this offset, and filler bytes again. -/
def loadFrom (identifier : String) (offset : UInt8) : Binary :=
  ofCode identifier (List.replicate 8 0xCC ++ [0x48, 0x8B, 0x81] ++ [offset, 0, 0, 0] ++
    List.replicate 8 0xCC)

/-- The access of the load from offset 16. -/
def loadAccess : Access := ⟨168, .load, [0x48, 0x8B, 0x81, 0x10, 0, 0, 0]⟩

/-- A field that is loaded from offset 16 in one file and from offset 32 in the next one is
reported to have moved by 16. -/
theorem rebuilt_displacement_seen_load : ∃ e s set r,
    (loadFrom "v1.exe" 0x10).extract [⟨"Foo", "ammo", 16⟩] .standard "" = .ok e ∧
      e.Emits ⟨"Foo", "ammo", 16⟩ s ∧ set.signatures = [s] ∧
      (loadFrom "v1.exe" 0x10).Rebuilt (loadFrom "v2.exe" 0x20) loadAccess.fileOffset ∧
      (loadFrom "v2.exe" 0x20).scan [set] "" = .ok r ∧ ∃ c, r.changes = [c] ∧ c.delta = 16 := by
  have hvalid : (loadFrom "v1.exe" 0x10).validImage = .ok (loadFrom "v1.exe" 0x10).image :=
    validImage_ofCode (by decide)
  have hindex : (loadFrom "v1.exe" 0x10).index = .ok (AccessIndex.build
      (loadFrom "v1.exe" 0x10).image (loadFrom "v1.exe" 0x10).bytes) := by
    rw [Binary.index, hvalid]
    rfl
  have hlookup : (AccessIndex.build (loadFrom "v1.exe" 0x10).image
      (loadFrom "v1.exe" 0x10).bytes).lookup 16 = [loadAccess] := by decide +kernel
  obtain ⟨e, he⟩ := exists_extract hvalid [⟨"Foo", "ammo", 16⟩] .standard ""
  have hemits : e.Emits ⟨"Foo", "ammo", 16⟩ (Extraction.fieldSignature (loadFrom "v1.exe" 0x10)
      .standard ⟨"Foo", "ammo", 16⟩ loadAccess 1) :=
    ⟨(mem_signatures_iff he).mpr (Or.inl ⟨_, List.mem_singleton_self _,
      Extraction.attempt_eq_covered_iff.mpr ⟨loadAccess, [], hlookup, by decide, by decide, rfl⟩⟩),
      rfl, rfl, rfl, rfl⟩
  have hrebuilt : (loadFrom "v1.exe" 0x10).Rebuilt (loadFrom "v2.exe" 0x20)
      loadAccess.fileOffset := rebuilt_ofCode rfl rfl (by decide)
  obtain ⟨-, p, hpatterns, hdetected⟩ :=
    rebuilt_displacement_seen he hemits hindex hlookup hrebuilt
  have hsame := hpatterns.symm.trans
    (patterns_fieldSignature (hlookup ▸ List.mem_cons_self) .standard ⟨"Foo", "ammo", 16⟩ 1)
  obtain rfl := Except.ok.inj hsame
  obtain ⟨-, hscan⟩ := hdetected (by decide +kernel)
  obtain ⟨r, hr, hchange, -⟩ := hscan ⟨"Foo", "", none, 1, "", [_]⟩ "" rfl
  obtain ⟨c, hc, -, -, hdelta⟩ := hchange (by decide +kernel)
  refine ⟨e, _, _, r, he, hemits, rfl, hrebuilt, hr, c, hc, ?_⟩
  rw [hdelta]
  decide +kernel

end Binary

end LayoutWatch
