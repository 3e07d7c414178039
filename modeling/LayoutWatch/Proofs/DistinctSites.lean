import LayoutWatch.Proofs.ExtractionTally
import LayoutWatch.Proofs.SightingMeaning

/-!
# Places that are counted once

The index and the search go through one executable section after the other, and the parts of the
file that the sections are read from may overlap. What lies in two of them is listed and counted
twice, so every place is counted once exactly when no two executable sections share a byte.
-/

namespace LayoutWatch

/-- Some offset lies in both windows. -/
def Window.Meets (v w : Window) : Prop :=
  ∃ offset, v.contains offset = true ∧ w.contains offset = true

/-- The pattern that is looked for, with its context or without. -/
def Signature.Patterns.searched (p : Signature.Patterns) (withContext : Bool) : Pattern :=
  if withContext then p.whole else p.main

/-- It can be checked whether a pattern stands at a site. -/
instance Pattern.decidableStandsIn (p : Pattern) (bytes : Bytes) (w : Window) (site : Nat) :
    Decidable (p.StandsIn bytes w site) :=
  decidable_of_iff (w.start ≤ site ∧ site + p.length ≤ w.stop ∧ p.matchesAt bytes site = true)
    ⟨fun h => ⟨h.1, h.2.1, h.2.2⟩, fun h => ⟨h.start_le, h.le_stop, h.agrees⟩⟩

namespace Binary

/-- No byte of the file lies in two executable sections. Unlike in `SectionsApart`, a section
without bytes may stand anywhere. -/
def SectionsDisjoint (b : Binary) : Prop :=
  b.executableWindows.Pairwise fun v w => ¬v.Meets w

/-- The offsets at which an access with this displacement lies in some executable section. -/
def accessPlaces (b : Binary) (displacement : Nat) : Finset Nat :=
  (Finset.range b.bytes.size).filter fun site => ∃ w ∈ b.executableWindows,
    w.start ≤ site ∧ site + Access.length ≤ w.stop ∧
      ((Access.at? b.bytes site).map (·.1)) = some displacement

/-- The offsets at which a pattern stands in some window of a kind. -/
def patternPlaces (b : Binary) (kind : Signature.Kind) (p : Pattern) : Finset Nat :=
  (Finset.range b.bytes.size).filter fun site =>
    ∃ w ∈ b.searchWindows kind, p.StandsIn b.bytes w site

/-- Every place in the file is counted once, in the index and in the search. -/
structure CountsPlacesOnce (b : Binary) : Prop where
  /-- No access is listed twice under a displacement. -/
  nodup_lookup : ∀ displacement, (((AccessIndex.build b.image b.bytes).lookup displacement).map
    (·.fileOffset)).Nodup
  /-- A field is ambiguous when it is accessed at more places than are accepted. -/
  ambiguous_iff : ∀ options d,
    Extraction.attempt b (AccessIndex.build b.image b.bytes) options d = .ambiguous ↔
      options.maxOccurrences.toNat < (b.accessPlaces d.offset.toNat).card
  /-- The signature of a field is scored by the number of places at which the field is accessed. -/
  score_eq : ∀ options d s,
    Extraction.attempt b (AccessIndex.build b.image b.bytes) options d = .covered s →
      s.baseConfidence = Score.extracted .fieldAccess (b.accessPlaces d.offset.toNat).card
  /-- A sighting counts the places at which the pattern that it was seen by stands. -/
  occurrences_eq : ∀ s p x, s.patterns = .ok p → b.sight s = .ok x →
    x.occurrences = (b.patternPlaces s.kind (p.searched x.contextMatched)).card

variable {b : Binary} {s : Signature} {p : Signature.Patterns} {image : Image}

/-- A list has as many entries as there are places in it exactly when it lists none twice. -/
theorem length_eq_card_iff {sites : List Nat} {places : Finset Nat}
    (hmem : ∀ site, site ∈ places ↔ site ∈ sites) :
    sites.length = places.card ↔ sites.Nodup := by
  have hplaces : places = sites.toFinset := by
    ext site
    rw [hmem, List.mem_toFinset]
  have hcard : sites.toFinset.card = (sites : Multiset Nat).toFinset.card := rfl
  rw [hplaces, hcard, ← Multiset.coe_nodup, ← Multiset.toFinset_card_eq_card_iff_nodup,
    Multiset.coe_card]
  exact eq_comm

section Search

/-- The windows that a kind is looked for in lie inside the file. -/
theorem stop_le_of_mem_searchWindows {kind : Signature.Kind} {w : Window}
    (hw : w ∈ b.searchWindows kind) : w.stop ≤ b.bytes.size := by
  rw [searchWindows] at hw
  split at hw
  · exact Image.stop_le_of_mem_executableWindows hw
  · rw [List.mem_singleton.mp hw]

/-- The places of a pattern are the sites that the search lists. -/
theorem mem_patternPlaces {kind : Signature.Kind} {q : Pattern} (hne : q ≠ []) (site : Nat) :
    site ∈ b.patternPlaces kind q ↔ site ∈ b.sites (b.searchWindows kind) q := by
  rw [patternPlaces, Finset.mem_filter, Finset.mem_range, mem_sites_iff_standsIn hne,
    and_iff_right_iff_imp]
  intro hplace
  obtain ⟨w, hw, hstands⟩ := hplace
  have hlength := List.length_pos_iff.mpr hne
  have hstop := hstands.le_stop
  have hfile := stop_le_of_mem_searchWindows hw
  omega

/-- Where no two windows share a byte, the search lists no site twice. -/
theorem nodup_sites {windows : List Window} {q : Pattern} (hne : q ≠ [])
    (hdisjoint : windows.Pairwise fun v w => ¬v.Meets w) : (b.sites windows q).Nodup := by
  refine List.nodup_flatMap.mpr ⟨fun w _ => ?_, hdisjoint.imp fun hapart => ?_⟩
  · exact (Pattern.pairwise_findAll q b.bytes w).imp Nat.ne_of_lt
  · intro site hfirst hsecond
    have hv := (Pattern.mem_findAll_iff_standsIn hne).mp hfirst
    have hw := (Pattern.mem_findAll_iff_standsIn hne).mp hsecond
    have hlength := List.length_pos_iff.mpr hne
    have hvstop := hv.le_stop
    have hwstop := hw.le_stop
    exact hapart ⟨site, Window.contains_iff.mpr ⟨hv.start_le, by omega⟩,
      Window.contains_iff.mpr ⟨hw.start_le, by omega⟩⟩

/-- Where the executable sections share no byte, the windows of any kind do not. -/
theorem SectionsDisjoint.searchWindows (h : b.SectionsDisjoint) (kind : Signature.Kind) :
    (b.searchWindows kind).Pairwise fun v w => ¬v.Meets w := by
  rw [Binary.searchWindows]
  split
  · exact h
  · exact List.pairwise_singleton _ _

/-- A sighting counts the sites of the pattern that it was seen by. -/
theorem occurrences_eq_length_sites : (b.sightPatterns s p).occurrences =
    (b.sites (b.searchWindows s.kind)
      (p.searched (b.sightPatterns s p).contextMatched)).length := by
  rw [occurrences_sightPatterns, takenSites_eq_hits]
  cases hmatched : (b.sightPatterns s p).contextMatched with
  | false => rfl
  | true =>
    have hcontext : p.hasContext = true := by
      by_contra hnone
      rw [contextMatched_sightPatterns, contextSites, if_neg hnone] at hmatched
      exact Bool.noConfusion hmatched
    rw [hits, if_pos rfl, contextSites, if_pos hcontext, List.length_map]
    rfl

/-- The pattern that is looked for has cells where the bare pattern has. -/
theorem searched_ne_nil (hne : p.main ≠ []) (withContext : Bool) :
    p.searched withContext ≠ [] := by
  cases withContext with
  | true => exact p.whole_ne_nil hne
  | false => exact hne

/-- A sighting counts the places of its pattern exactly when the search lists none twice. -/
theorem occurrences_eq_card_iff (hne : p.main ≠ []) :
    (b.sightPatterns s p).occurrences = (b.patternPlaces s.kind
      (p.searched (b.sightPatterns s p).contextMatched)).card ↔
      (b.sites (b.searchWindows s.kind)
        (p.searched (b.sightPatterns s p).contextMatched)).Nodup := by
  rw [occurrences_eq_length_sites]
  exact length_eq_card_iff (mem_patternPlaces (searched_ne_nil hne _))

end Search

section Index

/-- The places of a displacement are the offsets that the index lists under it. -/
theorem mem_accessPlaces (displacement site : Nat) : site ∈ b.accessPlaces displacement ↔
    site ∈ ((AccessIndex.build b.image b.bytes).lookup displacement).map (·.fileOffset) := by
  rw [accessPlaces, Finset.mem_filter, Finset.mem_range, List.mem_map]
  simp only [AccessIndex.mem_lookup_build]
  constructor
  · intro hplace
    obtain ⟨-, w, hw, hstart, hstop, hread⟩ := hplace
    obtain ⟨⟨d, a⟩, hat, rfl⟩ := Option.map_eq_some_iff.mp hread
    have hoffset : a.fileOffset = site := (Access.at?_eq_some_iff.mp hat).1
    subst hoffset
    exact ⟨a, ⟨w, hw, hstart, hstop, hat⟩, rfl⟩
  · intro hlisted
    obtain ⟨a, ⟨w, hw, hstart, hstop, hat⟩, rfl⟩ := hlisted
    have hfile := Image.stop_le_of_mem_executableWindows hw
    have hlength : 0 < Access.length := by decide
    exact ⟨by omega, w, hw, hstart, hstop, by rw [hat, Option.map_some]⟩

/-- Where the executable sections share no byte, no access is listed twice. -/
theorem nodup_lookup (h : b.SectionsDisjoint) (displacement : Nat) :
    (((AccessIndex.build b.image b.bytes).lookup displacement).map (·.fileOffset)).Nodup := by
  rw [AccessIndex.lookup_build_eq_flatMap, List.map_flatMap]
  refine List.nodup_flatMap.mpr ⟨fun w _ => ?_, h.imp fun hapart => ?_⟩
  · exact List.pairwise_map.mpr
      ((Access.pairwise_ofWindow b.bytes displacement w).imp Nat.ne_of_lt)
  · intro site hfirst hsecond
    obtain ⟨a, ha, rfl⟩ := List.mem_map.mp hfirst
    obtain ⟨a', ha', hsame⟩ := List.mem_map.mp hsecond
    obtain ⟨hvstart, hvstop, -⟩ := Access.mem_ofWindow.mp ha
    obtain ⟨hwstart, hwstop, -⟩ := Access.mem_ofWindow.mp ha'
    have hlength : 0 < Access.length := by decide
    exact hapart ⟨a.fileOffset, Window.contains_iff.mpr ⟨hvstart, by omega⟩,
      Window.contains_iff.mpr ⟨by omega, by omega⟩⟩

/-- Where the executable sections share no byte, a field has as many accesses as places. -/
theorem length_lookup_eq_card (h : b.SectionsDisjoint) (displacement : Nat) :
    ((AccessIndex.build b.image b.bytes).lookup displacement).length =
      (b.accessPlaces displacement).card := by
  have hnodup := nodup_lookup h displacement
  rw [← (length_eq_card_iff (mem_accessPlaces displacement)).mpr hnodup, List.length_map]

end Index

/-- Where the executable sections share no byte, every place is counted once. -/
theorem countsPlacesOnce_of_disjoint (hvalid : b.validImage = .ok image)
    (h : b.SectionsDisjoint) : b.CountsPlacesOnce where
  nodup_lookup := nodup_lookup h
  ambiguous_iff := by
    intro options d
    rw [Extraction.attempt_eq_ambiguous_iff, length_lookup_eq_card h]
  score_eq := by
    intro options d s hcovered
    obtain ⟨first, rest, hlookup, -, -, rfl⟩ := Extraction.attempt_eq_covered_iff.mp hcovered
    rw [← length_lookup_eq_card h, hlookup]
    rfl
  occurrences_eq := by
    intro s p x hpatterns hsight
    have hsame : b.sightPatterns s p = x := (sight_eq_ok_iff hvalid hpatterns).mp hsight
    have hne := main_ne_nil hpatterns
    subst hsame
    exact (occurrences_eq_card_iff hne).mpr
      (nodup_sites (searched_ne_nil hne _) (h.searchWindows s.kind))

/-- A single open cell, which stands on every byte. -/
def anyByte : Signature.Patterns := ⟨[.wildcard], none, none⟩

/-- The open cell stands on each byte of a window that lies inside the file. -/
theorem standsIn_anyByte {w : Window} (hfile : w.stop ≤ b.bytes.size) {offset : Nat}
    (h : w.contains offset = true) : anyByte.main.StandsIn b.bytes w offset := by
  obtain ⟨hstart, hstop⟩ := Window.contains_iff.mp h
  have hlength : anyByte.main.length = 1 := rfl
  refine ⟨hstart, by omega, Pattern.matchesAt_iff.mpr ⟨by omega, ?_⟩⟩
  intro i cell hcell
  have hi : i < anyByte.main.length := (List.getElem?_eq_some_iff.mp hcell).1
  have hwild : cell = .wildcard := by
    have hmem : cell ∈ anyByte.main := List.mem_of_getElem? hcell
    exact List.mem_singleton.mp hmem
  subst hwild
  exact ⟨b.bytes[offset + i], Array.getElem?_eq_getElem (by omega), rfl⟩

/-- Where the bytes of the executable sections are listed once each, the sections share none. -/
theorem sectionsDisjoint_of_nodup
    (h : (b.sites b.executableWindows anyByte.main).Nodup) : b.SectionsDisjoint := by
  refine (List.nodup_flatMap.mp h).2.imp_of_mem fun hv hw hdisjoint hmeets => ?_
  obtain ⟨offset, hfirst, hsecond⟩ := hmeets
  have hne : anyByte.main ≠ [] := List.cons_ne_nil _ _
  have hvstands := standsIn_anyByte (Image.stop_le_of_mem_executableWindows hv) hfirst
  have hwstands := standsIn_anyByte (Image.stop_le_of_mem_executableWindows hw) hsecond
  exact hdisjoint ((Pattern.mem_findAll_iff_standsIn hne).mpr hvstands)
    ((Pattern.mem_findAll_iff_standsIn hne).mpr hwstands)

/-- Every place in a valid image is counted once, in the index and in the search, exactly when no
two executable sections share a byte of the file. -/
theorem countsPlacesOnce_iff (hvalid : b.validImage = .ok image) :
    b.CountsPlacesOnce ↔ b.SectionsDisjoint := by
  constructor
  · intro honce
    -- The search for a single open cell lists every byte of the executable sections.
    have hpatterns : (anyByte.signature .fieldAccess health).patterns = .ok anyByte :=
      anyByte.patterns_signature _ _ (by decide) (by decide) (by decide)
    have hcount := honce.occurrences_eq _ _ _ hpatterns (sight_eq hvalid hpatterns)
    have hnodup := (occurrences_eq_card_iff (List.cons_ne_nil _ _)).mp hcount
    have hsearched : anyByte.searched (b.sightPatterns (anyByte.signature .fieldAccess health)
        anyByte).contextMatched = anyByte.main := by
      rw [contextMatched_sightPatterns]
      rfl
    rw [hsearched] at hnodup
    exact sectionsDisjoint_of_nodup hnodup
  · exact countsPlacesOnce_of_disjoint hvalid

/-- The only section of a file counts every place once. -/
theorem countsPlacesOnce_loner : loner.CountsPlacesOnce := by
  have hvalid : loner.validImage = .ok loner.image := validImage_ofCode (by decide)
  refine (countsPlacesOnce_iff hvalid).mpr ?_
  rw [SectionsDisjoint, loner, executableWindows_ofCode (by decide)]
  exact List.pairwise_singleton _ _

/-- A load from offset 16 that two sections are read from. -/
def mirrored : Binary :=
  ofSections "mirrored.exe" [⟨200, 207⟩, ⟨200, 207⟩] [0x48, 0x8B, 0x81, 0x10, 0, 0, 0]

/-- The load is listed twice and seen twice, though it stands at one place. -/
theorem not_countsPlacesOnce_mirrored :
    ((AccessIndex.build mirrored.image mirrored.bytes).lookup 16).map (·.fileOffset) = [200, 200] ∧
      (∃ x, mirrored.sight (anyLoad.signature .fieldAccess health) = .ok x ∧ x.occurrences = 2 ∧
        (mirrored.patternPlaces .fieldAccess anyLoad.main).card = 1) ∧
      ¬mirrored.CountsPlacesOnce := by
  have hvalid : mirrored.validImage = .ok mirrored.image := if_pos (by decide +kernel)
  have hlookup : ((AccessIndex.build mirrored.image mirrored.bytes).lookup 16).map
      (·.fileOffset) = [200, 200] := by decide +kernel
  refine ⟨hlookup, ⟨_, sight_eq hvalid patterns_anyLoad, by decide +kernel, by decide +kernel⟩, ?_⟩
  intro honce
  have hnodup := honce.nodup_lookup 16
  rw [hlookup] at hnodup
  exact absurd hnodup (by decide)

end Binary

end LayoutWatch
