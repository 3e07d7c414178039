import LayoutWatch.Proofs.Pattern.NormalText
import LayoutWatch.Proofs.Rebuild
import LayoutWatch.Proofs.RecordedSite
import LayoutWatch.Proofs.SearchSites

/-!
# What a sighting says about its binary

A signature is found exactly when its bare pattern stands somewhere in the part of the file that
its kind is looked for in. The reported site is such a place, with the context around it where the
context is said to agree; the reported offset is read there, and no other one is read at more of
the sites that count. A signature that is not found has no site and no offset, whether or not its
pattern leaves a displacement open.
-/

namespace LayoutWatch

namespace Sighting

variable {sites : List Nat} {observe : Nat → Option UInt64} {first site : Nat}

/-- The site that is reported with an offset is the first of the list to carry it. -/
theorem head?_carriers_of_chooseSite {offset : UInt64}
    (hchosen : chooseSite first sites observe = (site, some offset)) :
    (carriers sites observe offset).head? = some site := by
  obtain ⟨hcarried, hsite, -⟩ := chooseSite_eq_some_iff.mp hchosen
  rw [hsite, List.headD_eq_head?_getD, List.head?_eq_some_head hcarried, Option.getD_some]

/-- The site that is reported is one of those that were given. -/
theorem mem_of_chooseSite (hne : sites ≠ []) {observed : Option UInt64}
    (hchosen : chooseSite (sites.headD 0) sites observe = (site, observed)) : site ∈ sites := by
  cases observed with
  | none =>
    rw [(chooseSite_eq_none_iff.mp hchosen).1, List.headD_eq_head?_getD,
      List.head?_eq_some_head hne, Option.getD_some]
    exact List.head_mem hne
  | some offset =>
    have hcarries := List.mem_of_mem_head? (head?_carriers_of_chooseSite hchosen)
    exact (List.mem_filter.mp hcarries).1

end Sighting

namespace Binary

/-- Number of the sites at which a value is read as the displacement. -/
def readings (b : Binary) (p : Pattern) (sites : List Nat) (value : Nat) : Nat :=
  sites.countP fun site => p.displacement? b.bytes site == some (value : Int)

/-- The offset of a sighting is borne out by its sites: it is read at the reported one, and no value
is read at more of them. -/
structure BornOutBy (b : Binary) (p : Pattern) (sites : List Nat) (site : Nat) (offset : UInt64) :
    Prop where
  /-- The reported site is one of them. -/
  mem : site ∈ sites
  /-- The offset is read there. -/
  reads : p.displacement? b.bytes site = some (offset.toNat : Int)
  /-- No value is read more often. -/
  most : ∀ value, b.readings p sites value ≤ b.readings p sites offset.toNat

/-- What a sighting says holds of the binary. -/
structure Shows (b : Binary) (s : Signature) (p : Signature.Patterns) (x : Sighting) : Prop where
  /-- The signature is found exactly when its pattern stands in some window. -/
  found_iff : x.found = true ↔
    ∃ w ∈ b.searchWindows s.kind, ∃ site, p.main.StandsIn b.bytes w site
  /-- The context agrees exactly when there is some and the pattern stands amid it. -/
  contextMatched_iff : x.contextMatched = true ↔ p.hasContext = true ∧
    ∃ w ∈ b.searchWindows s.kind, ∃ site, p.StandsAmid b.bytes w site
  /-- The pattern stands at the reported site, and with the context where that agrees. -/
  site : x.found = true → ∃ site, x.fileOffset = some site ∧
    ∃ w ∈ b.searchWindows s.kind, p.main.StandsIn b.bytes w site ∧
      (x.contextMatched = true → p.StandsAmid b.bytes w site)
  /-- The reported offset is the expected one where nothing is left open, and borne out by the sites
  otherwise. -/
  observed : ∀ offset, x.observedOffset = some offset →
    p.main.wildcardRun? = none ∧ offset = s.expectedOffset ∨
      ∃ site, x.fileOffset = some site ∧
        b.BornOutBy p.main (b.hits s.kind p x.contextMatched) site offset
  /-- A signature that is found has an offset unless its pattern leaves a displacement open and
  none is read that is not negative. -/
  unobserved : x.found = true → x.observedOffset = none →
    p.main.wildcardRun? ≠ none ∧ ∀ site ∈ b.hits s.kind p x.contextMatched, ∀ value : Nat,
      p.main.displacement? b.bytes site ≠ some (value : Int)
  /-- A signature that is not found has no site and no offset. -/
  missing : x.found = false → x.fileOffset = none ∧ x.observedOffset = none
  /-- Every site counts. -/
  occurrences : x.occurrences = (b.hits s.kind p x.contextMatched).length
  /-- So there are at least as many as there are places at which the sites lie. -/
  places_le : ∀ places : Finset Nat, (∀ site ∈ places, site ∈ b.hits s.kind p x.contextMatched) →
    places.card ≤ x.occurrences
  /-- A signature is found exactly when there is one. -/
  occurrences_pos : 1 ≤ x.occurrences ↔ x.found = true

variable {b : Binary} {s : Signature} {p : Signature.Patterns} {sites : List Nat}

/-- Where a displacement is left open, the sites at which an offset is read are its carriers. -/
theorem readings_eq_length_carriers {main : Pattern} {run : Window}
    (hrun : main.wildcardRun? = some run) (s : Signature) (sites : List Nat) (offset : UInt64) :
    b.readings main sites offset.toNat =
      (Sighting.carriers sites (Sighting.observe b s main) offset).length := by
  rw [readings, Sighting.carriers, ← List.countP_eq_length_filter]
  refine List.countP_congr fun site _ => ?_
  rw [beq_iff_eq, beq_iff_eq, Sighting.observe_eq_some_iff hrun]

/-- A value that is read somewhere is that of an offset. -/
theorem exists_offset_of_readings {main : Pattern} {value : Nat}
    (hread : 0 < b.readings main sites value) : ∃ offset : UInt64, offset.toNat = value := by
  obtain ⟨site, -, hsite⟩ := List.countP_pos_iff.mp hread
  have hlimit := Pattern.displacement?_lt (beq_iff_eq.mp hsite)
  refine ⟨UInt64.ofNat value, UInt64.toNat_ofNat_of_lt' ?_⟩
  rw [UInt64.size]
  omega

/-- The offset that wins the vote among the sites is borne out by them. -/
theorem bornOutBy_of_chooseSite {main : Pattern} {run : Window}
    (hrun : main.wildcardRun? = some run) {first site : Nat} {offset : UInt64}
    (hchosen : Sighting.chooseSite first sites (Sighting.observe b s main) = (site, some offset)) :
    b.BornOutBy main sites site offset := by
  obtain ⟨-, -, hahead⟩ := Sighting.chooseSite_eq_some_iff.mp hchosen
  have hmem : site ∈ Sighting.carriers sites (Sighting.observe b s main) offset :=
    List.mem_of_mem_head? (Sighting.head?_carriers_of_chooseSite hchosen)
  have hboth := List.mem_filter.mp hmem
  refine ⟨hboth.1, (Sighting.observe_eq_some_iff hrun).mp (beq_iff_eq.mp hboth.2), ?_⟩
  intro value
  by_cases hread : b.readings main sites value = 0
  · omega
  · obtain ⟨other, rfl⟩ := exists_offset_of_readings (Nat.pos_of_ne_zero hread)
    by_cases hsame : other = offset
    · rw [hsame]
    · rw [readings_eq_length_carriers hrun s] at hread ⊢
      rw [readings_eq_length_carriers hrun s]
      have hcarries := List.length_pos_iff.mp (Nat.pos_of_ne_zero hread)
      have hvote := hahead other hsame hcarries
      rw [Sighting.Ahead] at hvote
      omega

/-- Where no site carries an offset, a displacement is left open and none is read that is not
negative. -/
theorem unread_of_chooseSite {main : Pattern} (hne : sites ≠ []) {first site : Nat}
    (hchosen : Sighting.chooseSite first sites (Sighting.observe b s main) = (site, none)) :
    main.wildcardRun? ≠ none ∧
      ∀ place ∈ sites, ∀ value : Nat, main.displacement? b.bytes place ≠ some (value : Int) := by
  have hnone := (Sighting.chooseSite_eq_none_iff.mp hchosen).2
  obtain ⟨place, hplace⟩ := List.exists_mem_of_ne_nil _ hne
  cases hrun : main.wildcardRun? with
  | none =>
    have hexpected := hnone place hplace
    rw [Sighting.observe_eq_expected hrun] at hexpected
    exact absurd hexpected (by simp)
  | some run =>
    refine ⟨by simp, fun other hother value hread => ?_⟩
    have hcounted : 0 < b.readings main sites value :=
      List.countP_pos_iff.mpr ⟨other, hother, beq_iff_eq.mpr hread⟩
    obtain ⟨offset, rfl⟩ := exists_offset_of_readings hcounted
    have hcarried := (Sighting.observe_eq_some_iff (s := s) hrun).mpr hread
    rw [hnone other hother] at hcarried
    exact absurd hcarried (by simp)

/-- A site that counts is one of the bare pattern, and one with the context where that is asked
for. -/
theorem exists_window_of_mem_hits (hne : p.main ≠ []) {kind : Signature.Kind} {withContext : Bool}
    {site : Nat} (h : site ∈ b.hits kind p withContext) :
    ∃ w ∈ b.searchWindows kind, p.main.StandsIn b.bytes w site ∧
      (withContext = true → p.StandsAmid b.bytes w site) := by
  cases withContext with
  | true =>
    obtain ⟨-, w, hw, hamid⟩ := (mem_contextSites hne).mp h
    exact ⟨w, hw, hamid.main, fun _ => hamid⟩
  | false =>
    obtain ⟨w, hw, hstands⟩ := (mem_sites_iff_standsIn hne).mp h
    exact ⟨w, hw, hstands, fun hcontext => Bool.noConfusion hcontext⟩

/-- The search takes a site exactly when the bare pattern stands in some window. -/
theorem takenSites_ne_nil_iff (hne : p.main ≠ []) {kind : Signature.Kind} :
    b.takenSites kind p ≠ [] ↔
      ∃ w ∈ b.searchWindows kind, ∃ site, p.main.StandsIn b.bytes w site := by
  constructor
  · intro htaken
    obtain ⟨site, hsite⟩ := List.exists_mem_of_ne_nil _ htaken
    rw [takenSites] at hsite
    split at hsite
    · obtain ⟨w, hw, hstands⟩ := (mem_sites_iff_standsIn hne).mp hsite
      exact ⟨w, hw, site, hstands⟩
    · obtain ⟨-, w, hw, hamid⟩ := (mem_contextSites hne).mp hsite
      exact ⟨w, hw, site, hamid.main⟩
  · intro hstands
    obtain ⟨w, hw, site, hsite⟩ := hstands
    exact takenSites_ne_nil ((mem_sites_iff_standsIn hne).mpr ⟨w, hw, hsite⟩)

/-- What the sighting of a pattern with at least one cell says holds of the binary. -/
theorem shows_sightPatterns (hne : p.main ≠ []) : b.Shows s p (b.sightPatterns s p) where
  found_iff := by simp [takenSites_ne_nil_iff hne]
  contextMatched_iff := by
    have hsome : (!(b.contextSites s.kind p).isEmpty) = true ↔ ∃ site,
        site ∈ b.contextSites s.kind p := by
      rw [Bool.not_eq_true', List.isEmpty_eq_false_iff_exists_mem]
    rw [contextMatched_sightPatterns, hsome]
    simp only [mem_contextSites hne, exists_and_left]
    rw [exists_comm]
    simp only [exists_and_left]
  site := by
    intro hfound
    obtain ⟨site, hplace, hchosen⟩ := choice_sightPatterns hfound
    have hmem := Sighting.mem_of_chooseSite (found_sightPatterns.mp hfound) hchosen
    rw [takenSites_eq_hits] at hmem
    exact ⟨site, hplace, exists_window_of_mem_hits hne hmem⟩
  observed := by
    intro offset hobserved
    obtain ⟨site, hplace, hchosen⟩ := choice_of_observed hobserved
    cases hrun : p.main.wildcardRun? with
    | none =>
      obtain ⟨hcarried, -, -⟩ := Sighting.chooseSite_eq_some_iff.mp hchosen
      have hread := Sighting.observe_headD hcarried
      rw [Sighting.observe_eq_expected hrun] at hread
      exact Or.inl ⟨rfl, (Option.some.inj hread).symm⟩
    | some run =>
      refine Or.inr ⟨site, hplace, ?_⟩
      rw [← takenSites_eq_hits]
      exact bornOutBy_of_chooseSite hrun hchosen
  unobserved := by
    intro hfound hnone
    obtain ⟨site, -, hchosen⟩ := choice_sightPatterns hfound
    rw [hnone] at hchosen
    rw [← takenSites_eq_hits]
    exact unread_of_chooseSite (found_sightPatterns.mp hfound) hchosen
  missing := by
    intro hnot
    rw [sightPatterns_of_not_found hnot]
    exact ⟨rfl, rfl⟩
  occurrences := by simp [takenSites_eq_hits]
  places_le := by
    intro places hplaces
    rw [occurrences_sightPatterns, takenSites_eq_hits]
    have hsubset : places ⊆ (b.hits s.kind p (b.sightPatterns s p).contextMatched).toFinset :=
      fun site hsite => List.mem_toFinset.mpr (hplaces site hsite)
    exact (Finset.card_le_card hsubset).trans (List.toFinset_card_le _)
  occurrences_pos := by
    simp [Nat.succ_le_iff, List.length_pos_iff]

variable {image : Image}

/-- In a valid image a signature whose patterns are known has the sighting of its patterns. -/
theorem sight_eq_ok_iff (hvalid : b.validImage = .ok image) (hpatterns : s.patterns = .ok p)
    {x : Sighting} : b.sight s = .ok x ↔ b.sightPatterns s p = x := by
  rw [sight_eq hvalid hpatterns, Except.ok.injEq]

/-- A pattern that was read has cells. -/
theorem main_ne_nil (hpatterns : s.patterns = .ok p) : p.main ≠ [] :=
  Pattern.ne_nil_of_parse (parse_of_patterns hpatterns)

/-- A signature has a sighting in a valid image, and what it says holds of the binary. -/
theorem sight_shows (hvalid : b.validImage = .ok image)
    (hpatterns : s.patterns = .ok p) : ∃ x, b.sight s = .ok x ∧ b.Shows s p x := by
  have hne := main_ne_nil hpatterns
  exact ⟨_, sight_eq hvalid hpatterns, shows_sightPatterns hne⟩

/-- A load with its displacement left open. -/
def openLoad : Pattern :=
  Pattern.ofBytesMasked [0x48, 0x8B, 0x81, 0, 0, 0, 0] Access.displacementWindow

/-- A load wherever it stands. -/
def anyLoad : Signature.Patterns := ⟨openLoad, none, none⟩

/-- A load behind another one from offset 32, with filler bytes in between. -/
def followingLoad : Signature.Patterns :=
  ⟨openLoad, some (Pattern.ofBytes ([0x20, 0, 0, 0] ++ List.replicate 8 0xCC)), none⟩

/-- The texts of the bare load are read back. -/
theorem patterns_anyLoad : (anyLoad.signature .fieldAccess health).patterns = .ok anyLoad :=
  anyLoad.patterns_signature _ _ (by decide) (by decide) (by decide)

/-- The texts of the load behind another one are read back. -/
theorem patterns_followingLoad :
    (followingLoad.signature .fieldAccess health).patterns = .ok followingLoad :=
  followingLoad.patterns_signature _ _ (by decide) (by decide) (by decide)

/-- The last of the loads that look alike is told from the others by the bytes in front. -/
theorem sight_shows_followingLoad : ∃ x,
    lookalikes.sight (followingLoad.signature .fieldAccess health) = .ok x ∧
      lookalikes.Shows (followingLoad.signature .fieldAccess health) followingLoad x ∧
      x.fileOffset = some 198 ∧ x.observedOffset = some 32 ∧ x.occurrences = 1 := by
  have hvalid : lookalikes.validImage = .ok lookalikes.image := validImage_ofCode (by decide)
  obtain ⟨x, hsight, hshows⟩ := sight_shows hvalid patterns_followingLoad
  refine ⟨x, hsight, hshows, ?_⟩
  rw [← (sight_eq_ok_iff hvalid patterns_followingLoad).mp hsight]
  decide +kernel

/-- The type name of a class, as a pattern that leaves nothing open. -/
def fooName : Signature.Patterns :=
  ⟨Pattern.ofBytes (Extraction.textBytes (Extraction.typeNameText "Foo")), none, none⟩

/-- A signature that is not found has no offset, even where its pattern leaves nothing open. -/
theorem missing_unobserved : ∃ x,
    (fooName.signature .typeName ⟨"Foo", Signature.anchorField, 0⟩).patterns = .ok fooName ∧
      loner.sight (fooName.signature .typeName ⟨"Foo", Signature.anchorField, 0⟩) = .ok x ∧
      x.observedOffset = none ∧ fooName.main.wildcardRun? = none := by
  have hvalid : loner.validImage = .ok loner.image := validImage_ofCode (by decide)
  have hpatterns : (fooName.signature .typeName ⟨"Foo", Signature.anchorField, 0⟩).patterns =
      .ok fooName := fooName.patterns_signature _ _ (by decide +kernel) (by decide) (by decide)
  refine ⟨_, hpatterns, sight_eq hvalid hpatterns, ?_⟩
  exact ⟨by decide +kernel, Pattern.wildcardRun?_ofBytes _⟩

end Binary

end LayoutWatch
