import LayoutWatch.Proofs.SightingMeaning

/-!
# Ties and the order of sections

Of the offsets that are carried by most sites the one whose first site stands lowest in the file is
reported, at that first site; and the first site is the one that the search comes to first, section
by section in the order of the table. So ties go to the lowest site of the file exactly when the
search comes to the lowest of the leading sites before the others that carry the same offset. Where
the sections stand in the table in the order of the file, it always does.
-/

namespace LayoutWatch

namespace Sighting

/-- A site with its offset comes first in the file: in front of the other sites that carry the
offset, and of those that carry another one as often. -/
structure ComesFirst (sites : List Nat) (observe : Nat → Option UInt64) (site : Nat)
    (offset : UInt64) : Prop where
  /-- The site carries the offset. -/
  carries : site ∈ carriers sites observe offset
  /-- No other site that does is lower. -/
  le_own : ∀ other ∈ carriers sites observe offset, site ≤ other
  /-- Every site that carries another offset of as many sites is higher. -/
  lt_rival : ∀ rival, rival ≠ offset →
    (carriers sites observe rival).length = (carriers sites observe offset).length →
      ∀ other ∈ carriers sites observe rival, site < other

/-- The site carries an offset that no other one is carried by more sites than. -/
def Leads (sites : List Nat) (observe : Nat → Option UInt64) (site : Nat) : Prop :=
  ∃ offset, site ∈ carriers sites observe offset ∧
    ∀ rival, (carriers sites observe rival).length ≤ (carriers sites observe offset).length

/-- The lowest of the leading sites is the first of the list to carry its offset. -/
def LowestLeadsOff (sites : List Nat) (observe : Nat → Option UInt64) : Prop :=
  ∀ low offset, low ∈ carriers sites observe offset → Leads sites observe low →
    (∀ site, Leads sites observe site → low ≤ site) →
      (carriers sites observe offset).head? = some low

section Vote

variable {sites : List Nat} {observe : Nat → Option UInt64} {site first : Nat} {offset : UInt64}

/-- A site carries one offset only. -/
theorem carriers_unique {other : UInt64} (h : site ∈ carriers sites observe offset)
    (hother : site ∈ carriers sites observe other) : offset = other := by
  have hcarried := beq_iff_eq.mp (List.mem_filter.mp h).2
  have hcarries := beq_iff_eq.mp (List.mem_filter.mp hother).2
  exact Option.some.inj (hcarried.symm.trans hcarries)

/-- What leads is carried by at least as many sites as any other offset. -/
theorem length_carriers_le_of_leads (h : site ∈ carriers sites observe offset)
    (hleads : Leads sites observe site) (rival : UInt64) :
    (carriers sites observe rival).length ≤ (carriers sites observe offset).length := by
  obtain ⟨other, hother, hmost⟩ := hleads
  have hsame := carriers_unique h hother
  exact hsame ▸ hmost rival

/-- The offset that is reported leads at each of its sites. -/
theorem leads_of_chooseSite (hchosen : chooseSite first sites observe = (site, some offset))
    {other : Nat} (hother : other ∈ carriers sites observe offset) :
    Leads sites observe other := by
  obtain ⟨-, -, hahead⟩ := chooseSite_eq_some_iff.mp hchosen
  refine ⟨offset, hother, fun rival => ?_⟩
  by_cases hsame : rival = offset
  · exact hsame ▸ Nat.le_refl _
  · by_cases hnone : carriers sites observe rival = []
    · rw [hnone]
      exact Nat.zero_le _
    · have hvote := hahead rival hsame hnone
      rw [Ahead] at hvote
      omega

/-- Where some site leads, there is a lowest one. -/
theorem exists_lowest_leading (hleads : Leads sites observe site) :
    ∃ low, Leads sites observe low ∧ ∀ other, Leads sites observe other → low ≤ other := by
  classical
  have hsome : ∃ low, Leads sites observe low := ⟨site, hleads⟩
  exact ⟨Nat.find hsome, Nat.find_spec hsome, fun other hother => Nat.find_min' hsome hother⟩

/-- A reported site that comes first in the file leads off: so does the lowest leading site. -/
theorem lowestLeadsOff_of_comesFirst
    (hchosen : chooseSite first sites observe = (site, some offset))
    (hfirst : ComesFirst sites observe site offset) : LowestLeadsOff sites observe := by
  intro low own hown hleads hlowest
  have hle := hlowest site (leads_of_chooseSite hchosen hfirst.carries)
  by_cases hsame : own = offset
  · subst hsame
    have hge := hfirst.le_own low hown
    have heq : low = site := by omega
    rw [heq]
    exact head?_carriers_of_chooseSite hchosen
  · have hmost := length_carriers_le_of_leads hown hleads offset
    have hfew := length_carriers_le_of_leads hfirst.carries
      (leads_of_chooseSite hchosen hfirst.carries) own
    have hgt := hfirst.lt_rival own hsame (by omega) low hown
    omega

/-- Where the lowest leading site leads off, it is the one that is reported, and it comes first in
the file. -/
theorem comesFirst_of_lowestLeadsOff
    (hchosen : chooseSite first sites observe = (site, some offset))
    (hlowest : LowestLeadsOff sites observe) : ComesFirst sites observe site offset := by
  obtain ⟨hcarried, hsite, hahead⟩ := chooseSite_eq_some_iff.mp hchosen
  have hhead := head?_carriers_of_chooseSite hchosen
  have hmem : site ∈ carriers sites observe offset := List.mem_of_mem_head? hhead
  have hleads := leads_of_chooseSite hchosen hmem
  obtain ⟨low, hlow, hleast⟩ := exists_lowest_leading hleads
  obtain ⟨own, hown, hmost⟩ := hlow
  have hlowhead := hlowest low own hown ⟨own, hown, hmost⟩ hleast
  have hle := hleast site hleads
  -- Were the lowest site that of another offset, that offset would have won the vote.
  have hsame : own = offset := by
    by_contra hne
    have hvote := hahead own hne (List.ne_nil_of_mem hown)
    have hcount := hmost offset
    rw [Ahead, ← hsite, List.headD_eq_head?_getD, hlowhead, Option.getD_some] at hvote
    omega
  subst hsame
  have heq : low = site := Option.some.inj (hlowhead.symm.trans hhead)
  subst heq
  refine ⟨hmem, fun other hother => hleast other (leads_of_chooseSite hchosen hother), ?_⟩
  intro rival hne hcount other hother
  have hleast' := hleast other ⟨rival, hother, fun third => hcount ▸ hmost third⟩
  have hapart : other ≠ low := by
    intro hsame
    exact hne (carriers_unique (hsame ▸ hother) hmem)
  omega

/-- The reported site comes first in the file exactly when the lowest leading site leads off. -/
theorem comesFirst_iff (hchosen : chooseSite first sites observe = (site, some offset)) :
    ComesFirst sites observe site offset ↔ LowestLeadsOff sites observe :=
  ⟨lowestLeadsOff_of_comesFirst hchosen, comesFirst_of_lowestLeadsOff hchosen⟩

/-- Where no site carries an offset, none leads. -/
theorem lowestLeadsOff_of_none (hchosen : chooseSite first sites observe = (site, none)) :
    LowestLeadsOff sites observe := by
  intro low own hown _ _
  obtain ⟨hmem, hcarried⟩ := List.mem_filter.mp hown
  have hnone := (chooseSite_eq_none_iff.mp hchosen).2 low hmem
  rw [hnone] at hcarried
  exact absurd hcarried (by simp)

/-- Whatever sites are picked out of a list, the first of them is the lowest. -/
def FirstIsLowest (sites : List Nat) : Prop :=
  ∀ (picks : Nat → Bool) (site : Nat), site ∈ sites.filter picks →
    ∃ head, (sites.filter picks).head? = some head ∧ head ≤ site

/-- In such a list the lowest leading site leads off. -/
theorem lowestLeadsOff_of_firstIsLowest (h : FirstIsLowest sites) :
    LowestLeadsOff sites observe := by
  intro low own hown hleads hlowest
  obtain ⟨head, hhead, hle⟩ := h _ low hown
  have hmem : head ∈ carriers sites observe own := List.mem_of_mem_head? hhead
  have hge := hlowest head ⟨own, hmem, length_carriers_le_of_leads hown hleads⟩
  have heq : head = low := by omega
  exact heq ▸ hhead

/-- Such a list stays one when all its sites are moved on by the same distance. -/
theorem FirstIsLowest.map_add (h : FirstIsLowest sites) (distance : Nat) :
    FirstIsLowest (sites.map (· + distance)) := by
  intro picks site hsite
  rw [List.filter_map] at hsite ⊢
  obtain ⟨place, hplace, hmoved⟩ := List.mem_map.mp hsite
  obtain ⟨head, hhead, hle⟩ := h _ place hplace
  refine ⟨head + distance, ?_, by omega⟩
  rw [List.head?_map, hhead, Option.map_some]

end Vote

end Sighting

namespace Binary

open Sighting

variable {b : Binary} {s : Signature} {p : Signature.Patterns} {image : Image}

/-- The windows that a kind is looked for in begin in the order of the file. -/
def WindowsAscend (b : Binary) (kind : Signature.Kind) : Prop :=
  (b.searchWindows kind).Pairwise fun v w => v.start ≤ w.start

/-- In windows in the order of the file the search comes to the lowest sites first, even where the
windows overlap. -/
theorem firstIsLowest_sites {windows : List Window} {p : Pattern} (hne : p ≠ [])
    (hascend : windows.Pairwise fun v w => v.start ≤ w.start) :
    FirstIsLowest (b.sites windows p) := by
  induction windows with
  | nil =>
    intro picks site hsite
    exact absurd (List.mem_filter.mp hsite).1 List.not_mem_nil
  | cons w rest ih =>
    obtain ⟨hstart, hrest⟩ := List.pairwise_cons.mp hascend
    intro picks site hsite
    have hparts : (b.sites (w :: rest) p).filter picks =
        (p.findAll b.bytes w).filter picks ++ (b.sites rest p).filter picks := by
      rw [sites, List.flatMap_cons, List.filter_append]
      rfl
    rw [hparts] at hsite ⊢
    cases hown : (p.findAll b.bytes w).filter picks with
    | nil =>
      rw [hown, List.nil_append] at hsite
      exact ih hrest picks site hsite
    | cons head more =>
      refine ⟨head, rfl, ?_⟩
      have hsorted : (head :: more).Pairwise (· < ·) :=
        hown ▸ (Pattern.pairwise_findAll p b.bytes w).filter picks
      have hleast : ∀ other ∈ (p.findAll b.bytes w).filter picks, head ≤ other := by
        intro other hother
        rw [hown] at hother
        rcases List.mem_cons.mp hother with hsame | hmore
        · omega
        · have hlt := (List.pairwise_cons.mp hsorted).1 other hmore
          omega
      rcases List.mem_append.mp hsite with hfirst | hlater
      · exact hleast site hfirst
      · -- A lower site of a later window lies inside this window too.
        by_contra hlower
        obtain ⟨hplace, hpicked⟩ := List.mem_filter.mp hlater
        obtain ⟨v, hv, hstands⟩ := (mem_sites_iff_standsIn hne).mp hplace
        have hhead : head ∈ p.findAll b.bytes w :=
          List.mem_of_mem_filter (hown ▸ List.mem_cons_self : head ∈ _)
        have hheadStands := (Pattern.mem_findAll_iff_standsIn hne).mp hhead
        have hbegin := hstart v hv
        have hvstart := hstands.start_le
        have hstop := hheadStands.le_stop
        have hinside : p.StandsIn b.bytes w site := ⟨by omega, by omega, hstands.agrees⟩
        have hlisted := (Pattern.mem_findAll_iff_standsIn hne).mpr hinside
        have hle := hleast site (List.mem_filter.mpr ⟨hlisted, hpicked⟩)
        omega

/-- In windows in the order of the file the search takes the lowest sites first. -/
theorem firstIsLowest_takenSites (hne : p.main ≠ []) {kind : Signature.Kind}
    (hascend : b.WindowsAscend kind) : FirstIsLowest (b.takenSites kind p) := by
  rw [takenSites]
  split
  · exact firstIsLowest_sites hne hascend
  · rw [contextSites]
    split
    · exact (firstIsLowest_sites (p.whole_ne_nil hne) hascend).map_add _
    · intro picks site hsite
      exact absurd (List.mem_filter.mp hsite).1 List.not_mem_nil

/-- Ties among the sites of a signature go to the earliest file offset: the reported site is the
lowest one at which the reported offset is seen, and lies in front of every site at which another
offset is seen that is seen as often. -/
def TiesGoToEarliest (b : Binary) (s : Signature) : Prop :=
  ∀ p x offset, s.patterns = .ok p → b.sight s = .ok x → x.observedOffset = some offset →
    ∃ site, x.fileOffset = some site ∧
      ComesFirst (b.hits s.kind p x.contextMatched) (observe b s p.main) site offset

/-- The sighting of a signature has the earliest site exactly when the lowest leading site leads
off. -/
theorem tiesGoToEarliest_of_patterns (hvalid : b.validImage = .ok image)
    (hpatterns : s.patterns = .ok p) :
    b.TiesGoToEarliest s ↔ LowestLeadsOff (b.takenSites s.kind p) (observe b s p.main) := by
  have hsight := sight_eq hvalid hpatterns
  constructor
  · intro hearliest
    cases hfound : (b.sightPatterns s p).found with
    | false =>
      rw [takenSites_of_not_found hfound]
      intro low own hown
      exact absurd (List.mem_filter.mp hown).1 List.not_mem_nil
    | true =>
      obtain ⟨site, hplace, hchosen⟩ := choice_sightPatterns hfound
      cases hobserved : (b.sightPatterns s p).observedOffset with
      | none => exact lowestLeadsOff_of_none (hobserved ▸ hchosen)
      | some offset =>
        rw [hobserved] at hchosen
        obtain ⟨other, hother, hfirst⟩ := hearliest p _ offset hpatterns hsight hobserved
        have hsame : site = other := Option.some.inj (hplace.symm.trans hother)
        rw [← takenSites_eq_hits, ← hsame] at hfirst
        exact (comesFirst_iff hchosen).mp hfirst
  · intro hlowest q x offset hq hx hobserved
    have hsame : p = q := Except.ok.inj (hpatterns.symm.trans hq)
    have hsighting : b.sightPatterns s p = x := (sight_eq_ok_iff hvalid hpatterns).mp hx
    subst hsame hsighting
    obtain ⟨site, hplace, hchosen⟩ := choice_of_observed hobserved
    rw [← takenSites_eq_hits]
    exact ⟨site, hplace, (comesFirst_iff hchosen).mpr hlowest⟩

/-- Ties go to the earliest file offset exactly when the search comes to the lowest leading site
before the other sites that carry the same offset; and they do wherever the windows stand in the
order of the file. -/
theorem tiesGoToEarliest_iff (hvalid : b.validImage = .ok image) (hpatterns : s.patterns = .ok p) :
    (b.TiesGoToEarliest s ↔
      LowestLeadsOff (b.takenSites s.kind p) (observe b s p.main)) ∧
      (b.WindowsAscend s.kind → b.TiesGoToEarliest s) := by
  have hiff := tiesGoToEarliest_of_patterns hvalid hpatterns
  have hne := main_ne_nil hpatterns
  refine ⟨hiff, fun hascend => hiff.mpr ?_⟩
  exact lowestLeadsOff_of_firstIsLowest (firstIsLowest_takenSites hne hascend)

/-- Ties go to the earliest file offset among the loads that look alike, which stand in one
section. -/
theorem tiesGoToEarliest_lookalikes :
    lookalikes.TiesGoToEarliest (anyLoad.signature .fieldAccess health) := by
  have hvalid : lookalikes.validImage = .ok lookalikes.image := validImage_ofCode (by decide)
  have hascend : lookalikes.WindowsAscend (anyLoad.signature .fieldAccess health).kind := by
    have hwindows : lookalikes.searchWindows .fieldAccess = lookalikes.executableWindows := rfl
    rw [WindowsAscend, Signature.Patterns.signature, hwindows, lookalikes,
      executableWindows_ofCode (by decide)]
    exact List.pairwise_singleton _ _
  exact (tiesGoToEarliest_iff hvalid patterns_anyLoad).2 hascend

/-- Two loads from offset 32, each in a section of its own. The section of the second load comes
first in the table. -/
def swapped : Binary :=
  let load : List UInt8 := [0x48, 0x8B, 0x81, 0x20, 0, 0, 0]
  ofSections "swapped.exe" [⟨207, 214⟩, ⟨200, 207⟩] (load ++ load)

/-- The second of these loads is reported, though both read the same offset. -/
theorem not_tiesGoToEarliest_swapped :
    ¬swapped.TiesGoToEarliest (anyLoad.signature .fieldAccess health) := by
  have hvalid : swapped.validImage = .ok swapped.image := if_pos (by decide +kernel)
  have hreported : (swapped.sightPatterns (anyLoad.signature .fieldAccess health)
      anyLoad).fileOffset = some 207 := by decide +kernel
  have hobserved : (swapped.sightPatterns (anyLoad.signature .fieldAccess health)
      anyLoad).observedOffset = some 32 := by decide +kernel
  have hlower : 200 ∈ carriers (swapped.hits .fieldAccess anyLoad
      (swapped.sightPatterns (anyLoad.signature .fieldAccess health) anyLoad).contextMatched)
      (observe swapped (anyLoad.signature .fieldAccess health) anyLoad.main) 32 := by
    decide +kernel
  intro hearliest
  obtain ⟨site, hsite, hfirst⟩ :=
    hearliest _ _ _ patterns_anyLoad (sight_eq hvalid patterns_anyLoad) hobserved
  have hsame : site = 207 := Option.some.inj (hsite.symm.trans hreported)
  have hle := hfirst.le_own 200 hlower
  omega

end Binary

end LayoutWatch
