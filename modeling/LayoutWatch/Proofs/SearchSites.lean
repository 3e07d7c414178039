import LayoutWatch.Proofs.Extraction
import Mathlib.Algebra.Order.BigOperators.Group.List
import Mathlib.Algebra.Order.Group.Nat

/-!
# The sites of a search

A search goes through one window after the other and lists the sites of each in ascending order.
The sites of a signature with its context are those of the bare pattern that have the context
directly around them inside the same window, so there are never more of them. A sighting reports
on the sites with the context where there are any, and on those of the bare pattern otherwise.
-/

namespace LayoutWatch

namespace Pattern

/-- The pattern stands at a site, with all its cells inside a window. -/
structure StandsIn (p : Pattern) (bytes : Bytes) (w : Window) (site : Nat) : Prop where
  /-- It does not begin in front of the window. -/
  start_le : w.start ≤ site
  /-- It does not end behind the window. -/
  le_stop : site + p.length ≤ w.stop
  /-- Every cell accepts its byte. -/
  agrees : p.matchesAt bytes site = true

variable {bytes : Bytes} {w : Window} {p q : Pattern} {site : Nat}

/-- The search of a window lists the sites at which the pattern stands in it. -/
theorem mem_findAll_iff_standsIn (hne : p ≠ []) :
    site ∈ p.findAll bytes w ↔ p.StandsIn bytes w site := by
  rw [mem_findAll]
  constructor
  · intro hfound
    exact ⟨hfound.2.1, hfound.2.2.1, hfound.2.2.2⟩
  · intro hstands
    exact ⟨hne, hstands.start_le, hstands.le_stop, hstands.agrees⟩

/-- The search of a window lists each site once, in ascending order. -/
theorem pairwise_findAll (p : Pattern) (bytes : Bytes) (w : Window) :
    (p.findAll bytes w).Pairwise (· < ·) := by
  by_cases hne : p = []
  · have hnone : p.findAll bytes w = [] := by simp [findAll, hne]
    rw [hnone]
    exact List.Pairwise.nil
  · rw [findAll_eq_filter hne]
    exact (List.pairwise_lt_range' 1).filter _

/-- A pattern in two parts stands in a window where both of them do, one behind the other. -/
theorem standsIn_append :
    (p ++ q).StandsIn bytes w site ↔
      p.StandsIn bytes w site ∧ q.StandsIn bytes w (site + p.length) := by
  have hlength : (p ++ q).length = p.length + q.length := List.length_append
  constructor
  · intro hstands
    have hstart := hstands.start_le
    have hstop := hstands.le_stop
    have hboth := matchesAt_append.mp hstands.agrees
    exact ⟨⟨hstart, by omega, hboth.1⟩, ⟨by omega, by omega, hboth.2⟩⟩
  · intro hstands
    have hstop := hstands.2.le_stop
    have hboth := matchesAt_append.mpr ⟨hstands.1.agrees, hstands.2.agrees⟩
    exact ⟨hstands.1.start_le, by omega, hboth⟩

/-- No cells stand wherever some pattern does. -/
theorem StandsIn.nil (h : p.StandsIn bytes w site) : StandsIn [] bytes w site := by
  have hstop := h.le_stop
  have hfit := (matchesAt_iff.mp h.agrees).1
  have hinside : matchesAt bytes [] site = true := by
    rw [matchesAt, decide_eq_true_eq]
    omega
  exact ⟨h.start_le, by rw [List.length_nil]; omega, hinside⟩

/-- No cells stand directly behind a pattern. -/
theorem StandsIn.nil_behind (h : p.StandsIn bytes w site) :
    StandsIn [] bytes w (site + p.length) := by
  have happend : (p ++ []).StandsIn bytes w site := by rwa [List.append_nil]
  exact (standsIn_append.mp happend).2

end Pattern

namespace Signature.Patterns

/-- The pattern of a signature stands at a site in a window, with the context directly around it
in the same window. -/
structure StandsAmid (p : Signature.Patterns) (bytes : Bytes) (w : Window) (site : Nat) :
    Prop where
  /-- The pattern itself stands at the site. -/
  main : p.main.StandsIn bytes w site
  /-- The bytes in front end where it begins. -/
  before : ∀ before, p.before = some before →
    ∃ front, front + before.length = site ∧ before.StandsIn bytes w front
  /-- The bytes behind begin where it ends. -/
  behind : ∀ behind, p.behind = some behind → behind.StandsIn bytes w (site + p.main.length)

variable {p : Signature.Patterns} {bytes : Bytes} {w : Window}

/-- The pattern with its context stands where the pattern itself stands amid the context, as many
cells further on as there are in front. -/
theorem standsIn_whole_iff {front : Nat} :
    p.whole.StandsIn bytes w front ↔ p.StandsAmid bytes w (front + p.lead.length) := by
  have hparts : p.whole.StandsIn bytes w front ↔ (p.lead.StandsIn bytes w front ∧
      p.main.StandsIn bytes w (front + p.lead.length)) ∧
      (p.behind.getD []).StandsIn bytes w (front + p.lead.length + p.main.length) := by
    rw [whole, Pattern.standsIn_append, Pattern.standsIn_append, List.length_append,
      Nat.add_assoc]
  rw [hparts]
  constructor
  · intro hstands
    obtain ⟨⟨hlead, hmain⟩, hbehind⟩ := hstands
    refine ⟨hmain, ?_, ?_⟩
    · intro before hbefore
      have hcells : p.lead = before := by rw [lead, hbefore, Option.getD_some]
      exact ⟨front, by rw [hcells], hcells ▸ hlead⟩
    · intro behind hsome
      have hcells : p.behind.getD [] = behind := by rw [hsome, Option.getD_some]
      exact hcells ▸ hbehind
  · intro hstands
    refine ⟨⟨?_, hstands.main⟩, ?_⟩
    · cases hbefore : p.before with
      | none =>
        have hcells : p.lead = [] := by rw [lead, hbefore, Option.getD_none]
        have hmain := hstands.main
        rw [hcells, List.length_nil, Nat.add_zero] at hmain
        exact hcells ▸ hmain.nil
      | some before =>
        have hcells : p.lead = before := by rw [lead, hbefore, Option.getD_some]
        obtain ⟨start, hplace, hstart⟩ := hstands.before before hbefore
        have hsame : start = front := by
          rw [hcells] at hplace
          omega
        exact hcells ▸ hsame ▸ hstart
    · cases hbehind : p.behind with
      | none => exact hstands.main.nil_behind
      | some behind => exact hstands.behind behind hbehind

/-- Where the pattern stands amid the context, there is room for the context in front. -/
theorem StandsAmid.exists_front {site : Nat} (h : p.StandsAmid bytes w site) :
    ∃ front, front + p.lead.length = site := by
  cases hbefore : p.before with
  | none => exact ⟨site, by rw [lead, hbefore, Option.getD_none, List.length_nil, Nat.add_zero]⟩
  | some before =>
    obtain ⟨front, hplace, -⟩ := h.before before hbefore
    exact ⟨front, by rw [lead, hbefore, Option.getD_some, hplace]⟩

/-- The pattern with its context has cells where the pattern itself has. -/
theorem whole_ne_nil (hne : p.main ≠ []) : p.whole ≠ [] := by
  simp [whole, hne]

/-- A signature of a declared field whose texts spell these patterns. -/
def signature (p : Signature.Patterns) (kind : Signature.Kind) (d : Declaration) : Signature where
  kind := kind
  structName := d.structName
  fieldName := d.fieldName
  expectedOffset := d.offset
  pattern := p.main.text
  contextBefore := p.before.map Pattern.text
  contextAfter := p.behind.map Pattern.text
  baseConfidence := 95
  instruction := none
  notes := none

/-- The text of a pattern that may be absent is read back, unless it has no cells. -/
theorem parseOptional_text {q : Option Pattern} (hne : q ≠ some []) :
    Signature.parseOptional (q.map Pattern.text) = .ok q := by
  cases q with
  | none => rfl
  | some cells =>
    have hcells : cells ≠ [] := fun hnil => hne (congrArg some hnil)
    rw [Option.map_some, Signature.parseOptional, Pattern.parse_text hcells]
    rfl

/-- Such a signature is read back as the patterns, unless one of them has no cells. -/
theorem patterns_signature (kind : Signature.Kind) (d : Declaration) (hmain : p.main ≠ [])
    (hbefore : p.before ≠ some []) (hbehind : p.behind ≠ some []) :
    (p.signature kind d).patterns = .ok p := by
  simp only [Signature.patterns, signature, Pattern.parse_text hmain, parseOptional_text hbefore,
    parseOptional_text hbehind]
  rfl

end Signature.Patterns

namespace Binary

variable {b : Binary} {s : Signature} {p : Signature.Patterns} {kind : Signature.Kind}
  {site : Nat}

/-- A site of a pattern is one at which it stands in some window. -/
theorem mem_sites_iff_standsIn {windows : List Window} {p : Pattern} (hne : p ≠ []) :
    site ∈ b.sites windows p ↔ ∃ w ∈ windows, p.StandsIn b.bytes w site := by
  simp only [sites, List.mem_flatMap, Pattern.mem_findAll_iff_standsIn hne]

/-- The sites with the context in one window are those of the bare pattern that have the context
around them. -/
theorem mem_map_findAll_whole {w : Window} (hne : p.main ≠ []) :
    site ∈ (p.whole.findAll b.bytes w).map (· + p.lead.length) ↔
      p.StandsAmid b.bytes w site := by
  simp only [List.mem_map, Pattern.mem_findAll_iff_standsIn (p.whole_ne_nil hne),
    p.standsIn_whole_iff]
  constructor
  · intro hsite
    obtain ⟨front, hstands, hplace⟩ := hsite
    exact hplace ▸ hstands
  · intro hstands
    obtain ⟨front, hplace⟩ := hstands.exists_front
    exact ⟨front, by rwa [hplace], hplace⟩

/-- The sites with the context, window by window. -/
theorem contextSites_eq_flatMap (hcontext : p.hasContext = true) :
    b.contextSites kind p = (b.searchWindows kind).flatMap fun w =>
      (p.whole.findAll b.bytes w).map (· + p.lead.length) := by
  rw [contextSites, if_pos hcontext, sites, List.map_flatMap]

/-- A site with the context is one at which the pattern stands amid the context in some window. -/
theorem mem_contextSites (hne : p.main ≠ []) :
    site ∈ b.contextSites kind p ↔
      p.hasContext = true ∧ ∃ w ∈ b.searchWindows kind, p.StandsAmid b.bytes w site := by
  cases hcontext : p.hasContext with
  | false => simp [contextSites, hcontext]
  | true =>
    rw [contextSites_eq_flatMap hcontext, List.mem_flatMap]
    simp only [mem_map_findAll_whole hne, true_and]

/-- There are at most as many sites with the context as there are sites of the bare pattern. -/
theorem length_contextSites_le (hne : p.main ≠ []) :
    (b.contextSites kind p).length ≤ (b.sites (b.searchWindows kind) p.main).length := by
  cases hcontext : p.hasContext with
  | false => simp [contextSites, hcontext]
  | true =>
    rw [contextSites_eq_flatMap hcontext, sites, List.length_flatMap, List.length_flatMap]
    refine List.sum_le_sum fun w _ => ?_
    -- Inside one window no site is listed twice, so it is enough to compare which ones are listed.
    have hnodup : ((p.whole.findAll b.bytes w).map (· + p.lead.length)).Nodup := by
      have hdistinct : (p.whole.findAll b.bytes w).Nodup :=
        (Pattern.pairwise_findAll p.whole b.bytes w).imp Nat.ne_of_lt
      exact hdistinct.map fun _ _ => Nat.add_right_cancel
    refine (hnodup.subperm fun place hplace => ?_).length_le
    have hstands := (mem_map_findAll_whole hne).mp hplace
    exact (Pattern.mem_findAll_iff_standsIn hne).mpr hstands.main

/-- The sites that a sighting reports on, window by window: those with the context where it was
seen, and those of the bare pattern otherwise. -/
def hits (b : Binary) (kind : Signature.Kind) (p : Signature.Patterns) (withContext : Bool) :
    List Nat :=
  if withContext then b.contextSites kind p else b.sites (b.searchWindows kind) p.main

/-- The context agrees in a sighting exactly when there is a site with the context. -/
@[simp] theorem contextMatched_sightPatterns :
    (b.sightPatterns s p).contextMatched = !(b.contextSites s.kind p).isEmpty := by
  rw [sightPatterns_eq]
  split
  · next hnone =>
    cases hcontext : b.contextSites s.kind p with
    | nil => rfl
    | cons first rest =>
      have hne : b.contextSites s.kind p ≠ [] := hcontext ▸ List.cons_ne_nil first rest
      rw [takenSites_of_context hne] at hnone
      exact absurd hnone hne
  · rfl

/-- The sites that the search takes are those that its sighting reports on. -/
theorem takenSites_eq_hits :
    b.takenSites s.kind p = b.hits s.kind p (b.sightPatterns s p).contextMatched := by
  rw [contextMatched_sightPatterns, takenSites, hits]
  cases (b.contextSites s.kind p).isEmpty with
  | true => rfl
  | false => rfl

/-- A sighting counts the sites that the search takes. -/
@[simp] theorem occurrences_sightPatterns :
    (b.sightPatterns s p).occurrences = (b.takenSites s.kind p).length := by
  rw [sightPatterns_eq]
  split
  · next hnone =>
    rw [hnone]
    rfl
  · next hsome => rw [hsome]

/-- A sighting of some site reports the choice among the sites that the search takes. -/
theorem choice_sightPatterns (hfound : (b.sightPatterns s p).found = true) :
    ∃ site, (b.sightPatterns s p).fileOffset = some site ∧
      Sighting.chooseSite ((b.takenSites s.kind p).headD 0) (b.takenSites s.kind p)
        (Sighting.observe b s p.main) = (site, (b.sightPatterns s p).observedOffset) := by
  have htaken := found_sightPatterns.mp hfound
  rw [sightPatterns_eq]
  cases hsites : b.takenSites s.kind p with
  | nil => exact absurd hsites htaken
  | cons first rest => exact ⟨_, rfl, rfl⟩

/-- A sighting of some site is scored by the number of sites and by the context. -/
theorem confidence_sightPatterns (hfound : (b.sightPatterns s p).found = true) :
    (b.sightPatterns s p).confidence =
      Score.found s.kind (b.sightPatterns s p).occurrences
        (b.sightPatterns s p).contextMatched := by
  have htaken := found_sightPatterns.mp hfound
  rw [sightPatterns_eq]
  cases hsites : b.takenSites s.kind p with
  | nil => exact absurd hsites htaken
  | cons first rest => rfl

/-- The search takes no site where the signature is not found. -/
theorem takenSites_of_not_found (h : (b.sightPatterns s p).found = false) :
    b.takenSites s.kind p = [] := by
  by_contra hne
  rw [found_sightPatterns.mpr hne] at h
  exact Bool.noConfusion h

/-- A sighting of no site is one of a missing signature. -/
theorem sightPatterns_of_not_found (h : (b.sightPatterns s p).found = false) :
    b.sightPatterns s p = Sighting.missing s := by
  rw [sightPatterns_eq, takenSites_of_not_found h]

/-- Where an offset was seen, it and the reported site are the choice among the sites. -/
theorem choice_of_observed {offset : UInt64}
    (hobserved : (b.sightPatterns s p).observedOffset = some offset) :
    ∃ site, (b.sightPatterns s p).fileOffset = some site ∧
      Sighting.chooseSite ((b.takenSites s.kind p).headD 0) (b.takenSites s.kind p)
        (Sighting.observe b s p.main) = (site, some offset) := by
  have hfound : (b.sightPatterns s p).found = true := by
    by_contra hnot
    rw [sightPatterns_of_not_found (Bool.not_eq_true _ ▸ hnot)] at hobserved
    exact absurd hobserved (by simp [Sighting.missing])
  rw [← hobserved]
  exact choice_sightPatterns hfound

end Binary

end LayoutWatch
