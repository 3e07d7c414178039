import LayoutWatch.Proofs.Score
import LayoutWatch.Proofs.SightingMeaning

/-!
# What context adds to a search

A signature is looked for with its context and then without it, so what is found does not depend
on the context. Where the context agrees there are at most as many sites as without it, and a score
falls with the number of sites and rises with agreeing context. So context never lowers a score,
and where it does not agree the sighting is the one without it.
-/

namespace LayoutWatch

/-- The signature with both contexts taken away. -/
def Signature.withoutContext (s : Signature) : Signature :=
  { s with contextBefore := none, contextAfter := none }

/-- The patterns of a signature without its context. -/
def Signature.Patterns.bare (p : Signature.Patterns) : Signature.Patterns := ⟨p.main, none, none⟩

/-- One sighting is at least as good as another of the same pattern without context. -/
structure Sighting.NoWorseThan (x bare : Sighting) : Prop where
  /-- The one is found exactly when the other is. -/
  found_eq : x.found = bare.found
  /-- It has no more sites. -/
  occurrences_le : x.occurrences ≤ bare.occurrences
  /-- Its score is not lower. -/
  confidence_le : x.found = true → bare.confidence ≤ x.confidence
  /-- Where no context agrees they are the same. -/
  eq_of_unmatched : x.contextMatched = false → x = bare

namespace Binary

variable {b : Binary} {s : Signature} {p : Signature.Patterns} {image : Image}

/-- A signature whose context is taken away is read as its bare pattern. -/
theorem patterns_withoutContext (h : s.patterns = .ok p) :
    s.withoutContext.patterns = .ok p.bare := by
  have hmain : Pattern.parse s.pattern = .ok p.main := parse_of_patterns h
  simp only [Signature.patterns, Signature.withoutContext, hmain]
  rfl

/-- Without context the search takes the sites of the bare pattern. -/
theorem takenSites_bare (b : Binary) (kind : Signature.Kind) (p : Signature.Patterns) :
    b.takenSites kind p.bare = b.sites (b.searchWindows kind) p.main := rfl

/-- No more sites are taken with the context than without it. -/
theorem length_takenSites_le (hne : p.main ≠ []) (kind : Signature.Kind) :
    (b.takenSites kind p).length ≤ (b.takenSites kind p.bare).length := by
  rw [takenSites_bare, takenSites]
  split
  · exact Nat.le_refl _
  · exact length_contextSites_le hne

/-- Where no context agrees, a signature is sighted as without its context. -/
theorem sightPatterns_of_unmatched (h : (b.sightPatterns s p).contextMatched = false) :
    b.sightPatterns s p = b.sightPatterns s.withoutContext p.bare := by
  rw [contextMatched_sightPatterns, Bool.not_eq_false'] at h
  have htaken : b.takenSites s.kind p = b.takenSites s.withoutContext.kind p.bare := by
    rw [takenSites_bare, takenSites, if_pos h]
    rfl
  have hbare : (b.contextSites s.withoutContext.kind p.bare).isEmpty = true := rfl
  rw [sightPatterns_eq, sightPatterns_eq, htaken, h, hbare]
  rfl

/-- The sighting of a signature is no worse than the one without its context. -/
theorem noWorseThan_sightPatterns (hne : p.main ≠ []) :
    (b.sightPatterns s p).NoWorseThan (b.sightPatterns s.withoutContext p.bare) := by
  have hfound : (b.sightPatterns s p).found =
      (b.sightPatterns s.withoutContext p.bare).found := by
    rw [Bool.eq_iff_iff, found_sightPatterns, found_sightPatterns, takenSites_ne_nil_iff hne,
      takenSites_ne_nil_iff (p := p.bare) hne]
    exact Iff.rfl
  have hcount : (b.sightPatterns s p).occurrences ≤
      (b.sightPatterns s.withoutContext p.bare).occurrences := by
    rw [occurrences_sightPatterns, occurrences_sightPatterns]
    exact length_takenSites_le hne s.kind
  refine ⟨hfound, hcount, ?_, sightPatterns_of_unmatched⟩
  intro hsome
  have hunmatched : (b.sightPatterns s.withoutContext p.bare).contextMatched = false := by
    rw [contextMatched_sightPatterns]
    rfl
  rw [confidence_sightPatterns hsome, confidence_sightPatterns (hfound ▸ hsome), hunmatched]
  exact Score.found_le_found s.kind hcount (Bool.false_le _)

/-- Context never hurts: a signature is found with its context exactly when it is found without, at
no more sites and with no lower score, and in the same way where the context does not agree. -/
theorem context_never_hurts (hvalid : b.validImage = .ok image) (hpatterns : s.patterns = .ok p) :
    ∃ x bare, b.sight s = .ok x ∧ b.sight s.withoutContext = .ok bare ∧ x.NoWorseThan bare := by
  have hne := main_ne_nil hpatterns
  exact ⟨_, _, sight_eq hvalid hpatterns, sight_eq hvalid (patterns_withoutContext hpatterns),
    noWorseThan_sightPatterns hne⟩

/-- The bytes in front tell one load from the two that look alike, and raise its score. -/
theorem context_never_hurts_followingLoad : ∃ x bare,
    lookalikes.sight (followingLoad.signature .fieldAccess health) = .ok x ∧
      lookalikes.sight (followingLoad.signature .fieldAccess health).withoutContext = .ok bare ∧
      x.NoWorseThan bare ∧ x.occurrences = 1 ∧ bare.occurrences = 3 ∧
      x.confidence = 90 ∧ bare.confidence = 65 := by
  have hvalid : lookalikes.validImage = .ok lookalikes.image := validImage_ofCode (by decide)
  have hwithout := patterns_withoutContext patterns_followingLoad
  obtain ⟨x, bare, hsight, hbare, hworse⟩ := context_never_hurts hvalid patterns_followingLoad
  refine ⟨x, bare, hsight, hbare, hworse, ?_⟩
  rw [← (sight_eq_ok_iff hvalid patterns_followingLoad).mp hsight,
    ← (sight_eq_ok_iff hvalid hwithout).mp hbare]
  decide +kernel

end Binary

end LayoutWatch
