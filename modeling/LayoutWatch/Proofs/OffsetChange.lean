import LayoutWatch.Proofs.Ordered
import LayoutWatch.Scan

/-!
# The change of a field

The sightings of a field amount to one change, where one of them saw another offset than expected:
the change is one of these, and its conflicts are the other offsets that were seen of the field.
-/

namespace LayoutWatch

/-- The sighting is one of this field, and it saw an offset. -/
structure Sighting.Sees (s : Sighting) (structName fieldName : String) (offset : UInt64) :
    Prop where
  /-- The signature was found. -/
  found : s.found = true
  /-- It names the struct. -/
  structName_eq : s.structName = structName
  /-- It names the field. -/
  fieldName_eq : s.fieldName = fieldName
  /-- The offset was seen. -/
  observed : s.observedOffset = some offset

/-- The change is what sightings amount to for its field. -/
structure OffsetChange.Summarises (c : OffsetChange) (sightings : List Sighting) : Prop where
  /-- A sighting saw the offset that is reported, with the score and the expectation reported. -/
  best : ∃ s ∈ sightings, s.Sees c.structName c.fieldName c.observedOffset ∧
    s.expectedOffset = c.declaredOffset ∧ s.confidence = c.confidence
  /-- It is another one than expected. -/
  moved : c.observedOffset ≠ c.declaredOffset
  /-- The delta is that of the two. -/
  delta_eq : c.delta = Delta.between c.declaredOffset c.observedOffset
  /-- The conflicts are the other offsets that were seen. -/
  mem_conflicts : ∀ offset, offset ∈ c.conflicts ↔ offset ≠ c.observedOffset ∧
    ∃ s ∈ sightings, s.Sees c.structName c.fieldName offset

namespace Sighting

variable {s : Sighting}

/-- A sighting that saw another offset than expected is a change. -/
theorem Sees.isChanged {structName fieldName : String} {offset : UInt64}
    (h : s.Sees structName fieldName offset) (hne : offset ≠ s.expectedOffset) :
    s.isChanged = true := by
  simp [Sighting.isChanged, h.found, h.observed, hne]

/-- A sighting that is a change saw another offset than expected. -/
theorem exists_sees_of_isChanged (h : s.isChanged = true) :
    ∃ offset, s.Sees s.structName s.fieldName offset ∧ offset ≠ s.expectedOffset := by
  rw [isChanged, Bool.and_eq_true, Option.any_eq_true] at h
  obtain ⟨hfound, offset, hobserved, hne⟩ := h
  exact ⟨offset, ⟨hfound, rfl, rfl, hobserved⟩, bne_iff_ne.mp hne⟩

end Sighting

namespace OffsetChange

/-- The sightings of one field that saw an offset, in their order. -/
def seenOf (sightings : List Sighting) (structName fieldName : String) : List Sighting :=
  Ordered.valuesOf ((sightings.filter fun s => s.found && s.observedOffset.isSome).map
    fun s => ((s.structName, s.fieldName), s)) (structName, fieldName)

variable {sightings : List Sighting} {structName fieldName : String} {c : OffsetChange}

/-- The sightings of a field are those that saw some offset of it. -/
theorem mem_seenOf {s : Sighting} : s ∈ seenOf sightings structName fieldName ↔
    s ∈ sightings ∧ ∃ offset, s.Sees structName fieldName offset := by
  simp only [seenOf, Ordered.mem_valuesOf, List.mem_map, List.mem_filter, Bool.and_eq_true,
    Option.isSome_iff_exists, Prod.mk.injEq]
  constructor
  · rintro ⟨x, ⟨hx, hfound, offset, hobserved⟩, ⟨hstruct, hfield⟩, rfl⟩
    exact ⟨hx, offset, hfound, hstruct, hfield, hobserved⟩
  · rintro ⟨hs, offset, hsees⟩
    exact ⟨s, ⟨hs, hsees.found, offset, hsees.observed⟩,
      ⟨hsees.structName_eq, hsees.fieldName_eq⟩, rfl⟩

/-- The sightings of a field amount to no change exactly when none of them is one. -/
theorem ofField?_eq_none_iff :
    ofField? sightings = none ↔ ∀ s ∈ sightings, s.isChanged = false := by
  have hnone : sightings.filter Sighting.isChanged = [] ↔
      ∀ s ∈ sightings, s.isChanged = false := by simp
  rw [← hnone, ← Ordered.best?_eq_none_iff, ofField?]
  cases hbest : Ordered.best? (fun a b : Sighting => decide (b.confidence ≤ a.confidence))
      (sightings.filter Sighting.isChanged) with
  | none => simp
  | some best =>
    have hchanged : best.isChanged = true :=
      (List.mem_filter.mp (Ordered.mem_of_best? hbest)).2
    cases hobserved : best.observedOffset with
    | none => simp [Sighting.isChanged, hobserved] at hchanged
    | some observed => simp [hobserved]

/-- A change that sightings amount to is one of them that saw another offset than expected, with
the other offsets that they saw. -/
theorem exists_of_ofField? {own : List Sighting} (h : ofField? own = some c) :
    ∃ best ∈ own, best.isChanged = true ∧ best.observedOffset = some c.observedOffset ∧
      c = { structName := best.structName
            fieldName := best.fieldName
            declaredOffset := best.expectedOffset
            observedOffset := c.observedOffset
            delta := Delta.between best.expectedOffset c.observedOffset
            confidence := best.confidence
            label := none
            conflicts := c.conflicts } ∧
      ∀ offset, offset ∈ c.conflicts ↔
        offset ≠ c.observedOffset ∧ ∃ s ∈ own, s.observedOffset = some offset := by
  simp only [ofField?, Option.bind_eq_bind, Option.bind_eq_some_iff, Option.pure_def,
    Option.some.injEq] at h
  obtain ⟨best, hbest, observed, hobserved, rfl⟩ := h
  obtain ⟨hmem, hchanged⟩ := List.mem_filter.mp (Ordered.mem_of_best? hbest)
  refine ⟨best, hmem, hchanged, hobserved, rfl, fun offset => ?_⟩
  simp only [Ordered.mem_dropRepeats, List.mem_mergeSort, List.mem_filter, List.mem_filterMap,
    bne_iff_ne]
  exact and_comm

/-- A change that the sightings of a field amount to is one of that field. -/
theorem names_of_ofField? (h : ofField? (seenOf sightings structName fieldName) = some c) :
    c.structName = structName ∧ c.fieldName = fieldName := by
  obtain ⟨best, hbest, -, -, heq, -⟩ := exists_of_ofField? h
  obtain ⟨-, _, hsees⟩ := mem_seenOf.mp hbest
  rw [heq]
  exact ⟨hsees.structName_eq, hsees.fieldName_eq⟩

/-- The changes of a list of sightings are what the sightings of the single fields amount to. -/
theorem mem_ofSightings : c ∈ ofSightings sightings ↔
    ofField? (seenOf sightings c.structName c.fieldName) = some c := by
  simp only [ofSightings, byField, List.mem_filterMap, Prod.exists, Ordered.mem_collect]
  constructor
  · rintro ⟨structName, fieldName, own, ⟨-, rfl⟩, hc⟩
    obtain ⟨rfl, rfl⟩ := names_of_ofField? hc
    exact hc
  · intro hc
    obtain ⟨best, hbest, -⟩ := exists_of_ofField? hc
    exact ⟨_, _, _, ⟨List.mem_map.mpr ⟨_, Ordered.mem_valuesOf.mp hbest, rfl⟩, rfl⟩, hc⟩

/-- The change of a row is one of the field that the row stands for. -/
theorem names_of_mem_byField {row : (String × String) × List Sighting}
    (hrow : row ∈ byField sightings) (hc : ofField? row.2 = some c) :
    (c.structName, c.fieldName) = row.1 := by
  rcases row with ⟨⟨structName, fieldName⟩, own⟩
  obtain ⟨-, rfl⟩ := Ordered.mem_collect.mp hrow
  obtain ⟨rfl, rfl⟩ := names_of_ofField? hc
  rfl

/-- No field has two changes. -/
theorem nodup_fields (sightings : List Sighting) :
    ((ofSightings sightings).map fun c => (c.structName, c.fieldName)).Nodup := by
  have hrows : (byField sightings).Pairwise fun v w => v.1 ≠ w.1 :=
    List.pairwise_map.mp (Ordered.nodup_collect _)
  refine List.pairwise_map.mpr (List.pairwise_filterMap.mpr (hrows.imp_of_mem ?_))
  intro v w hv hw hne c hc d hd
  rw [names_of_mem_byField hv hc, names_of_mem_byField hw hd]
  exact hne

/-- Each change of a list of sightings summarises them. -/
theorem summarises_of_mem (h : c ∈ ofSightings sightings) : c.Summarises sightings := by
  obtain ⟨best, hbest, hchanged, hobserved, heq, hconflicts⟩ :=
    exists_of_ofField? (mem_ofSightings.mp h)
  obtain ⟨hmem, _, hsees⟩ := mem_seenOf.mp hbest
  obtain ⟨offset, hother, hne⟩ := Sighting.exists_sees_of_isChanged hchanged
  obtain rfl : offset = c.observedOffset := Option.some.inj (hother.observed.symm.trans hobserved)
  have hexpected : best.expectedOffset = c.declaredOffset := by rw [heq]
  refine ⟨⟨best, hmem, ⟨hsees.found, hsees.structName_eq, hsees.fieldName_eq, hobserved⟩,
    hexpected, by rw [heq]⟩, hexpected ▸ hne, by rw [← hexpected, heq], fun offset => ?_⟩
  rw [hconflicts offset]
  refine and_congr_right fun _ => ⟨?_, ?_⟩
  · rintro ⟨s, hs, hseen⟩
    obtain ⟨hs, _, hsees⟩ := mem_seenOf.mp hs
    exact ⟨s, hs, hsees.found, hsees.structName_eq, hsees.fieldName_eq, hseen⟩
  · rintro ⟨s, hs, hsees⟩
    exact ⟨s, mem_seenOf.mpr ⟨hs, _, hsees⟩, hsees.observed⟩

/-- There are no more changes than sightings. -/
theorem length_ofSightings_le (sightings : List Sighting) :
    (ofSightings sightings).length ≤ sightings.length := by
  have hfields : (ofSightings sightings).map (fun c => (c.structName, c.fieldName)) ⊆
      sightings.map fun s => (s.structName, s.fieldName) := by
    intro field hfield
    obtain ⟨c, hc, rfl⟩ := List.mem_map.mp hfield
    obtain ⟨s, hs, hsees, -⟩ := (summarises_of_mem hc).best
    exact List.mem_map.mpr ⟨s, hs, by rw [hsees.structName_eq, hsees.fieldName_eq]⟩
  have hlength := ((nodup_fields sightings).subperm hfields).length_le
  rwa [List.length_map, List.length_map] at hlength

/-- The offsets that were seen of a field are that of its change and the conflicts. -/
theorem Summarises.seen_iff (h : c.Summarises sightings) {offset : UInt64} :
    (∃ s ∈ sightings, s.Sees c.structName c.fieldName offset) ↔
      offset = c.observedOffset ∨ offset ∈ c.conflicts := by
  rw [h.mem_conflicts]
  by_cases hsame : offset = c.observedOffset
  · obtain ⟨s, hs, hsees, -⟩ := h.best
    exact ⟨fun _ => Or.inl hsame, fun _ => ⟨s, hs, hsame ▸ hsees⟩⟩
  · simp [hsame]

/-- A field has a change exactly when one of its sightings saw another offset than expected. -/
theorem exists_mem_ofSightings_iff :
    (∃ c ∈ ofSightings sightings, c.structName = structName ∧ c.fieldName = fieldName) ↔
      ∃ s ∈ sightings, ∃ offset, s.Sees structName fieldName offset ∧
        offset ≠ s.expectedOffset := by
  constructor
  · rintro ⟨c, hc, rfl, rfl⟩
    have hsummary := summarises_of_mem hc
    obtain ⟨s, hs, hsees, hexpected, -⟩ := hsummary.best
    exact ⟨s, hs, _, hsees, hexpected ▸ hsummary.moved⟩
  · rintro ⟨s, hs, offset, hsees, hne⟩
    have hown : s ∈ seenOf sightings structName fieldName := mem_seenOf.mpr ⟨hs, offset, hsees⟩
    cases hc : ofField? (seenOf sightings structName fieldName) with
    | none => exact absurd (hsees.isChanged hne) (by simp [ofField?_eq_none_iff.mp hc s hown])
    | some c =>
      obtain ⟨rfl, rfl⟩ := names_of_ofField? hc
      exact ⟨c, mem_ofSightings.mpr hc, rfl, rfl⟩

/-- A list of sightings amounts to no change exactly when none of them is one. -/
theorem ofSightings_eq_nil_iff :
    ofSightings sightings = [] ↔ ∀ s ∈ sightings, s.isChanged = false := by
  rw [List.eq_nil_iff_forall_not_mem]
  constructor
  · intro h s hs
    rw [Bool.eq_false_iff]
    intro hchanged
    obtain ⟨offset, hsees, hne⟩ := Sighting.exists_sees_of_isChanged hchanged
    obtain ⟨c, hc, -⟩ := exists_mem_ofSightings_iff.mpr ⟨s, hs, offset, hsees, hne⟩
    exact h c hc
  · intro h c hc
    obtain ⟨s, hs, offset, hsees, hne⟩ := exists_mem_ofSightings_iff.mp ⟨c, hc, rfl, rfl⟩
    exact absurd (hsees.isChanged hne) (by simp [h s hs])

/-- One changed sighting amounts to one change. -/
theorem ofSightings_singleton {s : Sighting} {observed : UInt64} (hfound : s.found = true)
    (hobserved : s.observedOffset = some observed) (hne : observed ≠ s.expectedOffset) :
    ofSightings [s] =
      [{ structName := s.structName
         fieldName := s.fieldName
         declaredOffset := s.expectedOffset
         observedOffset := observed
         delta := Delta.between s.expectedOffset observed
         confidence := s.confidence
         label := none
         conflicts := [] }] := by
  have hfields : byField [s] = [((s.structName, s.fieldName), [s])] := by
    simp [byField, Ordered.collect, List.eraseDups_cons, hfound, hobserved]
  have hchanged : s.isChanged = true := by
    simp [Sighting.isChanged, hfound, hobserved, hne]
  rw [ofSightings, hfields]
  simp [ofField?, Ordered.best?, hchanged, hobserved, Ordered.dropRepeats]

end OffsetChange

end LayoutWatch
