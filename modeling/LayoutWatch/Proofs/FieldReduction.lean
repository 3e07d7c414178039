import LayoutWatch.Proofs.OffsetChange

/-!
# One change for each field

A scan may look for a field with several signatures, and their sightings may agree, disagree, or
expect the field at different offsets. They are reduced to one change for each field that some
sighting saw elsewhere than expected. The change is the first sighting of these with the best score,
and its conflicts are all other offsets at which the field was seen, in ascending order. The changes
stand in the order in which their fields were first seen.
-/

namespace LayoutWatch

namespace Ordered

/-- The first of the elements with the best score is the best one, where ties are left to the
elements in front. -/
theorem exists_split_of_best? {α : Type} {score : α → UInt8} {l : List α} {a : α}
    (h : best? (fun x y => decide (score y ≤ score x)) l = some a) :
    ∃ front rest, l = front ++ a :: rest ∧
      (∀ x ∈ front, score x < score a) ∧ ∀ x ∈ rest, score x ≤ score a := by
  induction l generalizing a with
  | nil => cases h
  | cons head tail ih =>
    rw [best?] at h
    cases htail : best? (fun x y => decide (score y ≤ score x)) tail with
    | none =>
      rw [htail] at h
      cases h
      have hnil : tail = [] := best?_eq_none_iff.mp htail
      exact ⟨[], [], by rw [hnil]; rfl, List.forall_mem_nil _, List.forall_mem_nil _⟩
    | some best =>
      have hsplit := ih htail
      rcases hsplit with ⟨front, rest, hparts, hfront, hrest⟩
      rw [htail] at h
      dsimp only at h
      split at h
      · next hahead =>
        cases h
        have hle : score best ≤ score head := of_decide_eq_true hahead
        refine ⟨[], tail, rfl, List.forall_mem_nil _, fun x hx => ?_⟩
        rw [hparts, List.mem_append, List.mem_cons] at hx
        rcases hx with hx | rfl | hx
        · exact UInt8.le_trans (UInt8.le_of_lt (hfront x hx)) hle
        · exact hle
        · exact UInt8.le_trans (hrest x hx) hle
      · next hbehind =>
        cases h
        have hlt : score head < score a :=
          UInt8.not_le.mp fun hle => hbehind (decide_eq_true hle)
        exact ⟨head :: front, rest, by rw [hparts]; rfl,
          List.forall_mem_cons.mpr ⟨hlt, hfront⟩, hrest⟩

/-- The best of the elements that are kept, in the list of all of them. -/
theorem exists_split_of_best?_filter {α : Type} {score : α → UInt8} {keep : α → Bool} {l : List α}
    {a : α} (h : best? (fun x y => decide (score y ≤ score x)) (l.filter keep) = some a) :
    ∃ front rest, l = front ++ a :: rest ∧ (∀ x ∈ front, keep x = true → score x < score a) ∧
      ∀ x ∈ rest, keep x = true → score x ≤ score a := by
  have hsplit := exists_split_of_best? h
  rcases hsplit with ⟨ahead, behind, hparts, hahead, hbehind⟩
  have hlist := List.filter_eq_append_iff.mp hparts
  rcases hlist with ⟨first, second, rfl, hfirst, hsecond⟩
  have hrest := List.filter_eq_cons_iff.mp hsecond
  rcases hrest with ⟨skipped, rest, rfl, hskipped, -, hkept⟩
  refine ⟨first ++ skipped, rest, by rw [List.append_assoc], fun x hx hkeep => ?_,
    fun x hx hkeep => ?_⟩
  · rcases List.mem_append.mp hx with hx | hx
    · exact hahead x (hfirst ▸ List.mem_filter.mpr ⟨hx, hkeep⟩)
    · exact absurd hkeep (hskipped x hx)
  · exact hbehind x (hkept ▸ List.mem_filter.mpr ⟨hx, hkeep⟩)

/-- Offsets that are sorted and left without repetitions are in strict order. -/
theorem pairwise_distinctOffsets (offsets : List UInt64) :
    (dropRepeats (offsets.mergeSort fun a b => decide (a ≤ b))).Pairwise (· < ·) := by
  refine (pairwise_dropRepeats_mergeSort (fun a b c hab hbc => ?_) (fun a b => ?_)
    (fun a b hab hba => ?_) offsets).imp fun hab => ?_
  · exact decide_eq_true (UInt64.le_trans (of_decide_eq_true hab) (of_decide_eq_true hbc))
  · rw [Bool.or_eq_true, decide_eq_true_eq, decide_eq_true_eq]
    exact UInt64.le_total a b
  · exact UInt64.le_antisymm (of_decide_eq_true hab) (of_decide_eq_true hba)
  · exact UInt64.lt_of_le_of_ne (of_decide_eq_true hab.1) hab.2

section Keys

variable {α κ : Type} [BEq κ] [LawfulBEq κ]

/-- An element with another key is passed over. -/
theorem findIdx_cons_of_ne {key : α → κ} {keep : α → Bool} {head : α} {k : κ}
    (h : key head ≠ k) (tail : List α) :
    (head :: tail).findIdx (fun x => keep x && key x == k) =
      tail.findIdx (fun x => keep x && key x == k) + 1 := by
  have hno : (keep head && key head == k) = false := by
    rw [beq_eq_false_iff_ne.mpr h, Bool.and_false]
  rw [List.findIdx_cons, hno]
  rfl

/-- The keys of the elements that are kept stand in the order of the first elements that have
them. -/
theorem pairwise_findIdx_eraseDups (key : α → κ) (l : List α) (keep : α → Bool) :
    ((l.filter keep).map key).eraseDups.Pairwise fun a b =>
      l.findIdx (fun x => keep x && key x == a) < l.findIdx fun x => keep x && key x == b := by
  induction l generalizing keep with
  | nil => exact List.Pairwise.nil
  | cons head tail ih =>
    by_cases hkeep : keep head = true
    · rw [List.filter_cons_of_pos hkeep, List.map_cons, List.eraseDups_cons, List.filter_map,
        List.filter_filter]
      -- Behind the first element only those with another key count for the order.
      have hother : ∀ k ∈ ((tail.filter fun x => ((!· == key head) ∘ key) x && keep x).map
          key).eraseDups, key head ≠ k := by
        intro k hk
        have hkey := List.mem_map.mp (List.mem_eraseDups.mp hk)
        rcases hkey with ⟨x, hx, rfl⟩
        have hne := (Bool.and_eq_true_iff.mp (List.mem_filter.mp hx).2).1
        rw [Function.comp_apply, Bool.not_eq_true', beq_eq_false_iff_ne] at hne
        exact hne.symm
      have hsame : ∀ k, key head ≠ k →
          tail.findIdx (fun x => (((!· == key head) ∘ key) x && keep x) && key x == k) =
            tail.findIdx fun x => keep x && key x == k := by
        intro k hk
        refine congrArg (fun p => tail.findIdx p) (funext fun x => ?_)
        by_cases hx : key x = k
        · have hmark : ((!· == key head) ∘ key) x = true := by
            rw [Function.comp_apply, hx, Bool.not_eq_true', beq_eq_false_iff_ne]
            exact hk.symm
          rw [hmark, Bool.true_and]
        · rw [beq_eq_false_iff_ne.mpr hx, Bool.and_false, Bool.and_false]
      refine List.pairwise_cons.mpr ⟨fun b hb => ?_, (ih _).imp_of_mem fun ha hb hlt => ?_⟩
      · have hfirst : (keep head && key head == key head) = true := by
          rw [hkeep, beq_self_eq_true, Bool.true_and]
        rw [findIdx_cons_of_ne (hother b hb), List.findIdx_cons, hfirst]
        exact Nat.succ_pos _
      · rw [hsame _ (hother _ ha), hsame _ (hother _ hb)] at hlt
        rw [findIdx_cons_of_ne (hother _ ha), findIdx_cons_of_ne (hother _ hb)]
        exact Nat.succ_lt_succ hlt
    · rw [List.filter_cons_of_neg hkeep]
      refine (ih keep).imp fun hlt => ?_
      rw [Bool.not_eq_true] at hkeep
      rw [List.findIdx_cons, List.findIdx_cons, hkeep, Bool.false_and, Bool.false_and]
      exact Nat.succ_lt_succ hlt

end Keys

end Ordered

/-- The sighting saw the field at another offset than it expected. -/
def Sighting.Moves (s : Sighting) (structName fieldName : String) : Prop :=
  ∃ offset, s.Sees structName fieldName offset ∧ offset ≠ s.expectedOffset

/-- The sighting is one of this field, and it saw some offset. -/
def Sighting.isOf (s : Sighting) (structName fieldName : String) : Bool :=
  s.found && s.observedOffset.isSome && (s.structName, s.fieldName) == (structName, fieldName)

/-- The place of the first sighting that saw an offset of the field. -/
def Sighting.firstOf (sightings : List Sighting) (structName fieldName : String) : Nat :=
  sightings.findIdx (·.isOf structName fieldName)

/-- The change is what the sightings of its field are reduced to. -/
structure OffsetChange.Reduces (c : OffsetChange) (sightings : List Sighting) : Prop
    extends c.Summarises sightings where
  /-- It is the first of the sightings that saw the field elsewhere than expected, among those with
  the best score. -/
  leads : ∃ front s rest, sightings = front ++ s :: rest ∧
    s.Sees c.structName c.fieldName c.observedOffset ∧ s.expectedOffset = c.declaredOffset ∧
      s.confidence = c.confidence ∧
      (∀ other ∈ front, other.Moves c.structName c.fieldName → other.confidence < c.confidence) ∧
      ∀ other ∈ rest, other.Moves c.structName c.fieldName → other.confidence ≤ c.confidence
  /-- The conflicts are listed once each, in ascending order. -/
  conflicts_sorted : c.conflicts.Pairwise (· < ·)

/-- A sighting that saw an offset of the field is one of the field. -/
theorem Sighting.Sees.isOf {s : Sighting} {structName fieldName : String} {offset : UInt64}
    (h : s.Sees structName fieldName offset) : s.isOf structName fieldName = true := by
  rw [Sighting.isOf, h.found, h.observed, h.structName_eq, h.fieldName_eq, beq_self_eq_true]
  rfl

namespace OffsetChange

variable {sightings : List Sighting} {structName fieldName : String} {c : OffsetChange}

/-- The sightings of a field are those of the list, in its order. -/
theorem seenOf_eq_filter :
    seenOf sightings structName fieldName =
      sightings.filter (·.isOf structName fieldName) := by
  have hguard : ((fun pair : (String × String) × Sighting =>
      if pair.1 == (structName, fieldName) then some pair.2 else none) ∘
        fun s : Sighting => ((s.structName, s.fieldName), s)) =
      Option.guard fun s => (s.structName, s.fieldName) == (structName, fieldName) := by
    funext s
    rw [Option.guard_def]
    rfl
  rw [seenOf, Ordered.valuesOf, List.filterMap_map, hguard, List.filterMap_eq_filter,
    List.filter_filter]
  refine List.filter_congr fun s _ => ?_
  rw [Sighting.isOf, Bool.and_comm]

/-- The sighting that makes the change of a list is the best of the changed ones. -/
theorem best?_of_ofField? {own : List Sighting} (h : ofField? own = some c) :
    ∃ best, Ordered.best? (fun a b : Sighting => decide (b.confidence ≤ a.confidence))
        (own.filter Sighting.isChanged) = some best ∧
      best.observedOffset = some c.observedOffset ∧ best.expectedOffset = c.declaredOffset ∧
      best.confidence = c.confidence := by
  simp only [ofField?, Option.bind_eq_bind, Option.bind_eq_some_iff, Option.pure_def,
    Option.some.injEq] at h
  rcases h with ⟨best, hbest, observed, hobserved, rfl⟩
  exact ⟨best, hbest, hobserved, rfl, rfl⟩

/-- The conflicts of a change are in strict order. -/
theorem pairwise_conflicts_of_ofField? {own : List Sighting} (h : ofField? own = some c) :
    c.conflicts.Pairwise (· < ·) := by
  simp only [ofField?, Option.bind_eq_bind, Option.bind_eq_some_iff, Option.pure_def,
    Option.some.injEq] at h
  rcases h with ⟨best, -, observed, -, rfl⟩
  exact Ordered.pairwise_distinctOffsets _

/-- The changes stand in the order in which their fields were first seen. -/
theorem pairwise_ofSightings (sightings : List Sighting) :
    (ofSightings sightings).Pairwise fun c d =>
      Sighting.firstOf sightings c.structName c.fieldName <
        Sighting.firstOf sightings d.structName d.fieldName := by
  have hkeys : (byField sightings).map (·.1) =
      ((sightings.filter fun s => s.found && s.observedOffset.isSome).map
        fun s => (s.structName, s.fieldName)).eraseDups := by
    simp [byField, Ordered.collect, Function.comp_def]
  have hordered : ((byField sightings).map (·.1)).Pairwise fun k k' =>
      Sighting.firstOf sightings k.1 k.2 < Sighting.firstOf sightings k'.1 k'.2 := by
    rw [hkeys]
    exact Ordered.pairwise_findIdx_eraseDups (fun s => (s.structName, s.fieldName)) sightings _
  have hrows := List.pairwise_map.mp hordered
  refine List.pairwise_filterMap.mpr (hrows.imp_of_mem ?_)
  intro v w hv hw hlt c hc d hd
  rw [← names_of_mem_byField hv hc, ← names_of_mem_byField hw hd] at hlt
  exact hlt

/-- A change of a list of sightings is the first of the sightings of its field that saw it
elsewhere, among those with the best score. -/
theorem reduces_of_mem (h : c ∈ ofSightings sightings) : c.Reduces sightings := by
  have hfield := mem_ofSightings.mp h
  refine ⟨summarises_of_mem h, ?_, pairwise_conflicts_of_ofField? hfield⟩
  have hmade := best?_of_ofField? hfield
  rcases hmade with ⟨best, hbest, hobserved, hexpected, hconfidence⟩
  have hseen := mem_seenOf.mp (List.mem_filter.mp (Ordered.mem_of_best? hbest)).1
  rcases hseen with ⟨-, _, hsees⟩
  rw [seenOf_eq_filter, List.filter_filter] at hbest
  have hsplit := Ordered.exists_split_of_best?_filter hbest
  rcases hsplit with ⟨front, rest, hparts, hfront, hrest⟩
  have hkept : ∀ other : Sighting, other.Moves c.structName c.fieldName →
      (other.isChanged && other.isOf c.structName c.fieldName) = true := by
    intro other hmoves
    rcases hmoves with ⟨offset, hother, hne⟩
    rw [hother.isChanged hne, Bool.true_and]
    exact hother.isOf
  rw [hconfidence] at hfront hrest
  exact ⟨front, best, rest, hparts,
    ⟨hsees.found, hsees.structName_eq, hsees.fieldName_eq, hobserved⟩, hexpected, hconfidence,
    fun other hother hmoves => hfront other hother (hkept other hmoves),
    fun other hother hmoves => hrest other hother (hkept other hmoves)⟩

/-- The sightings are reduced to at most one change for each field. The changes stand in the order
in which an offset of their fields was first seen, and a field has one exactly when some sighting
saw it elsewhere than expected. Each change is the first of these sightings with the best score,
and the other offsets at which the field was seen are its conflicts, in ascending order. -/
theorem ofSightings_reduces (sightings : List Sighting) :
    ((ofSightings sightings).map fun c => (c.structName, c.fieldName)).Nodup ∧
      ((ofSightings sightings).Pairwise fun c d =>
        Sighting.firstOf sightings c.structName c.fieldName <
          Sighting.firstOf sightings d.structName d.fieldName) ∧
      (∀ structName fieldName,
        (∃ c ∈ ofSightings sightings, c.structName = structName ∧ c.fieldName = fieldName) ↔
          ∃ s ∈ sightings, s.Moves structName fieldName) ∧
      ∀ c ∈ ofSightings sightings, c.Reduces sightings :=
  ⟨nodup_fields sightings, pairwise_ofSightings sightings,
    fun _ _ => exists_mem_ofSightings_iff, fun _ => reduces_of_mem⟩

/-- A sighting of a field with an access, at some place of the file. -/
def sightingOf (structName fieldName : String) (expected : UInt64) (observed : Option UInt64)
    (confidence : UInt8) : Sighting :=
  ⟨structName, fieldName, .fieldAccess, expected, true, some 160, observed, confidence, 1, false⟩

/-- Five sightings disagree about one field, one of them as expected. Between them another field is
seen elsewhere, and once at no offset that can be read. -/
def disagreeing : List Sighting :=
  [sightingOf "Foo" "a" 0 (some 24) 85, sightingOf "Bar" "b" 8 none 90,
    sightingOf "Foo" "a" 0 (some 16) 90, sightingOf "Bar" "b" 8 (some 16) 60,
    sightingOf "Foo" "a" 8 (some 32) 90, sightingOf "Foo" "a" 8 (some 8) 99,
    sightingOf "Foo" "a" 0 (some 24) 85]

/-- The first of the two best sightings that saw the field elsewhere makes the change. -/
theorem ofSightings_reduces_disagreeing :
    ofSightings disagreeing =
      [⟨"Foo", "a", 0, 16, 16, 90, none, [8, 24, 32]⟩, ⟨"Bar", "b", 8, 16, 8, 60, none, []⟩] ∧
      ∀ c ∈ ofSightings disagreeing, c.Reduces disagreeing := by
  have hrows : byField disagreeing =
      [(("Foo", "a"), [sightingOf "Foo" "a" 0 (some 24) 85, sightingOf "Foo" "a" 0 (some 16) 90,
        sightingOf "Foo" "a" 8 (some 32) 90, sightingOf "Foo" "a" 8 (some 8) 99,
        sightingOf "Foo" "a" 0 (some 24) 85]),
        (("Bar", "b"), [sightingOf "Bar" "b" 8 (some 16) 60])] := by
    decide +kernel
  have hsorted : ([24, 32, 8, 24] : List UInt64).mergeSort (fun a b => decide (a ≤ b)) =
      [8, 24, 24, 32] := by
    simp [List.mergeSort, List.MergeSort.Internal.splitInTwo]
  have hnear : Delta.between 0 16 = 16 ∧ Delta.between 8 16 = 8 := by decide
  have hchanges : ofSightings disagreeing =
      [⟨"Foo", "a", 0, 16, 16, 90, none, [8, 24, 32]⟩,
        ⟨"Bar", "b", 8, 16, 8, 60, none, []⟩] := by
    rw [ofSightings, hrows]
    simp [ofField?, sightingOf, Sighting.isChanged, Ordered.best?, Ordered.dropRepeats, hsorted,
      hnear]
  exact ⟨hchanges, (ofSightings_reduces disagreeing).2.2.2⟩

end OffsetChange

end LayoutWatch
