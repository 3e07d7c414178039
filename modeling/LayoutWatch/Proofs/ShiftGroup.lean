import LayoutWatch.Proofs.Ordered
import LayoutWatch.Proofs.Shift
import Mathlib.Data.List.Nodup

/-!
# The groups of shared deltas

Every delta that enough samples share has one group, and no other delta has one. The group holds
the samples of its delta in their order, its structs are theirs in strict order, and those of the
other samples that belong to these structs are its anomalies. Larger groups stand in front, and
among groups of one size the smaller delta.
-/

namespace LayoutWatch

namespace ShiftGroup

variable {samples : List Shift} {g : ShiftGroup}

/-- The groups are those of the deltas that enough samples share. -/
theorem mem_ofSamples : g ∈ ofSamples samples ↔
    g = ofDelta samples g.delta ∧ leastSize ≤ (samples.filter (·.delta = g.delta)).length := by
  simp only [ofSamples, List.mem_mergeSort, List.mem_filter, List.mem_map, List.mem_eraseDups,
    decide_eq_true_eq, exists_exists_and_eq_and]
  constructor
  · intro hgroup
    rcases hgroup with ⟨⟨s, -, rfl⟩, hshared⟩
    exact ⟨rfl, hshared⟩
  · intro hgroup
    rcases hgroup with ⟨heq, hshared⟩
    have hmembers : g.members = samples.filter (·.delta = g.delta) := by
      rw [heq]
      rfl
    rw [hmembers]
    have hpos : 0 < (samples.filter (·.delta = g.delta)).length :=
      Nat.lt_of_lt_of_le (by decide) hshared
    obtain ⟨s, hs⟩ := List.exists_mem_of_length_pos hpos
    obtain ⟨hmem, hdelta⟩ := List.mem_filter.mp hs
    exact ⟨⟨s, hmem, by rw [of_decide_eq_true hdelta, ← heq]⟩, hshared⟩

/-- No two groups have one delta. -/
theorem nodup_deltas (samples : List Shift) : ((ofSamples samples).map (·.delta)).Nodup := by
  have hsorted := List.mergeSort_perm
    (((samples.map (·.delta)).eraseDups.map (ofDelta samples)).filter fun g =>
      leastSize ≤ g.members.length) ranksBefore
  have hdeltas : ((samples.map (·.delta)).eraseDups.map (ofDelta samples)).map (·.delta) =
      (samples.map (·.delta)).eraseDups := by
    simp [ofDelta, Function.comp_def]
  rw [ofSamples, (hsorted.map _).nodup_iff]
  refine List.Nodup.sublist (List.filter_sublist.map _) ?_
  rw [hdeltas]
  exact Ordered.nodup_eraseDups _

/-- Of groups with different deltas, the one in front is larger, or as large with the smaller
delta. -/
theorem pairwise_ofSamples (samples : List Shift) :
    (ofSamples samples).Pairwise fun a b => b.members.length < a.members.length ∨
      a.members.length = b.members.length ∧ a.delta < b.delta := by
  have hranked : (ofSamples samples).Pairwise fun a b => ranksBefore a b = true := by
    refine List.pairwise_mergeSort (fun a b c hab hbc => ?_) (fun a b => ?_) _
    · simp only [ranksBefore, decide_eq_true_eq] at hab hbc ⊢
      omega
    · simp only [ranksBefore, Bool.or_eq_true, decide_eq_true_eq]
      omega
  have hdistinct : (ofSamples samples).Pairwise fun a b => a.delta ≠ b.delta :=
    List.pairwise_map.mp (nodup_deltas samples)
  refine (hranked.and hdistinct).imp fun hboth => ?_
  rcases hboth with ⟨hranks, hne⟩
  simp only [ranksBefore, decide_eq_true_eq] at hranks
  omega

/-- The group of a delta that enough samples share is the only one with that delta. -/
theorem filter_ofSamples_of_shared {delta : Int}
    (h : leastSize ≤ (samples.filter (·.delta = delta)).length) :
    (ofSamples samples).filter (·.delta = delta) = [ofDelta samples delta] := by
  have hmem : ofDelta samples delta ∈ (ofSamples samples).filter (·.delta = delta) :=
    List.mem_filter.mpr ⟨mem_ofSamples.mpr ⟨rfl, h⟩, decide_eq_true rfl⟩
  have hall : ∀ g ∈ (ofSamples samples).filter (·.delta = delta), g = ofDelta samples delta := by
    intro g hg
    obtain ⟨hgroup, hdelta⟩ := List.mem_filter.mp hg
    rw [← of_decide_eq_true hdelta]
    exact (mem_ofSamples.mp hgroup).1
  have hnodup : ((ofSamples samples).filter (·.delta = delta)).Nodup :=
    (List.Nodup.of_map _ (nodup_deltas samples)).filter _
  exact List.Perm.eq_singleton ((List.perm_ext_iff_of_nodup hnodup (List.nodup_singleton _)).mpr
    fun g => ⟨fun hg => List.mem_singleton.mpr (hall g hg),
      fun hg => List.mem_singleton.mp hg ▸ hmem⟩)

/-- A delta that too few samples share has no group. -/
theorem filter_ofSamples_of_not_shared {delta : Int}
    (h : ¬leastSize ≤ (samples.filter (·.delta = delta)).length) :
    (ofSamples samples).filter (·.delta = delta) = [] := by
  refine List.filter_eq_nil_iff.mpr fun g hg hdelta => h ?_
  rw [← of_decide_eq_true hdelta]
  exact (mem_ofSamples.mp hg).2

/-- The structs of a group are those of its members. -/
@[simp] theorem mem_structs {name : String} :
    name ∈ g.structs ↔ ∃ s ∈ g.members, s.structName = name := by
  simp [structs]

end ShiftGroup

end LayoutWatch
