import LayoutWatch.Proofs.MajorityVote
import LayoutWatch.Proofs.ShiftGroup

/-!
# Every sample is grouped once

The groups of shared deltas hold each sample that shares its delta with another one, and no sample
twice; the samples that are left over are those that are alone with their delta. A group lists the
samples of its delta and those that speak against it in their order, and a sample may speak against
several groups. The groups are in strict order of their sizes and deltas, so samples in another
order make the same groups, up to the order within them.
-/

namespace LayoutWatch.ShiftGroup

/-- The group is what the samples say about its delta. -/
structure IsGroupOf (g : ShiftGroup) (samples : List Shift) : Prop where
  /-- At least two samples have the delta. -/
  two_le_votes : 2 ≤ votes samples g.delta
  /-- Members are the samples with the delta. -/
  members_eq : g.members = samples.filter (·.delta = g.delta)
  /-- Anomalies are the samples with another delta in the structs of the members. -/
  anomalies_eq : g.anomalies = samples.filter fun s =>
    s.delta ≠ g.delta ∧ ∃ m ∈ g.members, m.structName = s.structName
  /-- Members and anomalies are the candidates. -/
  totalCandidates_eq : g.totalCandidates = g.members.length + g.anomalies.length
  /-- The confidence is the share of the members among the candidates. -/
  confidence_eq : g.confidence = Binary64.share g.members.length g.totalCandidates

/-- In the list of groups a delta comes before another one. -/
def ComesBefore (samples : List Shift) (delta other : Int) : Prop :=
  votes samples other < votes samples delta ∨
    votes samples delta = votes samples other ∧ delta < other

variable {samples samples' : List Shift} {g : ShiftGroup} {delta : Int}

/-- Of two deltas at most one comes before the other. -/
instance : Std.Asymm (ComesBefore samples) where
  asymm delta other h hback := by
    rw [ComesBefore] at h hback
    omega

/-- The samples with a delta are its votes. -/
theorem length_filter_eq_votes (samples : List Shift) (delta : Int) :
    (samples.filter (·.delta = delta)).length = votes samples delta := by
  rw [votes, List.countP_eq_length_filter]

/-- A group has a member for each vote for its delta. -/
theorem length_members_of_mem (hg : g ∈ ofSamples samples) :
    g.members.length = votes samples g.delta := by
  rw [(mem_ofSamples.mp hg).1, ← length_filter_eq_votes]
  rfl

/-- The groups are what the samples say about their deltas. -/
theorem isGroupOf_of_mem (hg : g ∈ ofSamples samples) : g.IsGroupOf samples := by
  have hgroup := mem_ofSamples.mp hg
  rcases hgroup with ⟨heq, hshared⟩
  rw [length_filter_eq_votes] at hshared
  have hmembers : g.members = samples.filter (·.delta = g.delta) := by
    rw [heq]
    rfl
  refine ⟨hshared, hmembers, ?_, ?_, ?_⟩
  · rw [hmembers]
    conv_lhs => rw [heq, ofDelta]
    refine List.filter_congr fun s _ => ?_
    rw [Bool.eq_iff_iff, Bool.and_eq_true, List.any_eq_true, decide_eq_true_eq, decide_eq_true_eq]
    simp only [beq_iff_eq]
  · rw [heq]
    rfl
  · rw [heq]
    rfl

/-- The members of a group are counted among the candidates. -/
theorem IsGroupOf.isShare (h : g.IsGroupOf samples) : g.IsShare := by
  have htwo := h.two_le_votes
  rw [← length_filter_eq_votes, ← h.members_eq] at htwo
  have htotal := h.totalCandidates_eq
  exact ⟨by omega, by omega, h.confidence_eq⟩

/-- The candidates of a group are among the samples. -/
theorem IsGroupOf.totalCandidates_le (h : g.IsGroupOf samples) :
    g.totalCandidates ≤ samples.length := by
  rw [h.totalCandidates_eq, h.members_eq, h.anomalies_eq, ← List.countP_eq_length_filter,
    ← List.countP_eq_length_filter,
    List.length_eq_countP_add_countP (fun s : Shift => decide (s.delta = g.delta))]
  refine Nat.add_le_add_left (List.countP_mono_left fun s _ hs => ?_) _
  simp only [decide_eq_true_eq] at hs ⊢
  exact hs.1

/-- The delta of a group is that of one of the samples. -/
theorem IsGroupOf.exists_sample (h : g.IsGroupOf samples) : ∃ s ∈ samples, s.delta = g.delta := by
  obtain ⟨s, hs, hdelta⟩ := List.countP_pos_iff.mp (Nat.lt_of_lt_of_le two_pos h.two_le_votes)
  exact ⟨s, hs, of_decide_eq_true hdelta⟩

/-- The deltas of the groups, in the order of the groups. -/
def groupDeltas (samples : List Shift) : List Int := (ofSamples samples).map (·.delta)

/-- A delta has a group exactly when two samples share it. -/
theorem mem_groupDeltas : delta ∈ groupDeltas samples ↔ 2 ≤ votes samples delta := by
  rw [groupDeltas, List.mem_map, ← length_filter_eq_votes]
  constructor
  · rintro ⟨g, hg, rfl⟩
    exact (mem_ofSamples.mp hg).2
  · intro hshared
    exact ⟨ofDelta samples delta, mem_ofSamples.mpr ⟨rfl, hshared⟩, rfl⟩

/-- The groups are made of their deltas. -/
theorem ofSamples_eq_map (samples : List Shift) :
    ofSamples samples = (groupDeltas samples).map (ofDelta samples) := by
  rw [groupDeltas, List.map_map]
  refine (List.map_id _).symm.trans (List.map_congr_left fun g hg => ?_)
  exact (mem_ofSamples.mp hg).1

/-- The deltas of the groups are in strict order. -/
theorem pairwise_groupDeltas (samples : List Shift) :
    (groupDeltas samples).Pairwise (ComesBefore samples) := by
  refine List.pairwise_map.mpr ((pairwise_ofSamples samples).imp_of_mem ?_)
  intro g g' hg hg' hbefore
  rw [length_members_of_mem hg, length_members_of_mem hg'] at hbefore
  exact hbefore

/-- The members of all groups are the samples whose delta has a group. -/
theorem flatMap_members_perm (samples : List Shift) :
    ((ofSamples samples).flatMap (·.members)).Perm
      (samples.filter (·.delta ∈ groupDeltas samples)) := by
  rw [ofSamples_eq_map, List.flatMap_map]
  exact Ordered.flatMap_filter_perm (nodup_deltas samples) (fun s : Shift => s.delta) samples

/-- The members of all groups and the samples that are alone with their deltas are all samples. -/
theorem members_append_alone_perm (samples : List Shift) :
    ((ofSamples samples).flatMap (·.members) ++
      samples.filter fun s => votes samples s.delta = 1).Perm samples := by
  have halone : (samples.filter fun s => votes samples s.delta = 1) =
      samples.filter fun s => !decide (s.delta ∈ groupDeltas samples) := by
    refine List.filter_congr fun s hs => ?_
    have hone : 1 ≤ votes samples s.delta :=
      List.countP_pos_iff.mpr ⟨s, hs, decide_eq_true rfl⟩
    rw [Bool.eq_iff_iff, Bool.not_eq_true', decide_eq_true_eq, decide_eq_false_iff_not,
      mem_groupDeltas]
    omega
  rw [halone]
  exact ((flatMap_members_perm samples).append_right _).trans (List.filter_append_perm _ samples)

/-- Samples in another order share the same deltas, in the same order. -/
theorem groupDeltas_eq_of_perm (h : samples.Perm samples') :
    groupDeltas samples = groupDeltas samples' := by
  have hvotes : votes samples = votes samples' := funext fun _ => h.countP_eq _
  have hbefore : ComesBefore samples = ComesBefore samples' := by
    funext delta other
    rw [ComesBefore, ComesBefore, hvotes]
  have hpairwise := pairwise_groupDeltas samples'
  rw [← hbefore] at hpairwise
  refine (pairwise_groupDeltas samples).eq_of_mem_iff hpairwise fun delta => ?_
  rw [mem_groupDeltas, mem_groupDeltas, hvotes]

/-- Samples in another order make the same group of a delta. -/
theorem reordered_ofDelta (h : samples.Perm samples') (delta : Int) :
    (ofDelta samples delta).Reordered (ofDelta samples' delta) := by
  have hmembers : (ofDelta samples delta).members.Perm (ofDelta samples' delta).members :=
    h.filter _
  have hanomalies : (ofDelta samples delta).anomalies.Perm (ofDelta samples' delta).anomalies := by
    rw [ofDelta, ofDelta]
    dsimp only
    have hlisted : ∀ s : Shift,
        (samples.filter (·.delta = delta)).any (·.structName == s.structName) =
          (samples'.filter (·.delta = delta)).any (·.structName == s.structName) :=
      fun s => (h.filter _).any_eq
    simp only [hlisted]
    exact h.filter _
  have htotal : (ofDelta samples delta).totalCandidates =
      (ofDelta samples' delta).totalCandidates :=
    congrArg₂ (· + ·) hmembers.length_eq hanomalies.length_eq
  exact ⟨rfl, hmembers, hanomalies, htotal,
    congrArg₂ Binary64.share hmembers.length_eq htotal⟩

/-- Samples in another order make the same groups, in the same order. -/
theorem ofSamples_forall₂_of_perm (h : samples.Perm samples') :
    List.Forall₂ Reordered (ofSamples samples) (ofSamples samples') := by
  rw [ofSamples_eq_map samples, ofSamples_eq_map samples', groupDeltas_eq_of_perm h,
    List.forall₂_map_left_iff, List.forall₂_map_right_iff]
  exact List.forall₂_same.mpr fun delta _ => reordered_ofDelta h delta

/-- Each sample is a member of exactly one group, or else alone with its delta. Larger groups stand
in front, and among equals the smaller delta. The order of the samples counts only for that of the
members and the anomalies of a group. -/
theorem ofSamples_conserves (samples : List Shift) :
    ((ofSamples samples).flatMap (·.members) ++
      samples.filter fun s => votes samples s.delta = 1).Perm samples ∧
    (∀ g ∈ ofSamples samples, g.IsGroupOf samples ∧
      g.confidence.Nearest ((g.members.length : ℚ) / g.totalCandidates) ∧
      (g.totalCandidates ≤ 2 ^ 1074 → 0 < g.confidence.value) ∧ g.confidence.value ≤ 1) ∧
    ((ofSamples samples).map (·.delta)).Nodup ∧
    ((ofSamples samples).Pairwise fun a b => b.members.length < a.members.length ∨
      a.members.length = b.members.length ∧ a.delta < b.delta) ∧
    ∀ samples', samples.Perm samples' →
      List.Forall₂ Reordered (ofSamples samples) (ofSamples samples') := by
  refine ⟨members_append_alone_perm samples, fun g hg => ?_, nodup_deltas samples,
    pairwise_ofSamples samples, fun samples' h => ofSamples_forall₂_of_perm h⟩
  have hgroup := isGroupOf_of_mem hg
  have hshare := hgroup.isShare
  exact ⟨hgroup, hshare.confidence_nearest, hshare.confidence_pos, hshare.confidence_le_one⟩

/-- Two members of different structs moved by 8, one did not move and was sampled twice, and one is
alone with its delta. -/
def mixedSamples : List Shift :=
  [⟨"Foo", "a", 0x10, 0x18, 8⟩, ⟨"Foo", "b", 0x20, 0x20, 0⟩, ⟨"Bar", "c", 0x10, 0x18, 8⟩,
    ⟨"Foo", "d", 0x30, 0x28, -8⟩, ⟨"Foo", "b", 0x20, 0x20, 0⟩]

/-- The sample that is alone speaks against both groups, and read backwards the samples make the
same two groups. -/
theorem ofSamples_conserves_mixed :
    ∃ still ∈ ofSamples mixedSamples, ∃ moved ∈ ofSamples mixedSamples,
      still.delta = 0 ∧ still.members.map (·.member) = ["b", "b"] ∧
      still.anomalies.map (·.member) = ["a", "d"] ∧
      moved.delta = 8 ∧ moved.members.map (·.member) = ["a", "c"] ∧
      moved.anomalies.map (·.member) = ["b", "d", "b"] ∧
      (0 < still.confidence.value ∧ still.confidence.value ≤ 1) ∧
      ((ofSamples mixedSamples).flatMap (·.members)).length = 4 ∧
      List.Forall₂ Reordered (ofSamples mixedSamples) (ofSamples mixedSamples.reverse) := by
  have hgroups := ofSamples_conserves mixedSamples
  rcases hgroups with ⟨hall, heach, -, -, hreordered⟩
  have hstill : ofDelta mixedSamples 0 ∈ ofSamples mixedSamples :=
    mem_ofSamples.mpr ⟨rfl, by decide⟩
  have hmoved : ofDelta mixedSamples 8 ∈ ofSamples mixedSamples :=
    mem_ofSamples.mpr ⟨rfl, by decide⟩
  have hfits : ∀ n, 2 ≤ n → (ofDelta mixedSamples 0).totalCandidates ≤ 2 ^ n := by
    intro n hn
    have hfew : (ofDelta mixedSamples 0).totalCandidates ≤ 2 ^ 2 := by decide
    exact Nat.le_trans hfew (Nat.pow_le_pow_right (by decide) hn)
  have hconfidence := heach _ hstill
  rcases hconfidence with ⟨-, -, hpos, hle⟩
  have hfour : ((ofSamples mixedSamples).flatMap (·.members)).length = 4 := by
    have halone : (mixedSamples.filter fun s => votes mixedSamples s.delta = 1).length = 1 := by
      decide
    have hlength := hall.length_eq
    rw [List.length_append, halone] at hlength
    exact Nat.add_right_cancel hlength
  exact ⟨_, hstill, _, hmoved, rfl, by decide, by decide, rfl, by decide, by decide,
    ⟨hpos (hfits 1074 (by decide)), hle⟩, hfour, hreordered _ (List.reverse_perm mixedSamples).symm⟩

end LayoutWatch.ShiftGroup
