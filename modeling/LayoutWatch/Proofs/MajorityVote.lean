import LayoutWatch.Proofs.Binary64.Nearest
import LayoutWatch.Proofs.EvidenceOrder

/-!
# The outcome of a vote

The samples that moved vote for their deltas. There is an outcome exactly when some delta has two
votes. The delta of the outcome has more votes than any other, or as many and is smaller in size, or
as large and negative. The samples with this delta and those with another one are listed in their
order, and the samples that did not move count in the share only. The order of the samples decides
nothing but the order of these two lists.
-/

namespace LayoutWatch.ShiftGroup

/-- The confidence of the group is the share of its members, of which there are some, among its
candidates. -/
structure IsShare (g : ShiftGroup) : Prop where
  /-- A group is not empty. -/
  length_members_pos : 0 < g.members.length
  /-- The members are among the candidates. -/
  length_members_le : g.members.length ≤ g.totalCandidates
  /-- The confidence is the share of the members among the candidates. -/
  confidence_eq : g.confidence = Binary64.share g.members.length g.totalCandidates

namespace IsShare

variable {g : ShiftGroup} (h : g.IsShare)

include h

/-- Some sample is a candidate. -/
theorem totalCandidates_pos : 0 < g.totalCandidates :=
  Nat.lt_of_lt_of_le h.length_members_pos h.length_members_le

/-- The confidence is the nearest number to the members over the candidates. -/
theorem confidence_nearest :
    g.confidence.Nearest ((g.members.length : ℚ) / g.totalCandidates) := by
  rw [h.confidence_eq]
  exact Binary64.share_nearest h.totalCandidates_pos h.length_members_le

/-- The confidence is at most one. -/
theorem confidence_le_one : g.confidence.value ≤ 1 := by
  rw [h.confidence_eq]
  exact Binary64.share_le_one h.totalCandidates_pos h.length_members_le

/-- The confidence is positive, unless the share is smaller than the least positive number of the
format. -/
theorem confidence_pos (hfits : g.totalCandidates ≤ 2 ^ 1074) : 0 < g.confidence.value := by
  rw [h.confidence_eq]
  exact Binary64.share_pos h.length_members_pos h.length_members_le hfits

end IsShare

/-- The votes of the samples for a delta. -/
def votes (samples : List Shift) (delta : Int) : Nat := samples.countP (·.delta = delta)

/-- The first delta goes ahead of the second in a vote of the samples. -/
def GoesAhead (samples : List Shift) (delta other : Int) : Prop :=
  votes samples other < votes samples delta ∨
    votes samples other = votes samples delta ∧
      (delta.natAbs < other.natAbs ∨ delta.natAbs = other.natAbs ∧ delta < other)

/-- The group is the outcome of the vote of the samples. -/
structure IsOutcome (g : ShiftGroup) (samples : List Shift) : Prop where
  /-- Its members have moved. -/
  delta_ne_zero : g.delta ≠ 0
  /-- At least two samples voted for its delta. -/
  two_le_votes : 2 ≤ votes samples g.delta
  /-- The delta goes ahead of every other one that samples moved by. -/
  goesAhead : ∀ other, other ≠ 0 → other ≠ g.delta → GoesAhead samples g.delta other
  /-- Members are the samples with the delta. -/
  members_eq : g.members = samples.filter (·.delta = g.delta)
  /-- Anomalies are the samples that moved by another one. -/
  anomalies_eq : g.anomalies = samples.filter fun s => s.delta ≠ 0 ∧ s.delta ≠ g.delta
  /-- All samples were asked. -/
  totalCandidates_eq : g.totalCandidates = samples.length
  /-- The confidence is the share of the members. -/
  confidence_eq : g.confidence = Binary64.share g.members.length samples.length

variable {samples : List Shift} {g : ShiftGroup} {delta : Int}

/-- The samples that moved cast the votes for the deltas other than zero. -/
theorem count_movedDeltas (h : delta ≠ 0) :
    (movedDeltas samples).count delta = votes samples delta := by
  have hkept := List.count_filter (p := fun other : Int => decide (other ≠ 0))
    (l := samples.map (·.delta)) (decide_eq_true h)
  rw [movedDeltas, hkept, List.count_eq_countP, List.countP_map]
  rfl

/-- Nobody who moved is at zero. -/
theorem ne_zero_of_mem_movedDeltas (h : delta ∈ movedDeltas samples) : delta ≠ 0 :=
  of_decide_eq_true (List.mem_filter.mp h).2

/-- A delta that wins among those that moved is another one than zero. -/
theorem Wins.ne_zero (h : Wins (movedDeltas samples) delta) : delta ≠ 0 := by
  have hshared := h.shared
  have hpos : 0 < (movedDeltas samples).count delta := Nat.lt_of_lt_of_le (by decide) hshared
  exact ne_zero_of_mem_movedDeltas (List.count_pos_iff.mp hpos)

/-- A delta wins among those that moved exactly when it has two votes and goes ahead of every
other. -/
theorem wins_movedDeltas_iff : Wins (movedDeltas samples) delta ↔
    delta ≠ 0 ∧ 2 ≤ votes samples delta ∧
      ∀ other, other ≠ 0 → other ≠ delta → GoesAhead samples delta other := by
  constructor
  · intro hwins
    have hne := hwins.ne_zero
    have hshared := hwins.shared
    rw [count_movedDeltas hne, leastSize] at hshared
    refine ⟨hne, hshared, fun other hzero hother => ?_⟩
    rw [GoesAhead]
    by_cases hmem : other ∈ movedDeltas samples
    · have hbeats := hwins.beats other hmem hother
      rw [count_movedDeltas hne, count_movedDeltas hzero] at hbeats
      simp only [beats, decide_eq_true_eq] at hbeats
      omega
    · have hnone := List.count_eq_zero.mpr hmem
      rw [count_movedDeltas hzero] at hnone
      omega
  · intro hahead
    rcases hahead with ⟨hne, hshared, hahead⟩
    refine ⟨?_, fun other hmem hother => ?_⟩
    · rw [count_movedDeltas hne]
      exact hshared
    · have hzero := ne_zero_of_mem_movedDeltas hmem
      have hfirst := hahead other hzero hother
      rw [GoesAhead] at hfirst
      rw [count_movedDeltas hne, count_movedDeltas hzero]
      simp only [beats, decide_eq_true_eq]
      omega

/-- There is no outcome exactly when no delta other than zero has two votes. -/
theorem majority?_eq_none_iff :
    majority? samples = none ↔ ∀ delta, delta ≠ 0 → votes samples delta < 2 := by
  constructor
  · intro hnone delta hne
    by_contra htwo
    have hshared : leastSize ≤ (movedDeltas samples).count delta := by
      rw [count_movedDeltas hne, leastSize]
      omega
    have hwinner := exists_wins_iff.mpr ⟨delta, hshared⟩
    rcases hwinner with ⟨winner, hwins⟩
    have hsome := exists_majority? hwins
    rcases hsome with ⟨g, hg, -⟩
    rw [hnone] at hg
    cases hg
  · intro hfew
    cases hsome : majority? samples with
    | none => rfl
    | some g =>
      have hwins := (wins_movedDeltas_iff.mp (majority?_eq_some_iff.mp hsome).1)
      have htwo := hfew g.delta hwins.1
      omega

/-- The group of a vote is its outcome. -/
theorem isOutcome_of_majority? (h : majority? samples = some g) : g.IsOutcome samples := by
  have hgroup := majority?_eq_some_iff.mp h
  rcases hgroup with ⟨hwins, hmembers, hanomalies, htotal, hconfidence⟩
  have houtcome := wins_movedDeltas_iff.mp hwins
  refine ⟨houtcome.1, houtcome.2.1, houtcome.2.2, ?_, ?_, htotal, hconfidence⟩
  · rw [hmembers, List.filter_filter]
    refine List.filter_congr fun s _ => ?_
    rw [Bool.and_eq_left_iff_imp, decide_eq_true_eq]
    intro hdelta
    rw [hdelta]
    exact decide_eq_true houtcome.1
  · rw [hanomalies, List.filter_filter]
    refine List.filter_congr fun s _ => ?_
    rw [Bool.decide_and, Bool.and_comm]

/-- The members of an outcome are counted among all samples. -/
theorem IsOutcome.isShare (h : g.IsOutcome samples) : g.IsShare := by
  have hvotes : g.members.length = votes samples g.delta := by
    rw [h.members_eq, votes, List.countP_eq_length_filter]
  have htwo := h.two_le_votes
  refine ⟨by omega, ?_, ?_⟩
  · rw [h.totalCandidates_eq, h.members_eq]
    exact List.length_filter_le _ _
  · rw [h.totalCandidates_eq]
    exact h.confidence_eq

/-- The vote comes to nothing exactly when no delta other than zero has two votes. Otherwise its
group is the outcome, with the number nearest to the share of the members as its confidence. The
order of the samples counts only for that of the members and the anomalies. -/
theorem majority?_decides (samples : List Shift) :
    (majority? samples = none ↔ ∀ delta, delta ≠ 0 → votes samples delta < 2) ∧
      (∀ g, majority? samples = some g →
        g.IsOutcome samples ∧
          g.confidence.Nearest ((g.members.length : ℚ) / samples.length) ∧
          (samples.length ≤ 2 ^ 1074 → 0 < g.confidence.value) ∧ g.confidence.value ≤ 1) ∧
      ∀ samples', samples.Perm samples' →
        Option.Rel Reordered (majority? samples) (majority? samples') := by
  refine ⟨majority?_eq_none_iff, fun g hg => ?_, fun samples' hperm => majority?_perm hperm⟩
  have houtcome := isOutcome_of_majority? hg
  have hshare := houtcome.isShare
  rw [← houtcome.totalCandidates_eq]
  exact ⟨houtcome, hshare.confidence_nearest, hshare.confidence_pos, hshare.confidence_le_one⟩

/-- Two members moved up and two moved down as far, one moved as far as a delta can, and one did
not move. -/
def tiedSamples : List Shift :=
  [⟨"Foo", "a", 0x10, 0x18, 8⟩, ⟨"Foo", "b", 0x20, 0x18, -8⟩, ⟨"Foo", "c", 0x30, 0x30, 0⟩,
    ⟨"Bar", "d", 0x18, 0x10, -8⟩, ⟨"Bar", "e", 0, Delta.least, Delta.least⟩,
    ⟨"Bar", "f", 0x40, 0x48, 8⟩]

/-- The tie goes to the members that moved down, also when the samples are read backwards. -/
theorem majority?_decides_tied : ∃ g, majority? tiedSamples = some g ∧ g.delta = -8 ∧
    g.members.map (·.member) = ["b", "d"] ∧ g.anomalies.map (·.member) = ["a", "e", "f"] ∧
    0 < g.confidence.value ∧ g.confidence.value ≤ 1 ∧
    ∃ g', majority? tiedSamples.reverse = some g' ∧ g'.delta = -8 := by
  have hvote := majority?_decides tiedSamples
  rcases hvote with ⟨-, hsome, hperm⟩
  have hgroup : majority? tiedSamples = some
      ⟨-8, [⟨"Foo", "b", 0x20, 0x18, -8⟩, ⟨"Bar", "d", 0x18, 0x10, -8⟩],
        [⟨"Foo", "a", 0x10, 0x18, 8⟩, ⟨"Bar", "e", 0, Delta.least, Delta.least⟩,
          ⟨"Bar", "f", 0x40, 0x48, 8⟩], 6, Binary64.share 2 6⟩ := by
    rfl
  have hshort : ∀ n, 3 ≤ n → tiedSamples.length ≤ 2 ^ n := by
    intro n hn
    have hlength : tiedSamples.length ≤ 2 ^ 3 := by decide
    exact Nat.le_trans hlength (Nat.pow_le_pow_right (by decide) hn)
  have hfacts := hsome _ hgroup
  rcases hfacts with ⟨-, -, hpos, hle⟩
  have hreversed := hperm tiedSamples.reverse (List.reverse_perm tiedSamples).symm
  rw [hgroup] at hreversed
  refine ⟨_, hgroup, rfl, rfl, rfl, hpos (hshort 1074 (by decide)), hle, ?_⟩
  cases hother : majority? tiedSamples.reverse with
  | none =>
    rw [hother] at hreversed
    cases hreversed
  | some g' =>
    rw [hother] at hreversed
    cases hreversed with
    | some hsame => exact ⟨g', rfl, hsame.delta_eq.symm⟩

end LayoutWatch.ShiftGroup
