import LayoutWatch.Proofs.Delta
import LayoutWatch.Proofs.Ordered
import Mathlib.Data.List.Count

/-!
# The vote among moved members

Members that did not move have no vote. The delta that wins is shared by at least two of the
others and beats every other delta by the number of its members, then by its size, then by its
sign. There is a winner exactly when some delta is shared at all.
-/

namespace LayoutWatch

namespace ShiftGroup

/-- The deltas of the members that moved. -/
def movedDeltas (samples : List Shift) : List Int := (samples.map (·.delta)).filter (· ≠ 0)

/-- A delta wins the vote of a list of deltas. -/
structure Wins (deltas : List Int) (delta : Int) : Prop where
  /-- Enough members share it. -/
  shared : leastSize ≤ deltas.count delta
  /-- It beats every other delta that occurs. -/
  beats : ∀ other ∈ deltas, other ≠ delta →
    beats (delta, deltas.count delta) (other, deltas.count other) = true

/-- What beats an element beats what that one beats. -/
theorem beats_trans (a b c : Int × Nat) (hab : beats a b = true) (hbc : beats b c = true) :
    beats a c = true := by
  simp only [beats, decide_eq_true_eq] at hab hbc ⊢
  omega

/-- Nothing beats itself. -/
theorem beats_irrefl (a : Int × Nat) : beats a a = false := by
  simp [beats]

/-- Of two deltas one beats the other. -/
theorem beats_total {a b : Int × Nat} (hne : a.1 ≠ b.1) : beats a b = true ∨ beats b a = true := by
  simp only [beats, decide_eq_true_eq]
  omega

section Deltas

variable {deltas : List Int} {delta : Int}

/-- The deltas of a list with the numbers of their members. -/
def counts (deltas : List Int) : List (Int × Nat) :=
  deltas.eraseDups.map fun delta => (delta, deltas.count delta)

/-- Each delta stands with its number. -/
@[simp] theorem mem_counts {count : Nat} :
    (delta, count) ∈ counts deltas ↔ delta ∈ deltas ∧ count = deltas.count delta := by
  simp only [counts, List.mem_map, List.mem_eraseDups, Prod.mk.injEq]
  constructor
  · intro hcounted
    rcases hcounted with ⟨_, hmem, rfl, rfl⟩
    exact ⟨hmem, rfl⟩
  · intro hcounted
    rcases hcounted with ⟨hmem, rfl⟩
    exact ⟨delta, hmem, rfl, rfl⟩

/-- The best delta is the one that beats every other. -/
theorem best?_counts_eq_some_iff {count : Nat} :
    Ordered.best? beats (counts deltas) = some (delta, count) ↔
      (delta ∈ deltas ∧ count = deltas.count delta) ∧ ∀ other ∈ deltas, other ≠ delta →
        beats (delta, deltas.count delta) (other, deltas.count other) = true := by
  have htotal : ∀ a ∈ counts deltas, ∀ b ∈ counts deltas, a ≠ b →
      beats a b = true ∨ beats b a = true := by
    rintro ⟨d, n⟩ ha ⟨d', n'⟩ hb hne
    refine beats_total fun heq => hne ?_
    obtain ⟨-, rfl⟩ := mem_counts.mp ha
    obtain ⟨-, rfl⟩ := mem_counts.mp hb
    obtain rfl : d = d' := heq
    rfl
  rw [Ordered.best?_eq_some_iff beats_trans beats_irrefl htotal, mem_counts]
  refine and_congr_right fun hbest => ?_
  constructor
  · intro h other hother hne
    rw [← hbest.2]
    exact h _ (mem_counts.mpr ⟨hother, rfl⟩) fun heq => hne (congrArg Prod.fst heq)
  · rintro h ⟨d, n⟩ hmem hne
    obtain ⟨hd, rfl⟩ := mem_counts.mp hmem
    rw [hbest.2]
    refine h d hd fun heq => hne ?_
    rw [heq, hbest.2]

/-- The winner is the best delta, if enough members share it. -/
theorem wins_iff : Wins deltas delta ↔
    Ordered.best? beats (counts deltas) = some (delta, deltas.count delta) ∧
      leastSize ≤ deltas.count delta := by
  rw [best?_counts_eq_some_iff]
  constructor
  · intro hwins
    rcases hwins with ⟨hshared, hbeats⟩
    rw [leastSize] at hshared
    exact ⟨⟨⟨List.count_pos_iff.mp (by omega), rfl⟩, hbeats⟩, hshared⟩
  · intro hbest
    rcases hbest with ⟨⟨-, hbeats⟩, hshared⟩
    exact ⟨hshared, hbeats⟩

/-- There is a winner exactly when some delta is shared. -/
theorem exists_wins_iff :
    (∃ delta, Wins deltas delta) ↔ ∃ delta, leastSize ≤ deltas.count delta := by
  constructor
  · intro hwinner
    rcases hwinner with ⟨delta, hwins⟩
    exact ⟨delta, hwins.shared⟩
  · intro hpair
    rcases hpair with ⟨shared, hshared⟩
    have hmem : shared ∈ deltas := by
      rw [leastSize] at hshared
      exact List.count_pos_iff.mp (by omega)
    rcases hbest : Ordered.best? beats (counts deltas) with _ | ⟨best, count⟩
    · have hcounts := mem_counts.mpr ⟨hmem, rfl⟩
      rw [Ordered.best?_eq_none_iff.mp hbest] at hcounts
      exact absurd hcounts List.not_mem_nil
    · obtain ⟨⟨hbestMem, rfl⟩, hbeats⟩ := best?_counts_eq_some_iff.mp hbest
      refine ⟨best, wins_iff.mpr ⟨hbest, ?_⟩⟩
      by_cases heq : shared = best
      · exact heq ▸ hshared
      · have hahead := hbeats shared hmem heq
        simp only [beats, decide_eq_true_eq] at hahead
        omega

end Deltas

section Samples

variable {samples : List Shift} {delta : Int}

/-- The moved samples have the moved deltas. -/
theorem map_delta_filter :
    (samples.filter (·.delta ≠ 0)).map (·.delta) = movedDeltas samples := by
  rw [movedDeltas, List.filter_map]
  rfl

/-- The samples with a delta are as many as the delta occurs. -/
theorem length_filter_delta (moved : List Shift) :
    (moved.filter (·.delta = delta)).length = (moved.map (·.delta)).count delta := by
  rw [List.count_eq_countP, List.countP_map, ← List.countP_eq_length_filter]
  rfl

/-- The samples without a delta are the rest. -/
theorem length_filter_other (moved : List Shift) :
    (moved.filter (·.delta = delta)).length + (moved.filter (·.delta ≠ delta)).length =
      moved.length := by
  rw [← List.countP_eq_length_filter, ← List.countP_eq_length_filter,
    List.length_eq_countP_add_countP (fun s : Shift => decide (s.delta = delta)) (l := moved)]
  simp

/-- The group of the winner: its members are those with the winning delta, and its anomalies are
the other members that moved. -/
theorem majority?_eq_some_iff {g : ShiftGroup} :
    majority? samples = some g ↔ Wins (movedDeltas samples) g.delta ∧
      g.members = (samples.filter (·.delta ≠ 0)).filter (·.delta = g.delta) ∧
      g.anomalies = (samples.filter (·.delta ≠ 0)).filter (·.delta ≠ g.delta) ∧
      g.totalCandidates = samples.length ∧
      g.confidence = Binary64.share g.members.length samples.length := by
  have hcounts : ((samples.filter (·.delta ≠ 0)).map (·.delta)).eraseDups.map (fun delta =>
      (delta, (samples.filter (·.delta ≠ 0)).countP (·.delta = delta))) =
        counts (movedDeltas samples) := by
    rw [map_delta_filter, counts]
    refine List.map_congr_left fun delta _ => ?_
    rw [List.countP_eq_length_filter, length_filter_delta, map_delta_filter]
  unfold majority?
  dsimp only
  rw [hcounts, wins_iff]
  rcases hbest : Ordered.best? beats (counts (movedDeltas samples)) with _ | ⟨best, count⟩
  · simp
  · obtain ⟨⟨-, rfl⟩, -⟩ := best?_counts_eq_some_iff.mp hbest
    dsimp only
    split
    · next hfew =>
      simp only [reduceCtorEq, Option.some.injEq, Prod.mk.injEq, false_iff, not_and]
      intro hgroup
      rcases hgroup with ⟨⟨rfl, -⟩, hshared⟩
      exact absurd hshared (Nat.not_le_of_lt hfew)
    · next hmany =>
      obtain ⟨d, members, anomalies, total, confidence⟩ := g
      simp only [Option.some.injEq, ShiftGroup.mk.injEq, Prod.mk.injEq]
      constructor
      · intro hparts
        rcases hparts with ⟨rfl, rfl, rfl, rfl, rfl⟩
        exact ⟨⟨⟨rfl, rfl⟩, Nat.le_of_not_lt hmany⟩, rfl, rfl, rfl, rfl⟩
      · intro hparts
        rcases hparts with ⟨⟨⟨hdelta, -⟩, -⟩, hmembers, hanomalies, htotal, hconfidence⟩
        subst hdelta
        exact ⟨rfl, hmembers.symm, hanomalies.symm, htotal.symm, by rw [hconfidence, hmembers]⟩

/-- There is a group for the winner. -/
theorem exists_majority? (h : Wins (movedDeltas samples) delta) :
    ∃ g, majority? samples = some g ∧ g.delta = delta := by
  let members := (samples.filter (·.delta ≠ 0)).filter (·.delta = delta)
  let anomalies := (samples.filter (·.delta ≠ 0)).filter (·.delta ≠ delta)
  exact ⟨⟨delta, members, anomalies, samples.length, Binary64.share members.length samples.length⟩,
    majority?_eq_some_iff.mpr ⟨h, rfl, rfl, rfl, rfl⟩, rfl⟩

/-- Members and anomalies of a group in numbers of moved deltas. -/
theorem length_of_majority? {g : ShiftGroup} (h : majority? samples = some g) :
    g.members.length = (movedDeltas samples).count g.delta ∧
      g.members.length + g.anomalies.length = (movedDeltas samples).length := by
  obtain ⟨-, hmembers, hanomalies, -⟩ := majority?_eq_some_iff.mp h
  rw [hanomalies, hmembers, length_filter_other, length_filter_delta, map_delta_filter]
  exact ⟨rfl, by rw [← map_delta_filter, List.length_map]⟩

end Samples

end ShiftGroup

end LayoutWatch
