import LayoutWatch.Proofs.Ordered
import LayoutWatch.Proofs.Pattern.Search
import LayoutWatch.Scan
import Mathlib.Data.List.Basic

/-!
# The vote among the sites of a signature

Each site carries one offset or none. The offset that is reported is carried by some site and is
ahead of every other offset that is: more sites carry it, or as many and the first of them lies
in front. Where no site carries an offset, none is reported. A sighting is found exactly when the
search takes a site.
-/

namespace LayoutWatch

namespace Sighting

section Vote

variable {sites : List Nat} {observe : Nat → Option UInt64}

/-- The sites that carry an offset. -/
def carriers (sites : List Nat) (observe : Nat → Option UInt64) (offset : UInt64) : List Nat :=
  sites.filter fun site => observe site == some offset

/-- One list of sites counts for more than another: it is longer, or as long with an earlier
first site. -/
def Ahead (mine theirs : List Nat) : Prop :=
  theirs.length < mine.length ∨
    theirs.length = mine.length ∧ mine.headD 0 < theirs.headD 0

instance (mine theirs : List Nat) : Decidable (Ahead mine theirs) :=
  inferInstanceAs (Decidable (_ ∨ _))

/-- The sites collected under an offset are its carriers. -/
theorem valuesOf_observed (sites : List Nat) (observe : Nat → Option UInt64) (offset : UInt64) :
    Ordered.valuesOf (sites.filterMap fun site => (observe site).map (·, site)) offset =
      carriers sites observe offset := by
  rw [Ordered.valuesOf, List.filterMap_filterMap, carriers, ← List.filterMap_eq_filter]
  refine List.filterMap_congr fun site _ => ?_
  cases hseen : observe site with
  | none => simp [Option.guard, hseen]
  | some seen => simp [Option.guard, hseen]

/-- There is one tally for each offset that some site carries. -/
theorem mem_tallies {t : Tally} : t ∈ tallies sites observe ↔ carriers sites observe t.value ≠ [] ∧
    t.count = (carriers sites observe t.value).length ∧
    t.first = (carriers sites observe t.value).headD 0 := by
  have hkey : ∀ offset, offset ∈ (sites.filterMap fun site => (observe site).map (·, site)).map
      (·.1) ↔ carriers sites observe offset ≠ [] := by
    intro offset
    rw [← valuesOf_observed, ← List.length_pos_iff, List.length_pos_iff_exists_mem]
    simp only [List.mem_map, Ordered.mem_valuesOf]
    constructor
    · intro hvalue
      rcases hvalue with ⟨⟨v, site⟩, hmem, rfl⟩
      exact ⟨site, hmem⟩
    · intro hcarrier
      rcases hcarrier with ⟨site, hmem⟩
      exact ⟨(offset, site), hmem, rfl⟩
  simp only [tallies, List.mem_map, Prod.exists, Ordered.mem_collect, valuesOf_observed, hkey]
  constructor
  · intro htally
    rcases htally with ⟨value, own, ⟨hne, rfl⟩, rfl⟩
    exact ⟨hne, rfl, rfl⟩
  · intro hoffset
    rcases hoffset with ⟨hne, hcount, hfirst⟩
    exact ⟨t.value, _, ⟨hne, rfl⟩, by rw [← hcount, ← hfirst]⟩

/-- The tally of an offset that some site carries. -/
theorem tally_mem {offset : UInt64} (hne : carriers sites observe offset ≠ []) :
    ⟨offset, (carriers sites observe offset).length, (carriers sites observe offset).headD 0⟩ ∈
      tallies sites observe :=
  mem_tallies.mpr ⟨hne, rfl, rfl⟩

/-- Tallies are compared as the sites they stand for. -/
theorem beats_iff {a b : Tally} (ha : a ∈ tallies sites observe) (hb : b ∈ tallies sites observe) :
    a.beats b = true ↔
      Ahead (carriers sites observe a.value) (carriers sites observe b.value) := by
  obtain ⟨-, hac, haf⟩ := mem_tallies.mp ha
  obtain ⟨-, hbc, hbf⟩ := mem_tallies.mp hb
  simp only [Tally.beats, decide_eq_true_eq, Ahead, hac, haf, hbc, hbf]
  rw [eq_comm (a := (carriers sites observe a.value).length)]

/-- The first site that carries an offset carries it. -/
theorem observe_headD {offset : UInt64} (hne : carriers sites observe offset ≠ []) :
    observe ((carriers sites observe offset).headD 0) = some offset := by
  have hmem : (carriers sites observe offset).headD 0 ∈ carriers sites observe offset := by
    rw [List.headD_eq_head?_getD, List.head?_eq_some_head hne]
    exact List.head_mem hne
  simpa [carriers] using (List.mem_filter.mp hmem).2

/-- Two tallies tie only if they are the same, since no site carries two offsets. -/
theorem beats_total {a b : Tally} (ha : a ∈ tallies sites observe)
    (hb : b ∈ tallies sites observe) (hne : a ≠ b) : a.beats b = true ∨ b.beats a = true := by
  obtain ⟨hacarried, hac, haf⟩ := mem_tallies.mp ha
  obtain ⟨hbcarried, hbc, hbf⟩ := mem_tallies.mp hb
  simp only [Tally.beats, decide_eq_true_eq]
  by_cases hcount : a.count = b.count
  · have hfirst : a.first ≠ b.first := by
      intro hsame
      have hvalue : some a.value = some b.value := by
        rw [← observe_headD hacarried, ← observe_headD hbcarried, ← haf, ← hbf, hsame]
      apply hne
      cases a
      cases b
      simp_all
    omega
  · omega

/-- A tally beats what is beaten by one that it beats. -/
theorem beats_trans (a b c : Tally) (hab : a.beats b = true) (hbc : b.beats c = true) :
    a.beats c = true := by
  simp only [Tally.beats, decide_eq_true_eq] at hab hbc ⊢
  omega

/-- No tally beats itself. -/
theorem beats_irrefl (a : Tally) : a.beats a = false := by
  simp [Tally.beats]

/-- The site and the offset that are reported: the offset is carried and ahead of every other one
that is, and the site is the first that carries it. -/
theorem chooseSite_eq_some_iff {first site : Nat} {offset : UInt64} :
    chooseSite first sites observe = (site, some offset) ↔
      carriers sites observe offset ≠ [] ∧ site = (carriers sites observe offset).headD 0 ∧
      ∀ other, other ≠ offset → carriers sites observe other ≠ [] →
        Ahead (carriers sites observe offset) (carriers sites observe other) := by
  have htotal : ∀ a ∈ tallies sites observe, ∀ b ∈ tallies sites observe, a ≠ b →
      a.beats b = true ∨ b.beats a = true := fun a ha b hb => beats_total ha hb
  have hbest := fun t => Ordered.best?_eq_some_iff (a := t) beats_trans beats_irrefl htotal
  constructor
  · intro h
    unfold chooseSite at h
    split at h
    · next t ht =>
      obtain ⟨hmem, hahead⟩ := (hbest t).mp ht
      obtain ⟨hcarried, -, hfirst⟩ := mem_tallies.mp hmem
      simp only [Prod.mk.injEq, Option.some.injEq] at h
      obtain ⟨rfl, rfl⟩ := h
      refine ⟨hcarried, hfirst, ?_⟩
      intro other hother hcarries
      have hother' := tally_mem hcarries
      rw [← beats_iff hmem hother']
      exact hahead _ hother' fun heq => hother (congrArg Tally.value heq)
    · exact absurd (congrArg Prod.snd h) (by simp)
  · intro hwins
    rcases hwins with ⟨hcarried, rfl, hahead⟩
    have hmem := tally_mem hcarried
    have ht := (hbest _).mpr ⟨hmem, fun other hother hne => ?_⟩
    · unfold chooseSite
      rw [ht]
    · rw [beats_iff hmem hother]
      obtain ⟨hcarries, hcount, hfirst⟩ := mem_tallies.mp hother
      refine hahead other.value (fun heq => hne ?_) hcarries
      rw [← heq, ← hcount, ← hfirst]

/-- No offset is reported exactly when no site carries one. -/
theorem chooseSite_eq_none_iff {first site : Nat} :
    chooseSite first sites observe = (site, none) ↔
      site = first ∧ ∀ place ∈ sites, observe place = none := by
  have htallies : tallies sites observe = [] ↔ ∀ place ∈ sites, observe place = none := by
    rw [List.eq_nil_iff_forall_not_mem]
    constructor
    · intro h place hplace
      cases hseen : observe place with
      | none => rfl
      | some offset =>
        have hcarries : carriers sites observe offset ≠ [] :=
          List.ne_nil_of_mem (List.mem_filter.mpr ⟨hplace, beq_iff_eq.mpr hseen⟩)
        exact absurd (tally_mem hcarries) (h _)
    · intro h t ht
      obtain ⟨place, hplace⟩ := List.exists_mem_of_ne_nil _ (mem_tallies.mp ht).1
      obtain ⟨hmem, hseen⟩ := List.mem_filter.mp hplace
      rw [h place hmem] at hseen
      exact absurd hseen (by simp)
  have hbest : Ordered.best? Tally.beats (tallies sites observe) = none ↔ _ :=
    Ordered.best?_eq_none_iff
  rw [← htallies, ← hbest, chooseSite]
  cases Ordered.best? Tally.beats (tallies sites observe) with
  | none => simp [eq_comm]
  | some t => simp

/-- Only an offset that is carried is ahead of another. -/
theorem ne_nil_of_ahead {mine theirs : List Nat} (h : Ahead mine theirs) : mine ≠ [] := by
  rintro rfl
  rcases h with h | ⟨h, hfirst⟩
  · exact absurd h (Nat.not_lt_zero _)
  · exact absurd hfirst (by simp [List.length_eq_zero_iff.mp h])

/-- An offset that is carried is ahead of every one that is not. -/
theorem ahead_nil {mine : List Nat} (h : mine ≠ []) : Ahead mine [] :=
  Or.inl (List.length_pos_iff.mpr h)

/-- Another offset than the given one is reported exactly when one is ahead of it. -/
theorem chooseSite_other_iff {first : Nat} {own : UInt64} :
    (chooseSite first sites observe).2.any (· != own) = true ↔
      ∃ other, other ≠ own ∧ Ahead (carriers sites observe other) (carriers sites observe own) := by
  rcases hchosen : chooseSite first sites observe with ⟨site, _ | offset⟩
  · have hnone := (chooseSite_eq_none_iff.mp hchosen).2
    refine iff_of_false (by simp) ?_
    intro houtvoted
    rcases houtvoted with ⟨other, -, hother⟩
    obtain ⟨place, hplace⟩ := List.exists_mem_of_ne_nil _ (ne_nil_of_ahead hother)
    obtain ⟨hmem, hseen⟩ := List.mem_filter.mp hplace
    rw [hnone place hmem] at hseen
    exact absurd hseen (by simp)
  · obtain ⟨hcarried, -, hahead⟩ := chooseSite_eq_some_iff.mp hchosen
    simp only [Option.any_some, bne_iff_ne]
    constructor
    · intro hne
      refine ⟨offset, hne, ?_⟩
      by_cases hown : carriers sites observe own = []
      · exact hown ▸ ahead_nil hcarried
      · exact hahead own (Ne.symm hne) hown
    · rintro ⟨other, hne, hother⟩ rfl
      have hback := hahead other hne (ne_nil_of_ahead hother)
      rw [Ahead] at hother hback
      omega

/-- An offset that is carried is reported exactly when no other one is ahead of it. -/
theorem chooseSite_own_iff {first : Nat} {own : UInt64} (hown : carriers sites observe own ≠ []) :
    (chooseSite first sites observe).2 = some own ↔ ¬∃ other, other ≠ own ∧
      Ahead (carriers sites observe other) (carriers sites observe own) := by
  have hother : (chooseSite first sites observe).2.any (· != own) = true ↔ _ :=
    chooseSite_other_iff
  rw [← hother]
  rcases hchosen : chooseSite first sites observe with ⟨site, _ | offset⟩
  · obtain ⟨place, hplace⟩ := List.exists_mem_of_ne_nil _ hown
    obtain ⟨hmem, hseen⟩ := List.mem_filter.mp hplace
    rw [(chooseSite_eq_none_iff.mp hchosen).2 place hmem] at hseen
    exact absurd hseen (by simp)
  · simp

/-- A single site is reported with what it carries. -/
@[simp] theorem chooseSite_singleton (site : Nat) (observe : Nat → Option UInt64) :
    chooseSite site [site] observe = (site, observe site) := by
  cases hseen : observe site with
  | none => simp [chooseSite_eq_none_iff, hseen]
  | some offset =>
    rw [chooseSite_eq_some_iff]
    have hcarriers : ∀ other, carriers [site] observe other =
        if offset = other then [site] else [] := by
      intro other
      simp [carriers, hseen, List.filter_cons]
    simp only [hcarriers]
    refine ⟨by simp, by simp, ?_⟩
    intro other hne hcarried
    exact absurd (if_neg (Ne.symm hne)) hcarried

end Vote

end Sighting

end LayoutWatch
