import LayoutWatch.Proofs.Comparison
import Mathlib.Data.List.Basic

/-!
# Moved fields against proposed shifts

The moved fields of a comparison pair a key with the last new field that has it, and the proposed
shifts with the first one. Both tell the same story exactly when, family by family, the vote on
the deltas of the first fields has the outcome that the deltas of the last fields bear out. Keys
that fall together may break this, a declared name that equals the key of an unnamed field among
them.
-/

namespace LayoutWatch

namespace Comparison

/-- The deltas of the fields of a family that a comparison lists as moved. -/
def reportedDeltas (old new : Layout) (root : String) : List Int :=
  ((ofLayouts old new).movedFields.filter fun m => old.root m.1 == root).filterMap (·.2.delta)

/-- Moved fields and proposed shifts of fields tell the same story. -/
structure TellsSameStory (old new : Layout) : Prop where
  /-- A proposal counts the moved fields of its family with its delta. -/
  matchCount_eq : ∀ p ∈ (ofLayouts old new).proposals, p.kind = .field →
    p.matchCount = (reportedDeltas old new p.hierarchy).count p.delta
  /-- It has as many anomalies as fields of the family moved otherwise. -/
  anomalies_eq : ∀ p ∈ (ofLayouts old new).proposals, p.kind = .field →
    p.anomalies.length = (reportedDeltas old new p.hierarchy).countP (· ≠ p.delta)
  /-- A family in which two moved fields share a delta has a proposal. -/
  proposed : ∀ root delta, 2 ≤ (reportedDeltas old new root).count delta →
    ∃ p ∈ (ofLayouts old new).proposals, p.kind = .field ∧ p.hierarchy = root

/-- The deltas of the fields of a family that moved, when a key leads to its new field in this
way. -/
def deltasBy (look : StructLayout → String → Option Field) (old new : Layout) (root : String) :
    List Int :=
  (pairs old new).flatMap fun (family, before, after) =>
    if family = root then
      (before.fields.filterMap fun f =>
        (look after f.key).map fun g => Delta.between f.offset g.offset).filter (· ≠ 0)
    else []

/-- What the vote on some deltas says is borne out by others. -/
structure BornOut (asked reported : List Int) : Prop where
  /-- The winner is reported as often as it was voted for, among as many deltas. -/
  winner : ∀ delta, ShiftGroup.Wins asked delta →
    reported.count delta = asked.count delta ∧ reported.length = asked.length
  /-- Without a winner no delta is reported twice. -/
  undecided : (∀ delta, asked.count delta < ShiftGroup.leastSize) →
    ∀ delta, reported.count delta < ShiftGroup.leastSize

variable {old new : Layout} {root : String}

/-- The vote of a family is on the deltas of the first fields. -/
theorem movedDeltas_fieldSamples :
    ShiftGroup.movedDeltas (Ordered.valuesOf (fieldSamples old new) root) =
      deltasBy StructLayout.field? old new root := by
  rw [fieldSamples, Ordered.valuesOf_flatMap, ShiftGroup.movedDeltas, List.map_flatMap,
    List.filter_flatMap, deltasBy]
  refine List.flatMap_congr fun pair _ => ?_
  obtain ⟨family, before, after⟩ := pair
  dsimp only
  split
  · next heq =>
    subst heq
    rw [Ordered.valuesOf, List.filterMap_filterMap, List.map_filterMap]
    congr 1
    refine List.filterMap_congr fun f _ => ?_
    cases after.field? f.key <;> simp [Shift.ofOffsets]
  · next hne =>
    have hnone : Ordered.valuesOf (before.fields.filterMap fun field =>
        (after.field? field.key).map fun moved =>
          (family, Shift.ofOffsets before.name field.key field.offset moved.offset)) root = [] := by
      rw [Ordered.valuesOf, List.filterMap_filterMap, List.filterMap_eq_nil_iff]
      intro f _
      cases after.field? f.key <;> simp [hne]
    rw [hnone]
    rfl

/-- The fields that moved between two forms of a struct have the deltas of the last fields. -/
theorem filterMap_delta_movedBetween (before after : StructLayout) :
    (FieldChange.movedBetween before after).filterMap (·.delta) =
      (before.fields.filterMap fun f =>
        (after.lastField? f.key).map fun g => Delta.between f.offset g.offset).filter (· ≠ 0) := by
  rw [FieldChange.movedBetween]
  induction before.fields with
  | nil => rfl
  | cons f rest ih =>
    rw [List.filterMap_cons, List.filterMap_cons]
    cases after.lastField? f.key with
    | none => exact ih
    | some g =>
      dsimp only [Option.map_some]
      rw [List.filter_cons, List.filter_cons]
      by_cases hmoved : Delta.between f.offset g.offset = 0
      · rw [if_neg (by simp [FieldChange.moved, FieldChange.kept, hmoved]),
          if_neg (by simpa using hmoved)]
        exact ih
      · rw [if_pos (by simp [FieldChange.moved, FieldChange.kept, hmoved]),
          if_pos (by simpa using hmoved), List.filterMap_cons, ih]
        rfl

/-- The moved fields of a family have the deltas of the last fields. -/
theorem reportedDeltas_eq :
    reportedDeltas old new root = deltasBy StructLayout.lastField? old new root := by
  rw [reportedDeltas, movedFields_ofLayouts, List.filter_flatMap, List.filterMap_flatMap, deltasBy]
  refine List.flatMap_congr fun pair hpair => ?_
  obtain ⟨family, before, after⟩ := pair
  have hfamily : family = old.root before.name := by
    obtain ⟨s, -, hs⟩ := List.mem_filterMap.mp hpair
    obtain ⟨_, -, heq⟩ := Option.map_eq_some_iff.mp hs
    simp only [Prod.mk.injEq] at heq
    rw [← heq.1, heq.2.1]
  subst hfamily
  dsimp only
  rw [← filterMap_delta_movedBetween, List.filter_map, List.filterMap_map]
  split
  · next heq =>
    rw [List.filter_eq_self.mpr]
    · rfl
    · intro f _
      exact beq_iff_eq.mpr heq
  · next hne =>
    rw [List.filter_eq_nil_iff.mpr]
    · rfl
    · intro f _
      simpa using hne

/-- A proposed shift of fields has the winning delta of its family, and counts its members and
anomalies. -/
theorem wins_of_field_proposal {p : ShiftProposal}
    (hp : p ∈ (ofLayouts old new).proposals) (hkind : p.kind = .field) :
    ShiftGroup.Wins (deltasBy StructLayout.field? old new p.hierarchy) p.delta ∧
      p.matchCount = (deltasBy StructLayout.field? old new p.hierarchy).count p.delta ∧
      p.matchCount + p.anomalies.length =
        (deltasBy StructLayout.field? old new p.hierarchy).length := by
  obtain ⟨-, -, g, hg, hdelta, hmatch, hanomalies⟩ :=
    ShiftProposal.ofSamples?_eq_some (mem_field_proposals.mp ⟨hp, hkind⟩)
  rw [hdelta, hmatch, hanomalies, ← movedDeltas_fieldSamples]
  exact ⟨(ShiftGroup.majority?_eq_some_iff.mp hg).1, ShiftGroup.length_of_majority? hg⟩

/-- The winning delta of a family is proposed. -/
theorem exists_field_proposal {delta : Int}
    (h : ShiftGroup.Wins (deltasBy StructLayout.field? old new root) delta) :
    ∃ p ∈ (ofLayouts old new).proposals, p.kind = .field ∧ p.hierarchy = root ∧
      p.delta = delta := by
  rw [← movedDeltas_fieldSamples] at h
  obtain ⟨g, hg, hdelta⟩ := ShiftGroup.exists_majority? h
  obtain ⟨p, hp⟩ : ∃ p, ShiftProposal.ofSamples? .field root
      (Ordered.valuesOf (fieldSamples old new) root) = some p := by
    rw [ShiftProposal.ofSamples?, hg]
    exact ⟨_, rfl⟩
  obtain ⟨hroot, hkind, g', hg', hdelta', -⟩ := ShiftProposal.ofSamples?_eq_some hp
  obtain rfl : g = g' := Option.some.inj (hg.symm.trans hg')
  obtain ⟨hmem, -⟩ := mem_field_proposals.mpr (hroot.symm ▸ hp)
  exact ⟨p, hmem, hkind, hroot, hdelta'.trans hdelta⟩

/-- The deltas other than one are the rest of a list. -/
theorem count_add_countP_ne (deltas : List Int) (delta : Int) :
    deltas.count delta + deltas.countP (· ≠ delta) = deltas.length := by
  rw [List.count_eq_countP, List.length_eq_countP_add_countP (· == delta) (l := deltas)]
  simp

/-- One story lets the deltas of the last fields bear out the vote on those of the first. -/
theorem bornOut_of_tellsSameStory (h : TellsSameStory old new) (root : String) :
    BornOut (deltasBy StructLayout.field? old new root)
      (deltasBy StructLayout.lastField? old new root) := by
  constructor
  · intro delta hwins
    obtain ⟨p, hp, hkind, rfl, rfl⟩ := exists_field_proposal hwins
    obtain ⟨-, hcount, hlength⟩ := wins_of_field_proposal hp hkind
    have hmatch := h.matchCount_eq p hp hkind
    have hanomalies := h.anomalies_eq p hp hkind
    rw [reportedDeltas_eq] at hmatch hanomalies
    have htotal := count_add_countP_ne
      (deltasBy StructLayout.lastField? old new p.hierarchy) p.delta
    omega
  · intro hundecided delta
    by_contra hshared
    rw [← reportedDeltas_eq, ShiftGroup.leastSize, Nat.not_lt] at hshared
    obtain ⟨p, hp, hkind, rfl⟩ := h.proposed root delta hshared
    have hwins := (wins_of_field_proposal hp hkind).1
    exact absurd hwins.shared (Nat.not_le_of_lt (hundecided p.delta))

/-- Deltas of the last fields that bear out the vote on those of the first make one story. -/
theorem tellsSameStory_of_bornOut
    (h : ∀ root, BornOut (deltasBy StructLayout.field? old new root)
      (deltasBy StructLayout.lastField? old new root)) : TellsSameStory old new := by
  constructor
  · intro p hp hkind
    obtain ⟨hwins, hcount, -⟩ := wins_of_field_proposal hp hkind
    rw [reportedDeltas_eq, ((h p.hierarchy).winner p.delta hwins).1, hcount]
  · intro p hp hkind
    obtain ⟨hwins, hcount, hlength⟩ := wins_of_field_proposal hp hkind
    obtain ⟨hsame, htotal⟩ := (h p.hierarchy).winner p.delta hwins
    have hrest := count_add_countP_ne
      (deltasBy StructLayout.lastField? old new p.hierarchy) p.delta
    rw [reportedDeltas_eq]
    omega
  · intro root delta hshared
    rw [reportedDeltas_eq] at hshared
    by_cases hundecided : ∀ delta,
        (deltasBy StructLayout.field? old new root).count delta < ShiftGroup.leastSize
    · have hfew := (h root).undecided hundecided delta
      rw [ShiftGroup.leastSize] at hfew
      omega
    · obtain ⟨shared, hmany⟩ := not_forall.mp hundecided
      obtain ⟨winner, hwins⟩ := ShiftGroup.exists_wins_iff.mpr ⟨shared, Nat.le_of_not_lt hmany⟩
      obtain ⟨p, hp, hkind, hroot, -⟩ := exists_field_proposal hwins
      exact ⟨p, hp, hkind, hroot⟩

/-- Where the first and the last new field of each old key stand at one offset, moved fields and
proposed shifts tell the same story. -/
theorem tellsSameStory_of_agree
    (h : ∀ family before after, (family, before, after) ∈ pairs old new → ∀ f ∈ before.fields,
      (after.field? f.key).map (·.offset) = (after.lastField? f.key).map (·.offset)) :
    TellsSameStory old new := by
  refine tellsSameStory_of_bornOut fun root => ?_
  have hsame : deltasBy StructLayout.field? old new root =
      deltasBy StructLayout.lastField? old new root := by
    rw [deltasBy, deltasBy]
    refine List.flatMap_congr fun pair hpair => ?_
    obtain ⟨family, before, after⟩ := pair
    dsimp only
    congr 2
    refine List.filterMap_congr fun f hf => ?_
    have hoffsets := congrArg (Option.map (Delta.between f.offset)) (h _ _ _ hpair f hf)
    rw [Option.map_map, Option.map_map] at hoffsets
    exact hoffsets
  rw [hsame]
  refine ⟨fun _ _ => ⟨rfl, rfl⟩, fun hundecided => hundecided⟩

/-- Moved fields and proposed shifts tell the same story exactly when in each family the deltas of
the last fields bear out the vote on those of the first. -/
theorem tellsSameStory_iff (old new : Layout) :
    TellsSameStory old new ↔ ∀ root, BornOut (deltasBy StructLayout.field? old new root)
      (deltasBy StructLayout.lastField? old new root) :=
  ⟨bornOut_of_tellsSameStory, tellsSameStory_of_bornOut⟩

/-- The deltas of a struct that stands alone in both layouts. -/
theorem deltasBy_single (look : StructLayout → String → Option Field) (version version' : String)
    (before after : StructLayout) (hname : after.name = before.name) (hbase : before.base = none) :
    deltasBy look ⟨version, none, [before]⟩ ⟨version', none, [after]⟩ before.name =
      (before.fields.filterMap fun f =>
        (look after f.key).map fun g => Delta.between f.offset g.offset).filter (· ≠ 0) := by
  have hroot : (⟨version, none, [before]⟩ : Layout).root before.name = before.name := by
    apply root_of_declaredBase?_none
    simp [Layout.declaredBase?, Layout.struct?, hbase]
  simp [deltasBy, pairs, Layout.struct?, hname, hroot]

/-- A struct with an unnamed field at offset 16. -/
def clashBefore : StructLayout :=
  ⟨"Foo", none, none, [⟨none, 0x10, none, none⟩, ⟨some "b", 0x18, none, none⟩], [], []⟩

/-- The struct with a further field whose name is the key of the unnamed one. -/
def clashAfter : StructLayout :=
  ⟨"Foo", none, none, [⟨some "field_0x10", 0x18, none, none⟩, ⟨none, 0x10, none, none⟩,
    ⟨some "b", 0x20, none, none⟩], [], []⟩

/-- Of two new fields with one key the first has moved and the last has not, so a shift of two
fields is proposed where one field is listed as moved. -/
theorem clash_story : ¬TellsSameStory ⟨"1", none, [clashBefore]⟩ ⟨"2", none, [clashAfter]⟩ := by
  intro h
  have hasked : deltasBy StructLayout.field? ⟨"1", none, [clashBefore]⟩ ⟨"2", none, [clashAfter]⟩
      "Foo" = [8, 8] :=
    (deltasBy_single _ "1" "2" clashBefore clashAfter rfl rfl).trans (by decide +kernel)
  have hreported : deltasBy StructLayout.lastField? ⟨"1", none, [clashBefore]⟩
      ⟨"2", none, [clashAfter]⟩ "Foo" = [8] :=
    (deltasBy_single _ "1" "2" clashBefore clashAfter rfl rfl).trans (by decide +kernel)
  have hborn := bornOut_of_tellsSameStory h "Foo"
  rw [hasked, hreported] at hborn
  have hwins : ShiftGroup.Wins [8, 8] 8 := ⟨by decide, by decide⟩
  exact absurd (hborn.winner 8 hwins).1 (by decide)

end Comparison

end LayoutWatch
