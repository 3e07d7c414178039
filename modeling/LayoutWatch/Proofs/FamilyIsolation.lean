import LayoutWatch.Proofs.BaseWalk
import LayoutWatch.Proofs.FieldStory

/-!
# Families are compared apart

A comparison gathers the samples of all families in one go and sorts them by the roots that the old
layout gives. What it proposes for a family therefore depends on nothing of the new layout but what
a lookup finds there under the names of the structs of this family. No family has two proposals for
one kind of members, those for fields stand in front of those for slots, those of one kind are in
the order of the roots, and each of them counts the members of its family that were found again.
-/

namespace LayoutWatch

namespace ShiftProposal

/-- One proposal has to be listed in front of another: fields go before slots, and under one kind
the smaller root. -/
def StandsBefore (p q : ShiftProposal) : Prop :=
  p.kind = .field ∧ q.kind = .slot ∨ p.kind = q.kind ∧ p.hierarchy < q.hierarchy

/-- Samples of the members of a kind that a struct has in both forms. -/
def Kind.samples : Kind → StructLayout → StructLayout → List Shift
  | .field, before, after => before.fields.filterMap fun f =>
    (after.field? f.key).map fun g => Shift.ofOffsets before.name f.key f.offset g.offset
  | .slot, before, after => before.virtuals.filterMap fun f =>
    (after.virtuals.find? (·.name == f.name)).map fun g =>
      Shift.ofSigned before.name f.name f.slot.toNat g.slot.toNat

/-- Number of members of a kind that are found again in the new form of a struct. -/
def Kind.found : Kind → StructLayout → StructLayout → Nat
  | .field, before, after => before.fields.countP fun f => (after.field? f.key).isSome
  | .slot, before, after => before.virtuals.countP fun f =>
    (after.virtuals.find? (·.name == f.name)).isSome

/-- Each member that is found again gives one sample. -/
theorem Kind.length_samples (kind : Kind) (before after : StructLayout) :
    (kind.samples before after).length = kind.found before after := by
  cases kind with
  | field => simp [samples, found, List.length_filterMap_eq_countP]
  | slot => simp [samples, found, List.length_filterMap_eq_countP]

/-- No proposal has to be listed in front of one for the same family and kind. -/
theorem StandsBefore.ne {p q : ShiftProposal} (h : p.StandsBefore q) :
    (p.hierarchy, p.kind) ≠ (q.hierarchy, q.kind) := by
  intro heq
  obtain ⟨hroot, hkind⟩ := Prod.mk.inj heq
  rcases h with ⟨hfield, hslot⟩ | ⟨-, hlt⟩
  · rw [hfield, hslot] at hkind
    cases hkind
  · rw [hroot] at hlt
    exact String.lt_irrefl _ hlt

/-- Of two proposals at most one has to be listed in front of the other. -/
instance : Std.Asymm StandsBefore where
  asymm p q h hback := by
    rcases h with ⟨hfield, hslot⟩ | ⟨hkind, hlt⟩
    · rcases hback with ⟨-, hslot'⟩ | ⟨hkind, -⟩
      · rw [hfield] at hslot'
        cases hslot'
      · rw [hfield, hslot] at hkind
        cases hkind
    · rcases hback with ⟨hfield, hslot⟩ | ⟨-, hlt'⟩
      · rw [hfield, hslot] at hkind
        cases hkind
      · exact String.lt_irrefl _ (String.lt_trans hlt hlt')

variable {kind : Kind} {samples : List (String × Shift)}

/-- The proposals of a kind are in the order of their roots. -/
theorem pairwise_ofFamilies : (ofFamilies kind samples).Pairwise StandsBefore := by
  rw [ofFamilies, Ordered.table_eq, List.filterMap_map, List.pairwise_filterMap]
  refine (Ordered.pairwise_distinctTexts _).imp ?_
  intro root root' hlt p hp q hq
  obtain ⟨hroot, hkind, -⟩ := ofSamples?_eq_some hp
  obtain ⟨hroot', hkind', -⟩ := ofSamples?_eq_some hq
  rw [← hroot, ← hroot'] at hlt
  exact .inr ⟨hkind.trans hkind'.symm, hlt⟩

/-- All proposals made of the samples of a kind are of this kind. -/
theorem kind_of_mem_ofFamilies {p : ShiftProposal} (h : p ∈ ofFamilies kind samples) :
    p.kind = kind := (ofSamples?_eq_some (mem_ofFamilies.mp h)).2.1

/-- A proposal has all samples of its family for candidates. -/
theorem totalCandidates_of_ofSamples? {root : String} {samples : List Shift} {p : ShiftProposal}
    (h : ofSamples? kind root samples = some p) : p.totalCandidates = samples.length := by
  obtain ⟨g, hg, rfl⟩ := Option.map_eq_some_iff.mp h
  exact (ShiftGroup.majority?_eq_some_iff.mp hg).2.2.2.1

end ShiftProposal

namespace Comparison

open ShiftProposal (Kind)

/-- Number of members of a family that are found again: those of its structs, as the old layout
lists them, in the forms that the new layout has under their names. -/
def foundUnder (old new : Layout) (kind : Kind) (root : String) : Nat :=
  ((old.structs.filter fun s => old.root s.name = root).map fun s =>
    (new.struct? s.name).elim 0 (kind.found s)).sum

variable {old new new' : Layout} {kind : Kind} {root : String}

/-- The samples of a comparison are those of the pairs of structs. -/
theorem samplesOf_eq : samplesOf kind old new =
    (pairs old new).flatMap fun (family, before, after) =>
      (kind.samples before after).map fun s => (family, s) := by
  cases kind with
  | field => simp [samplesOf, fieldSamples, Kind.samples, List.map_filterMap, Function.comp_def]
  | slot => simp [samplesOf, slotSamples, Kind.samples, List.map_filterMap, Function.comp_def]

/-- The samples of a family are those of its structs. -/
theorem valuesOf_samplesOf : Ordered.valuesOf (samplesOf kind old new) root =
    (old.structs.filter fun s => old.root s.name = root).flatMap fun s =>
      (new.struct? s.name).elim [] (kind.samples s) := by
  rw [samplesOf_eq, pairs, Ordered.valuesOf_flatMap]
  simp only [Ordered.valuesOf_map_key]
  induction old.structs with
  | nil => rfl
  | cons s rest ih =>
    rw [List.filterMap_cons, List.filter_cons]
    cases hlookup : new.struct? s.name with
    | none =>
      dsimp only [Option.map_none]
      rw [ih]
      split
      · rw [List.flatMap_cons, hlookup, Option.elim_none, List.nil_append]
      · rfl
    | some after =>
      dsimp only [Option.map_some]
      rw [List.flatMap_cons, ih]
      by_cases hfamily : old.root s.name = root
      · rw [if_pos hfamily, if_pos (decide_eq_true hfamily), List.flatMap_cons, hlookup,
          Option.elim_some]
      · rw [if_neg hfamily, if_neg (by simpa using hfamily), List.nil_append]

/-- As many samples of a family are gathered as members of it are found again. -/
theorem length_valuesOf_samplesOf :
    (Ordered.valuesOf (samplesOf kind old new) root).length = foundUnder old new kind root := by
  rw [valuesOf_samplesOf, List.length_flatMap, foundUnder]
  refine congrArg List.sum (List.map_congr_left fun s _ => ?_)
  cases new.struct? s.name with
  | none => rfl
  | some after => exact kind.length_samples s after

/-- A proposal counts the members of its family that are found again. -/
theorem totalCandidates_eq {p : ShiftProposal} (hp : p ∈ (ofLayouts old new).proposals) :
    p.totalCandidates = foundUnder old new p.kind p.hierarchy := by
  rw [← length_valuesOf_samplesOf]
  exact ShiftProposal.totalCandidates_of_ofSamples? (mem_proposals.mp hp)

/-- Fields stand in front of slots, and the proposals of one kind in the order of their roots. -/
theorem pairwise_proposals (old new : Layout) :
    (ofLayouts old new).proposals.Pairwise ShiftProposal.StandsBefore := by
  rw [ofLayouts]
  refine List.pairwise_append.mpr
    ⟨ShiftProposal.pairwise_ofFamilies, ShiftProposal.pairwise_ofFamilies, ?_⟩
  intro p hp q hq
  exact .inl ⟨ShiftProposal.kind_of_mem_ofFamilies hp, ShiftProposal.kind_of_mem_ofFamilies hq⟩

/-- Where lookups agree on the structs of a family, the family gives the same samples. -/
theorem valuesOf_samplesOf_congr
    (h : ∀ s ∈ old.structs, old.root s.name = root → new.struct? s.name = new'.struct? s.name)
    (kind : Kind) : Ordered.valuesOf (samplesOf kind old new) root =
      Ordered.valuesOf (samplesOf kind old new') root := by
  rw [valuesOf_samplesOf, valuesOf_samplesOf]
  refine List.flatMap_congr fun s hs => ?_
  obtain ⟨hmem, hfamily⟩ := List.mem_filter.mp hs
  rw [h s hmem (of_decide_eq_true hfamily)]

/-- Where lookups agree on the structs of a family, the same is proposed for the family. -/
theorem filter_proposals_congr
    (h : ∀ s ∈ old.structs, old.root s.name = root → new.struct? s.name = new'.struct? s.name) :
    (ofLayouts old new).proposals.filter (·.hierarchy = root) =
      (ofLayouts old new').proposals.filter (·.hierarchy = root) := by
  -- Both lists are in strict order, so they are equal once they have the same members.
  refine ((pairwise_proposals old new).filter _).eq_of_mem_iff
    ((pairwise_proposals old new').filter _) fun p => ?_
  rw [List.mem_filter, List.mem_filter, mem_proposals, mem_proposals, decide_eq_true_eq]
  refine and_congr_left fun hroot => ?_
  rw [hroot, valuesOf_samplesOf_congr h]

/-- What is proposed for a family is the same for any two new layouts in which lookups agree on the
structs of this family. No family has two proposals for one kind of members; fields stand in front
of slots, and the proposals of one kind in strict order of the roots; and each proposal counts the
members of its family that a lookup finds again. -/
theorem proposals_keepApart (old : Layout) :
    (∀ root new new',
      (∀ s ∈ old.structs, old.root s.name = root → new.struct? s.name = new'.struct? s.name) →
      (ofLayouts old new).proposals.filter (·.hierarchy = root) =
        (ofLayouts old new').proposals.filter (·.hierarchy = root)) ∧
    ∀ new, ((ofLayouts old new).proposals.map fun p => (p.hierarchy, p.kind)).Nodup ∧
      (ofLayouts old new).proposals.Pairwise ShiftProposal.StandsBefore ∧
      ∀ p ∈ (ofLayouts old new).proposals,
        p.totalCandidates = foundUnder old new p.kind p.hierarchy := by
  refine ⟨fun root new new' h => filter_proposals_congr h, fun new => ⟨?_, ?_, ?_⟩⟩
  · exact List.pairwise_map.mpr ((pairwise_proposals old new).imp ShiftProposal.StandsBefore.ne)
  · exact pairwise_proposals old new
  · intro p hp
    exact totalCandidates_eq hp

/-- Two structs of one family, and one that stands alone. -/
def twoFamilies : Layout :=
  ⟨"1", none, [⟨"Foo", some "Base", none, [⟨some "y", 0x20, none, none⟩], [], []⟩,
    ⟨"Base", none, none, [⟨some "x", 0x10, none, none⟩], [], []⟩,
    ⟨"Bar", none, none, [⟨some "z", 0x10, none, none⟩], [], []⟩]⟩

/-- Both structs of the family have moved, and the other one is gone. -/
def familyMoved : Layout :=
  ⟨"2", none, [⟨"Base", none, none, [⟨some "x", 0x18, none, none⟩], [], []⟩,
    ⟨"Foo", some "Base", none, [⟨some "y", 0x28, none, none⟩], [], []⟩]⟩

/-- Both structs of the family have moved as well, among others: a new one claims the same base, and
the one that stood alone now claims the family. -/
def familyMovedAmongOthers : Layout :=
  ⟨"3", none, [⟨"Bar", some "Foo", none, [⟨some "z", 0x40, none, none⟩], [], []⟩,
    ⟨"New", some "Base", none, [⟨some "y", 0x30, none, none⟩], [], []⟩] ++ familyMoved.structs⟩

/-- The family is offered the same shift of its two fields in both cases. -/
theorem proposals_keepApart_twoFamilies :
    ∃ p ∈ (ofLayouts twoFamilies familyMoved).proposals, p.hierarchy = "Base" ∧ p.delta = 8 ∧
      p.totalCandidates = 2 ∧ p ∈ (ofLayouts twoFamilies familyMovedAmongOthers).proposals := by
  have hbase : twoFamilies.root "Base" = "Base" := root_of_declaredBase?_none (by decide)
  have hfoo : twoFamilies.root "Foo" = "Base" := Layout.root_of_base (by decide) (by decide)
  have hbar : twoFamilies.root "Bar" = "Bar" := root_of_declaredBase?_none (by decide)
  have hagree : ∀ s ∈ twoFamilies.structs, twoFamilies.root s.name = "Base" →
      familyMoved.struct? s.name = familyMovedAmongOthers.struct? s.name := by
    intro s hs hfamily
    simp only [twoFamilies, List.mem_cons, List.not_mem_nil, or_false] at hs
    rcases hs with rfl | rfl | rfl
    · decide
    · decide
    · exact absurd (hbar.symm.trans hfamily) (by decide)
  have hapart := proposals_keepApart twoFamilies
  rcases hapart with ⟨hsame, hlisted⟩
  have hdeltas : deltasBy StructLayout.field? twoFamilies familyMoved "Base" = [8, 8] := by
    have hpairs : pairs twoFamilies familyMoved =
        [("Base", twoFamilies.structs[0], familyMoved.structs[1]),
          ("Base", twoFamilies.structs[1], familyMoved.structs[0])] := by
      simp only [twoFamilies] at hfoo hbase ⊢
      simp [pairs, familyMoved, Layout.struct?, hfoo, hbase]
    rw [deltasBy, hpairs]
    decide +kernel
  have hwins : ShiftGroup.Wins (deltasBy StructLayout.field? twoFamilies familyMoved "Base") 8 := by
    rw [hdeltas]
    exact ⟨by decide, by decide⟩
  have hproposed := exists_field_proposal hwins
  rcases hproposed with ⟨p, hp, hkind, hroot, hdelta⟩
  have htotal := (hlisted familyMoved).2.2 p hp
  have hfound : foundUnder twoFamilies familyMoved .field "Base" = 2 := by
    have hstructs : twoFamilies.structs.filter (fun s => twoFamilies.root s.name = "Base") =
        twoFamilies.structs.take 2 := by
      simp only [twoFamilies] at hfoo hbase hbar ⊢
      simp [hfoo, hbase, hbar]
    rw [foundUnder, hstructs]
    decide +kernel
  rw [hkind, hroot, hfound] at htotal
  have hother : p ∈ (ofLayouts twoFamilies familyMovedAmongOthers).proposals.filter
      (·.hierarchy = "Base") := by
    rw [← hsame "Base" familyMoved familyMovedAmongOthers hagree]
    exact List.mem_filter.mpr ⟨hp, decide_eq_true hroot⟩
  exact ⟨p, hp, hroot, hdelta, htotal, (List.mem_filter.mp hother).1⟩

end Comparison

end LayoutWatch
