import LayoutWatch.Comparison
import LayoutWatch.Proofs.Shift

/-!
# Moved fields and proposed shifts

The fields that a comparison lists as moved and the shifts of fields that it proposes are both
derived from the pairs of structs that the two layouts share. A moved field is paired with the
last new field of its key, a sample of a shift with the first one.
-/

namespace LayoutWatch

/-- The last field with this key. -/
def StructLayout.lastField? (s : StructLayout) (key : String) : Option Field :=
  (s.fields.filter (·.key == key)).getLast?

/-- What is made of the pairs with a value is made of the values. -/
theorem Ordered.valuesOf_flatMap {κ α β : Type} [BEq κ] {l : List α} {f : α → List (κ × β)}
    {key : κ} : valuesOf (l.flatMap f) key = l.flatMap fun a => valuesOf (f a) key := by
  rw [valuesOf, List.filterMap_flatMap]
  rfl

/-- The values under a key, of values that all stand under one key. -/
theorem Ordered.valuesOf_map_key {α : Type} (family root : String) (values : List α) :
    valuesOf (values.map fun a => (family, a)) root =
      if family = root then values else [] := by
  rw [valuesOf, List.filterMap_map]
  split
  · next heq =>
    subst heq
    simp
  · next hne => simp [hne]

/-- Two ways to work off a list agree when they agree on each element. -/
theorem flatMap_map_eq_flatMap_filterMap {α β γ δ : Type} {l : List α} {f : α → β}
    {g : β → List δ} {h : α → Option γ} {k : γ → List δ}
    (heq : ∀ a ∈ l, g (f a) = (h a).elim [] k) :
    (l.map f).flatMap g = (l.filterMap h).flatMap k := by
  induction l with
  | nil => rfl
  | cons a rest ih =>
    have hrest := ih fun b hb => heq b (List.mem_cons_of_mem a hb)
    rw [List.map_cons, List.flatMap_cons, hrest, heq a List.mem_cons_self, List.filterMap_cons]
    cases h a with
    | none => rfl
    | some c => rfl

namespace FieldChange

/-- The fields of two forms of a struct that moved between them. -/
def movedBetween (before after : StructLayout) : List FieldChange :=
  (before.fields.filterMap fun f => (after.lastField? f.key).map (kept f)).filter (·.moved)

/-- Of the fields of two forms of a struct, those that moved have a counterpart. -/
theorem filter_moved_list (before after : StructLayout) :
    (list before.fields after.fields).filter (·.moved) = movedBetween before after := by
  have hadded : ((after.fields.filter fun g => !before.fields.any (·.key == g.key)).map
      added).filter (·.moved) = [] := by
    rw [List.filter_eq_nil_iff]
    intro f hf
    obtain ⟨g, -, rfl⟩ := List.mem_map.mp hf
    simp [moved, added]
  rw [list, List.filter_append, hadded, List.append_nil, movedBetween]
  induction before.fields with
  | nil => rfl
  | cons f rest ih =>
    rw [List.map_cons, List.filterMap_cons, StructLayout.lastField?]
    cases (after.fields.filter (·.key == f.key)).getLast? with
    | none =>
      have hremoved : (removed f).moved = false := rfl
      rw [List.filter_cons, if_neg (by simp [hremoved])]
      exact ih
    | some g =>
      simp only [Option.map_some, List.filter_cons]
      rw [ih]

/-- A field that did not change did not move. -/
theorem moved_eq_false {f g : Field} (h : (kept f g).change = .unchanged) :
    (kept f g).moved = false := by
  have hoffset : f.offset = g.offset := by
    by_contra hne
    simp [kept, Change.ofSame, hne] at h
  have hdelta := Delta.between_eq_zero_iff.mpr hoffset
  simp [moved, kept, hdelta]

/-- Where all fields of a struct are unchanged, none of them moved. -/
theorem movedBetween_eq_nil {before after : StructLayout}
    (h : (list before.fields after.fields).all (·.change == .unchanged) = true) :
    movedBetween before after = [] := by
  rw [List.eq_nil_iff_forall_not_mem]
  intro c hc
  obtain ⟨hkept, hmoved⟩ := List.mem_filter.mp hc
  obtain ⟨f, -, hf⟩ := List.mem_filterMap.mp hkept
  obtain ⟨g, -, rfl⟩ := Option.map_eq_some_iff.mp hf
  rw [← filter_moved_list] at hc
  have hchange := List.all_eq_true.mp h _ (List.mem_filter.mp hc).1
  rw [moved_eq_false (by simpa using hchange)] at hmoved
  exact absurd hmoved (by decide)

end FieldChange

namespace Comparison

open FieldChange in
/-- The moved fields of a comparison, pair by pair. -/
theorem movedFields_ofLayouts (old new : Layout) :
    (ofLayouts old new).movedFields = (pairs old new).flatMap fun (_, before, after) =>
      (movedBetween before after).map fun f => (before.name, f) := by
  have hlisted : ∀ s : StructChange, (s.fields.map fun f => (s.name, f)).filter (·.2.moved) =
      (s.fields.filter (·.moved)).map fun f => (s.name, f) := fun s => List.filter_map
  have hadded : (((new.structs.filter fun after => (old.struct? after.name).isNone).map
      StructChange.added).flatMap fun s =>
        (s.fields.filter (·.moved)).map fun f => (s.name, f)) = [] := by
    rw [List.flatMap_eq_nil_iff]
    intro s hs
    obtain ⟨after, -, rfl⟩ := List.mem_map.mp hs
    rfl
  simp only [movedFields, ofLayouts, List.filter_flatMap, hlisted]
  rw [StructChange.list, List.flatMap_append, hadded, List.append_nil, pairs]
  refine flatMap_map_eq_flatMap_filterMap fun before _ => ?_
  cases new.struct? before.name with
  | none => rfl
  | some after =>
    dsimp only [Option.map_some, Option.elim_some]
    have hfields : (StructChange.kept before after).fields.filter (·.moved) =
        movedBetween before after := by
      rw [StructChange.kept]
      dsimp only
      split
      · next hsame =>
        -- Fields that are all unchanged are not listed, and none of them moved.
        simp only [Bool.and_eq_true] at hsame
        exact (movedBetween_eq_nil hsame.1.1.1.1).symm
      · exact filter_moved_list before after
    rw [hfields]
    rfl

/-- Without a declared base a struct is the root of its family. -/
theorem root_of_declaredBase?_none {l : Layout} {name : String}
    (h : l.declaredBase? name = none) : l.root name = name := by
  rw [Layout.root, Layout.rootFrom]
  split
  · rfl
  · next hbase => exact absurd (h.symm.trans hbase) (by simp)

end Comparison

namespace ShiftProposal

/-- A proposal names its family and its kind, and reports on the group of the vote. -/
theorem ofSamples?_eq_some {kind : Kind} {hierarchy : String} {samples : List Shift}
    {p : ShiftProposal} (h : ofSamples? kind hierarchy samples = some p) :
    p.hierarchy = hierarchy ∧ p.kind = kind ∧ ∃ g, ShiftGroup.majority? samples = some g ∧
      p.delta = g.delta ∧ p.matchCount = g.members.length ∧ p.anomalies = g.anomalies := by
  obtain ⟨g, hg, rfl⟩ := Option.map_eq_some_iff.mp h
  exact ⟨rfl, rfl, g, hg, rfl, rfl, rfl⟩

/-- The shift that is proposed for a family is the one that its samples agree on. -/
theorem mem_ofFamilies {kind : Kind} {samples : List (String × Shift)} {p : ShiftProposal} :
    p ∈ ofFamilies kind samples ↔
      ofSamples? kind p.hierarchy (Ordered.valuesOf samples p.hierarchy) = some p :=
  Ordered.mem_filterMap_table (ofSamples? kind) hierarchy
    (fun _ _ _ h => (ofSamples?_eq_some h).1) fun _ => rfl

/-- Where no sample moved, no shift is proposed. -/
theorem ofFamilies_eq_nil {kind : Kind} {samples : List (String × Shift)}
    (h : ∀ family s, (family, s) ∈ samples → s.delta = 0) : ofFamilies kind samples = [] := by
  rw [List.eq_nil_iff_forall_not_mem]
  intro p hp
  obtain ⟨-, -, g, hg, -⟩ := ofSamples?_eq_some (mem_ofFamilies.mp hp)
  have hshared := (ShiftGroup.majority?_eq_some_iff.mp hg).1.shared
  have hnone : ShiftGroup.movedDeltas (Ordered.valuesOf samples p.hierarchy) = [] := by
    rw [ShiftGroup.movedDeltas, List.filter_eq_nil_iff]
    intro delta hdelta
    obtain ⟨s, hs, rfl⟩ := List.mem_map.mp hdelta
    simpa using h _ s (Ordered.mem_valuesOf.mp hs)
  rw [hnone] at hshared
  exact absurd hshared (by simp [ShiftGroup.leastSize])

end ShiftProposal

namespace Comparison

/-- The samples of the members of a kind that both layouts declare, by family. -/
def samplesOf (kind : ShiftProposal.Kind) (old new : Layout) : List (String × Shift) :=
  match kind with
  | .field => fieldSamples old new
  | .slot => slotSamples old new

/-- The proposed shifts are those of the families, kind by kind. -/
theorem mem_proposals {old new : Layout} {p : ShiftProposal} :
    p ∈ (ofLayouts old new).proposals ↔
      ShiftProposal.ofSamples? p.kind p.hierarchy
        (Ordered.valuesOf (samplesOf p.kind old new) p.hierarchy) = some p := by
  have hparts : p ∈ (ofLayouts old new).proposals ↔
      ∃ kind, ShiftProposal.ofSamples? kind p.hierarchy
        (Ordered.valuesOf (samplesOf kind old new) p.hierarchy) = some p := by
    rw [ofLayouts, List.mem_append, ShiftProposal.mem_ofFamilies, ShiftProposal.mem_ofFamilies]
    constructor
    · rintro (hfield | hslot)
      · exact ⟨.field, hfield⟩
      · exact ⟨.slot, hslot⟩
    · rintro ⟨kind, hkind⟩
      cases kind with
      | field => exact .inl hkind
      | slot => exact .inr hkind
  rw [hparts]
  constructor
  · rintro ⟨kind, hkind⟩
    rw [(ShiftProposal.ofSamples?_eq_some hkind).2.1]
    exact hkind
  · intro hkind
    exact ⟨p.kind, hkind⟩

/-- The proposed shifts of fields are those of the families of the field samples. -/
theorem mem_field_proposals {old new : Layout} {p : ShiftProposal} :
    p ∈ (ofLayouts old new).proposals ∧ p.kind = .field ↔
      ShiftProposal.ofSamples? .field p.hierarchy
        (Ordered.valuesOf (fieldSamples old new) p.hierarchy) = some p := by
  rw [mem_proposals]
  constructor
  · rintro ⟨hproposed, hkind⟩
    rw [hkind] at hproposed
    exact hproposed
  · intro hfield
    have hkind := (ShiftProposal.ofSamples?_eq_some hfield).2.1
    rw [hkind]
    exact ⟨hfield, rfl⟩

end Comparison

end LayoutWatch
