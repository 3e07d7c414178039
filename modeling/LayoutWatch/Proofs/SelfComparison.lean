import LayoutWatch.Proofs.Comparison
import Mathlib.Data.List.Nodup

/-!
# A layout compared with itself

Members are paired by key or by name, so a comparison sees one member under each. Compared with
itself a layout shows no change exactly when it is unambiguous: declarations under one name agree
in everything that is compared. Overloads of a virtual function, which share a name and differ in
their slots, are the common case of an ambiguous layout.
-/

namespace LayoutWatch

section Pairing

variable {α β γ : Type} {key : α → String} {value : α → β} {look : List α → String → Option α}

/-- A way to look for a key in a list. It finds an element with the key if there is one. -/
structure Looks (key : α → String) (look : List α → String → Option α) : Prop where
  /-- What is found is an element with the key. -/
  sound : ∀ {l : List α} {k : String} {a : α}, look l k = some a → a ∈ l ∧ key a = k
  /-- An element with the key is found. -/
  complete : ∀ {l : List α} {a : α}, a ∈ l → ∃ b, look l (key a) = some b

/-- The keys of one list occur in another one, and there they have the same values. -/
structure AgreesOn (key : α → String) (value : α → β) (l m : List α) : Prop where
  /-- Each key occurs. -/
  keys : ∀ a ∈ l, ∃ b ∈ m, key b = key a
  /-- Elements with one key have one value. -/
  values : ∀ a ∈ l, ∀ b ∈ m, key a = key b → value a = value b

/-- Each element of one list finds its own value in another one, which has no further keys. -/
structure Paired (key : α → String) (value : α → β) (look : List α → String → Option α)
    (l m : List α) : Prop where
  /-- Each element finds its value. -/
  finds : ∀ a ∈ l, ∃ b, look m (key a) = some b ∧ value a = value b
  /-- There are no further keys. -/
  keys : ∀ b ∈ m, ∃ a ∈ l, key a = key b

/-- The first element with a key. -/
theorem looks_find? (key : α → String) : Looks key fun l k => l.find? (key · == k) where
  sound := by
    intro l k a h
    exact ⟨List.mem_of_find?_eq_some h, by simpa using List.find?_some h⟩
  complete := by
    intro l a ha
    exact Option.isSome_iff_exists.mp (List.find?_isSome.mpr ⟨a, ha, beq_self_eq_true _⟩)

/-- The last element with a key. -/
theorem looks_getLast? (key : α → String) :
    Looks key fun l k => (l.filter (key · == k)).getLast? where
  sound := by
    intro l k a h
    obtain ⟨hmem, hkey⟩ := List.mem_filter.mp (List.mem_of_getLast? h)
    exact ⟨hmem, by simpa using hkey⟩
  complete := by
    intro l a ha
    have hmem : a ∈ l.filter (key · == key a) := List.mem_filter.mpr ⟨ha, beq_self_eq_true _⟩
    exact ⟨_, List.getLast?_eq_some_getLast (List.ne_nil_of_mem hmem)⟩

/-- Lists that agree with each other are paired. -/
theorem Paired.of_agreesOn (hlook : Looks key look) {l m : List α}
    (h : AgreesOn key value l m) (h' : AgreesOn key value m l) : Paired key value look l m := by
  constructor
  · intro a ha
    obtain ⟨b, hb, hkey⟩ := h.keys a ha
    obtain ⟨c, hc⟩ := hlook.complete hb
    obtain ⟨hmem, hkey'⟩ := hlook.sound hc
    exact ⟨c, hkey ▸ hc, h.values a ha c hmem (hkey'.trans hkey).symm⟩
  · exact h'.keys

/-- Lists that are paired with one and the same list agree. -/
theorem AgreesOn.of_paired (hlook : Looks key look) {l m r : List α}
    (hl : Paired key value look l r) (hm : Paired key value look m r) :
    AgreesOn key value l m := by
  constructor
  · intro a ha
    obtain ⟨b, hb, -⟩ := hl.finds a ha
    obtain ⟨hmem, hkey⟩ := hlook.sound hb
    obtain ⟨c, hc, hkey'⟩ := hm.keys b hmem
    exact ⟨c, hc, hkey'.trans hkey⟩
  · intro a ha c hc hkey
    obtain ⟨b, hb, hvalue⟩ := hl.finds a ha
    obtain ⟨b', hb', hvalue'⟩ := hm.finds c hc
    obtain rfl : b = b' := Option.some.inj (hb.symm.trans (hkey ▸ hb'))
    exact hvalue.trans hvalue'.symm

/-- A list without repeated keys agrees with itself. -/
theorem AgreesOn.of_nodup {l : List α} (h : (l.map key).Nodup) (value : α → β) :
    AgreesOn key value l l := by
  constructor
  · intro a ha
    exact ⟨a, ha, rfl⟩
  · intro a ha b hb hkey
    rw [List.inj_on_of_nodup_map h ha hb hkey]

/-- A list of changes, first of the old elements and then of the new keys, shows no change exactly
when the elements are paired. -/
theorem all_unchanged_iff_paired {key : α → String} {look : List α → String → Option α}
    {change : γ → Change} {pair added : α → γ} {old new : List α}
    (hpair : ∀ a, change (pair a) = .unchanged ↔
      ∃ b, look new (key a) = some b ∧ value a = value b)
    (hadded : ∀ a, change (added a) ≠ .unchanged) :
    (old.map pair ++ (new.filter fun after => !old.any (key · == key after)).map added).all
        (change · == Change.unchanged) = true ↔ Paired key value look old new := by
  rw [List.all_append, List.all_map, List.all_map, Bool.and_eq_true, List.all_eq_true,
    List.all_eq_true]
  simp only [Function.comp_apply, beq_iff_eq]
  constructor
  · intro hpaired
    rcases hpaired with ⟨hold, hnew⟩
    constructor
    · intro a ha
      exact (hpair a).mp (hold a ha)
    · intro b hb
      by_contra hnone
      refine hadded b (hnew b (List.mem_filter.mpr ⟨hb, ?_⟩))
      simpa using hnone
  · intro hpaired
    constructor
    · intro a ha
      exact (hpair a).mpr (hpaired.finds a ha)
    · intro b hb
      obtain ⟨hmem, hfresh⟩ := List.mem_filter.mp hb
      obtain ⟨a, ha, hkey⟩ := hpaired.keys b hmem
      simp only [Bool.not_eq_true', List.any_eq_false, beq_iff_eq] at hfresh
      exact absurd hkey (hfresh a ha)

end Pairing

/-- What is compared of two fields. -/
def Field.compared (f : Field) : UInt64 × Option String × Option UInt64 :=
  (f.offset, f.type, f.size)

/-- No field is listed as changed exactly when the fields are paired. -/
theorem FieldChange.all_unchanged_iff (old new : List Field) :
    (FieldChange.list old new).all (·.change == .unchanged) = true ↔
      Paired Field.key Field.compared (fun l k => (l.filter (·.key == k)).getLast?) old new := by
  refine all_unchanged_iff_paired (fun a => ?_) (fun a => by simp [added])
  cases (new.filter (·.key == a.key)).getLast? with
  | none => simp [removed]
  | some b =>
    by_cases h : a.offset = b.offset ∧ a.type = b.type ∧ a.size = b.size
    · simp [kept, Change.ofSame, Field.compared, h]
    · simp [kept, Change.ofSame, Field.compared, h, and_assoc]

/-- No virtual function is listed as changed exactly when they are paired. -/
theorem SlotChange.all_unchanged_iff (old new : List VirtualFunction) :
    (SlotChange.list old new).all (·.change == .unchanged) = true ↔
      Paired VirtualFunction.name VirtualFunction.slot (fun l k => l.find? (·.name == k)) old
        new := by
  refine all_unchanged_iff_paired (fun a => ?_) (fun a => by simp)
  cases new.find? (·.name == a.name) with
  | none => simp
  | some b => by_cases h : a.slot = b.slot <;> simp [kept, Change.ofSame, h]

/-- No other function is listed as changed exactly when they are paired. -/
theorem FunctionChange.all_unchanged_iff (old new : List MemberFunction) :
    (FunctionChange.list old new).all (·.change == .unchanged) = true ↔
      Paired MemberFunction.name MemberFunction.address (fun l k => l.find? (·.name == k)) old
        new := by
  refine all_unchanged_iff_paired (fun a => ?_) (fun a => by simp)
  cases new.find? (·.name == a.name) with
  | none => simp
  | some b =>
    by_cases h : b.address = a.address
    · simp [Change.ofSame, h]
    · simp [Change.ofSame, h, Ne.symm h]

/-- Two declarations of a struct agree in everything that is compared. -/
structure StructLayout.Agrees (s t : StructLayout) : Prop where
  /-- They have one base. -/
  base_eq : s.base = t.base
  /-- They have one size. -/
  size_eq : s.size = t.size
  /-- Their fields agree by key. -/
  fields : AgreesOn Field.key Field.compared s.fields t.fields
  /-- Their virtual functions agree by name. -/
  virtuals : AgreesOn VirtualFunction.name VirtualFunction.slot s.virtuals t.virtuals
  /-- Their other functions agree by name. -/
  functions : AgreesOn MemberFunction.name MemberFunction.address s.functions t.functions

/-- Declarations under one name agree. As a struct has its own name, its members with one key or
name agree too. -/
def Layout.Unambiguous (l : Layout) : Prop :=
  ∀ s ∈ l.structs, ∀ t ∈ l.structs, s.name = t.name → s.Agrees t

/-- No two members of one kind of a struct share a key or a name. -/
structure StructLayout.Distinct (s : StructLayout) : Prop where
  /-- No two fields share a key. -/
  fields : (s.fields.map (·.key)).Nodup
  /-- No two virtual functions share a name. -/
  virtuals : (s.virtuals.map (·.name)).Nodup
  /-- No two other functions share a name. -/
  functions : (s.functions.map (·.name)).Nodup

instance (s : StructLayout) : Decidable s.Distinct :=
  decidable_of_iff (_ ∧ _ ∧ _) ⟨fun h => ⟨h.1, h.2.1, h.2.2⟩, fun h => ⟨h.1, h.2, h.3⟩⟩

/-- No two structs of a layout share a name, and the members of each struct are distinct. -/
structure Layout.Distinct (l : Layout) : Prop where
  /-- No two structs share a name. -/
  structs : (l.structs.map (·.name)).Nodup
  /-- The members of each struct are distinct. -/
  members : ∀ s ∈ l.structs, s.Distinct

instance (l : Layout) : Decidable l.Distinct :=
  decidable_of_iff (_ ∧ _) ⟨fun h => ⟨h.1, h.2⟩, fun h => ⟨h.1, h.2⟩⟩

/-- A comparison shows no change and proposes no shift. -/
structure Comparison.NoDrift (c : Comparison) : Prop where
  /-- Every struct is unchanged and has no members listed. -/
  unchanged : ∀ s ∈ c.structs,
    s.change = .unchanged ∧ s.fields = [] ∧ s.virtuals = [] ∧ s.functions = []
  /-- No shift is proposed. -/
  proposals_eq : c.proposals = []

/-- When a struct that both layouts have is unchanged. -/
theorem StructChange.kept_unchanged_iff {s t : StructLayout} :
    (kept s t).change = .unchanged ↔
      (Paired Field.key Field.compared (fun l k => (l.filter (·.key == k)).getLast?) s.fields
          t.fields ∧
        Paired VirtualFunction.name VirtualFunction.slot (fun l k => l.find? (·.name == k))
          s.virtuals t.virtuals ∧
        Paired MemberFunction.name MemberFunction.address (fun l k => l.find? (·.name == k))
          s.functions t.functions) ∧ s.size = t.size ∧ s.base = t.base := by
  rw [← FieldChange.all_unchanged_iff, ← SlotChange.all_unchanged_iff,
    ← FunctionChange.all_unchanged_iff, kept]
  dsimp only
  have hsame : ∀ same, Change.ofSame same = .unchanged ↔ same = true := by decide
  simp only [hsame, Bool.and_eq_true, beq_iff_eq, and_assoc]

/-- A struct that is unchanged has no members listed. -/
theorem StructChange.kept_lists_eq_nil {s t : StructLayout} (h : (kept s t).change = .unchanged) :
    (kept s t).fields = [] ∧ (kept s t).virtuals = [] ∧ (kept s t).functions = [] := by
  unfold kept at h ⊢
  dsimp only at h ⊢
  split
  · exact ⟨rfl, rfl, rfl⟩
  · next hdiffers =>
    rw [Bool.not_eq_true] at hdiffers
    rw [hdiffers] at h
    exact absurd h (by decide)

namespace Comparison

/-- The structs of a layout compared with itself: each is paired with the first one of its name. -/
theorem mem_structs_self {l : Layout} {c : StructChange} :
    c ∈ (ofLayouts l l).structs ↔
      ∃ s ∈ l.structs, ∃ t, l.struct? s.name = some t ∧ c = StructChange.kept s t := by
  have hdeclared : ∀ s ∈ l.structs, ∃ t, l.struct? s.name = some t :=
    fun s hs => (looks_find? StructLayout.name).complete hs
  have hnone : (l.structs.filter fun after => (l.struct? after.name).isNone) = [] := by
    rw [List.filter_eq_nil_iff]
    intro s hs
    obtain ⟨t, ht⟩ := hdeclared s hs
    simp [ht]
  rw [ofLayouts, StructChange.list, hnone, List.map_nil, List.append_nil, List.mem_map]
  constructor
  · intro hlisted
    rcases hlisted with ⟨s, hs, rfl⟩
    obtain ⟨t, ht⟩ := hdeclared s hs
    refine ⟨s, hs, t, ht, ?_⟩
    rw [ht]
  · intro hpair
    rcases hpair with ⟨s, hs, t, ht, rfl⟩
    refine ⟨s, hs, ?_⟩
    rw [ht]

/-- The pairs of a layout compared with itself are declarations under one name. -/
theorem mem_pairs_self {l : Layout} {family : String} {s t : StructLayout}
    (h : (family, s, t) ∈ pairs l l) : s ∈ l.structs ∧ t ∈ l.structs ∧ s.name = t.name := by
  obtain ⟨before, hbefore, hpair⟩ := List.mem_filterMap.mp h
  obtain ⟨after, hafter, heq⟩ := Option.map_eq_some_iff.mp hpair
  simp only [Prod.mk.injEq] at heq
  obtain ⟨-, rfl, rfl⟩ := heq
  obtain ⟨hmem, hname⟩ := (looks_find? StructLayout.name).sound hafter
  exact ⟨hbefore, hmem, hname.symm⟩

/-- No field of an unambiguous layout is seen to move against itself. -/
theorem fieldSamples_self {l : Layout} (h : l.Unambiguous) {family : String} {s : Shift}
    (hs : (family, s) ∈ fieldSamples l l) : s.delta = 0 := by
  obtain ⟨⟨root, before, after⟩, hpair, hsample⟩ := List.mem_flatMap.mp hs
  obtain ⟨hbefore, hafter, hname⟩ := mem_pairs_self hpair
  obtain ⟨f, hf, hmoved⟩ := List.mem_filterMap.mp hsample
  obtain ⟨g, hg, heq⟩ := Option.map_eq_some_iff.mp hmoved
  obtain ⟨hmem, hkey⟩ := (looks_find? Field.key).sound hg
  have hcompared := (h before hbefore after hafter hname).fields.values f hf g hmem hkey.symm
  obtain rfl : Shift.ofOffsets before.name f.key f.offset g.offset = s := congrArg Prod.snd heq
  exact Delta.between_eq_zero_iff.mpr (congrArg Prod.fst hcompared)

/-- No slot of an unambiguous layout is seen to move against itself. -/
theorem slotSamples_self {l : Layout} (h : l.Unambiguous) {family : String} {s : Shift}
    (hs : (family, s) ∈ slotSamples l l) : s.delta = 0 := by
  obtain ⟨⟨root, before, after⟩, hpair, hsample⟩ := List.mem_flatMap.mp hs
  obtain ⟨hbefore, hafter, hname⟩ := mem_pairs_self hpair
  obtain ⟨f, hf, hmoved⟩ := List.mem_filterMap.mp hsample
  obtain ⟨g, hg, heq⟩ := Option.map_eq_some_iff.mp hmoved
  obtain ⟨hmem, hkey⟩ := (looks_find? VirtualFunction.name).sound hg
  have hslot := (h before hbefore after hafter hname).virtuals.values f hf g hmem hkey.symm
  obtain rfl : Shift.ofSigned before.name f.name f.slot.toNat g.slot.toNat = s :=
    congrArg Prod.snd heq
  rw [Shift.ofSigned, hslot, Delta.clamp_eq_zero_iff, Int.sub_self]

/-- An unambiguous layout has no shift proposed against itself. -/
theorem proposals_self {l : Layout} (h : l.Unambiguous) : (ofLayouts l l).proposals = [] := by
  rw [ofLayouts, List.append_eq_nil_iff]
  exact ⟨ShiftProposal.ofFamilies_eq_nil fun _ _ => fieldSamples_self h,
    ShiftProposal.ofFamilies_eq_nil fun _ _ => slotSamples_self h⟩

/-- A struct of an unambiguous layout is unchanged against the first one of its name. -/
theorem kept_unchanged_of_agrees {s t : StructLayout} (h : s.Agrees t) (h' : t.Agrees s) :
    (StructChange.kept s t).change = .unchanged :=
  StructChange.kept_unchanged_iff.mpr ⟨⟨.of_agreesOn (looks_getLast? _) h.fields h'.fields,
    .of_agreesOn (looks_find? _) h.virtuals h'.virtuals,
    .of_agreesOn (looks_find? _) h.functions h'.functions⟩, h.size_eq, h.base_eq⟩

/-- Two structs that are unchanged against one and the same struct agree. -/
theorem agrees_of_kept_unchanged {s t r : StructLayout}
    (hs : (StructChange.kept s r).change = .unchanged)
    (ht : (StructChange.kept t r).change = .unchanged) : s.Agrees t := by
  obtain ⟨⟨hfields, hvirtuals, hfunctions⟩, hsize, hbase⟩ := StructChange.kept_unchanged_iff.mp hs
  obtain ⟨⟨hfields', hvirtuals', hfunctions'⟩, hsize', hbase'⟩ :=
    StructChange.kept_unchanged_iff.mp ht
  exact ⟨hbase.trans hbase'.symm, hsize.trans hsize'.symm,
    .of_paired (looks_getLast? _) hfields hfields',
    .of_paired (looks_find? _) hvirtuals hvirtuals',
    .of_paired (looks_find? _) hfunctions hfunctions'⟩

/-- A layout in which no name is used twice is unambiguous. -/
theorem unambiguous_of_distinct {l : Layout} (h : l.Distinct) : l.Unambiguous := by
  intro s hs t ht hname
  obtain rfl := List.inj_on_of_nodup_map h.structs hs ht hname
  have hmembers := h.members s hs
  exact ⟨rfl, rfl, .of_nodup hmembers.fields _, .of_nodup hmembers.virtuals _,
    .of_nodup hmembers.functions _⟩

/-- A layout shows no drift against itself exactly when it is unambiguous. -/
theorem noDrift_self_iff (l : Layout) : (ofLayouts l l).NoDrift ↔ l.Unambiguous := by
  constructor
  · intro h s hs t ht hname
    obtain ⟨r, hr⟩ := (looks_find? StructLayout.name).complete hs
    have hr' : l.struct? t.name = some r := hname ▸ hr
    exact agrees_of_kept_unchanged
      (h.unchanged _ (mem_structs_self.mpr ⟨s, hs, r, hr, rfl⟩)).1
      (h.unchanged _ (mem_structs_self.mpr ⟨t, ht, r, hr', rfl⟩)).1
  · intro h
    refine ⟨fun c hc => ?_, proposals_self h⟩
    obtain ⟨s, hs, t, ht, rfl⟩ := mem_structs_self.mp hc
    obtain ⟨hmem, hname⟩ := (looks_find? StructLayout.name).sound ht
    have hunchanged := kept_unchanged_of_agrees (h s hs t hmem hname.symm) (h t hmem s hs hname)
    exact ⟨hunchanged, StructChange.kept_lists_eq_nil hunchanged⟩

/-- A struct with two overloads of one virtual function. -/
def overloads : StructLayout := ⟨"Foo", none, none, [], [⟨"draw", 0⟩, ⟨"draw", 1⟩], []⟩

/-- The second overload is paired with the first one, so the struct is listed as modified. -/
theorem overloads_drift :
    ¬(ofLayouts ⟨"1", none, [overloads]⟩ ⟨"1", none, [overloads]⟩).NoDrift := by
  intro h
  have hkept := (h.unchanged _ (mem_structs_self.mpr ⟨overloads, List.mem_singleton_self _,
    overloads, by decide +kernel, rfl⟩)).1
  exact absurd hkept (by decide +kernel)

end Comparison

end LayoutWatch
