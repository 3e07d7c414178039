import LayoutWatch.Proofs.SelfComparison
import Mathlib.Data.Multiset.MapFold

/-!
# What a comparison without a change says

Where a comparison shows every struct unchanged, no name and no value of either layout differs
from what it is paired with. How often a name stands there is not compared: of several
declarations under one name the comparison looks at one, so a further overload or a second listing
of a struct goes unseen. The two layouts declare the same structs with the same members exactly
when the new one is unambiguous and every name stands in both equally often.
-/

namespace LayoutWatch

/-- Two collections with the same images under one function have the same images under another
one, if that depends on the first alone. -/
theorem map_eq_map_of_map_eq_map {α β γ : Type} {s t : Multiset α} {f : α → β} {g : α → γ}
    (h : s.map f = t.map f) (hdepends : ∀ a ∈ s, ∀ b ∈ t, f a = f b → g a = g b) :
    s.map g = t.map g := by
  rw [← Multiset.rel_eq, Multiset.rel_map] at h ⊢
  exact h.mono hdepends

section Keyed

variable {α β : Type} {key : α → String} {value : α → β} {look : List α → String → Option α}

/-- The keys of a list, in any order. -/
def keysOf (key : α → String) (l : List α) : Multiset String := Multiset.map key l

/-- The keys of a list with their values, in any order. -/
def keyed (key : α → String) (value : α → β) (l : List α) : Multiset (String × β) :=
  Multiset.map (fun a => (key a, value a)) l

/-- The keys of a list are those of its keys with values. -/
@[simp] theorem map_fst_keyed (l : List α) : (keyed key value l).map Prod.fst = keysOf key l := by
  rw [keyed, keysOf, Multiset.map_map]
  rfl

/-- A key with its value that stands in one list stands in every list that has the same. -/
theorem exists_of_keyed_eq {l m : List α} (h : keyed key value l = keyed key value m) {a : α}
    (ha : a ∈ l) : ∃ b ∈ m, key b = key a ∧ value b = value a := by
  have hmem : (key a, value a) ∈ keyed key value m := by
    rw [← h]
    exact Multiset.mem_map_of_mem _ (Multiset.mem_coe.mpr ha)
  obtain ⟨b, hb, hpair⟩ := Multiset.mem_map.mp hmem
  simp only [Prod.mk.injEq] at hpair
  exact ⟨b, Multiset.mem_coe.mp hb, hpair⟩

/-- Whether two lists agree depends on their keys with values alone. -/
theorem AgreesOn.of_keyed {l l' m m' : List α} (h : AgreesOn key value l' m')
    (hl : keyed key value l = keyed key value l') (hm : keyed key value m = keyed key value m') :
    AgreesOn key value l m := by
  constructor
  · intro a ha
    obtain ⟨a', ha', hkey, -⟩ := exists_of_keyed_eq hl ha
    obtain ⟨b', hb', hsame⟩ := h.keys a' ha'
    obtain ⟨b, hb, hback, -⟩ := exists_of_keyed_eq hm.symm hb'
    exact ⟨b, hb, hback.trans (hsame.trans hkey)⟩
  · intro a ha b hb hsame
    obtain ⟨a', ha', hkey, hvalue⟩ := exists_of_keyed_eq hl ha
    obtain ⟨b', hb', hkey', hvalue'⟩ := exists_of_keyed_eq hm hb
    rw [← hvalue, ← hvalue']
    exact h.values a' ha' b' hb' (hkey.trans (hsame.trans hkey'.symm))

/-- A list that is paired with another one has the same keys with the same values as any list that
agrees with that one and has the same keys. -/
theorem keyed_eq_of_paired (hlook : Looks key look) {l r m : List α}
    (hpaired : Paired key value look l r) (hagrees : AgreesOn key value r m)
    (hkeys : keysOf key l = keysOf key m) : keyed key value l = keyed key value m := by
  refine map_eq_map_of_map_eq_map hkeys fun a ha b hb hsame => ?_
  obtain ⟨c, hc, hvalue⟩ := hpaired.finds a (Multiset.mem_coe.mp ha)
  obtain ⟨hmem, hkey⟩ := hlook.sound hc
  have hvalue' := hagrees.values c hmem b (Multiset.mem_coe.mp hb) (hkey.trans hsame)
  rw [hsame, hvalue, hvalue']

/-- Lists without repeated keys that are paired have the same keys. -/
theorem keysOf_eq_of_paired (hlook : Looks key look) {l r : List α}
    (hpaired : Paired key value look l r) (hl : (l.map key).Nodup) (hr : (r.map key).Nodup) :
    keysOf key l = keysOf key r := by
  rw [keysOf, keysOf, Multiset.map_coe, Multiset.map_coe, Multiset.coe_eq_coe,
    List.perm_ext_iff_of_nodup hl hr]
  intro k
  simp only [List.mem_map]
  constructor
  · rintro ⟨a, ha, rfl⟩
    obtain ⟨b, hb, -⟩ := hpaired.finds a ha
    exact ⟨b, hlook.sound hb⟩
  · rintro ⟨b, hb, rfl⟩
    exact hpaired.keys b hb

end Keyed

namespace StructLayout

/-- What a struct declares, its members in any order. -/
structure Contents where
  /-- Name of the struct. -/
  name : String
  /-- Name of the struct that it extends. -/
  base : Option String
  /-- Size in bytes. -/
  size : Option UInt64
  /-- Keys of the fields with their offsets, types and sizes. -/
  fields : Multiset (String × UInt64 × Option String × Option UInt64)
  /-- Names of the virtual functions with their slots. -/
  virtuals : Multiset (String × UInt32)
  /-- Names of the other functions with their addresses. -/
  functions : Multiset (String × Option UInt64)

/-- What a struct declares. -/
def contents (s : StructLayout) : Contents where
  name := s.name
  base := s.base
  size := s.size
  fields := keyed Field.key Field.compared s.fields
  virtuals := keyed VirtualFunction.name VirtualFunction.slot s.virtuals
  functions := keyed MemberFunction.name MemberFunction.address s.functions

/-- The names that a struct declares, in any order but as often as they stand there. -/
structure Outline where
  /-- Name of the struct. -/
  name : String
  /-- Keys of the fields. -/
  fields : Multiset String
  /-- Names of the virtual functions. -/
  virtuals : Multiset String
  /-- Names of the other functions. -/
  functions : Multiset String

/-- The names among what a struct declares. -/
def Contents.outline (c : Contents) : Outline :=
  ⟨c.name, c.fields.map Prod.fst, c.virtuals.map Prod.fst, c.functions.map Prod.fst⟩

/-- The names that a struct declares. -/
def outline (s : StructLayout) : Outline where
  name := s.name
  fields := keysOf Field.key s.fields
  virtuals := keysOf VirtualFunction.name s.virtuals
  functions := keysOf MemberFunction.name s.functions

/-- The names that a struct declares are those among what it declares. -/
@[simp] theorem outline_contents (s : StructLayout) : s.contents.outline = s.outline := by
  simp only [Contents.outline, contents, outline, map_fst_keyed]

/-- Whether two structs agree depends on what they declare alone. -/
theorem Agrees.of_contents {s s' t t' : StructLayout} (h : s'.Agrees t')
    (hs : s.contents = s'.contents) (ht : t.contents = t'.contents) : s.Agrees t := by
  simp only [contents, Contents.mk.injEq] at hs ht
  obtain ⟨-, hbase, hsize, hfields, hvirtuals, hfunctions⟩ := hs
  obtain ⟨-, hbase', hsize', hfields', hvirtuals', hfunctions'⟩ := ht
  exact ⟨hbase.trans (h.base_eq.trans hbase'.symm), hsize.trans (h.size_eq.trans hsize'.symm),
    h.fields.of_keyed hfields hfields', h.virtuals.of_keyed hvirtuals hvirtuals',
    h.functions.of_keyed hfunctions hfunctions'⟩

/-- A struct that is unchanged against another one declares the same as any struct that agrees with
that one and declares the same names. -/
theorem contents_eq_of_unchanged {s r t : StructLayout}
    (hunchanged : (StructChange.kept s r).change = .unchanged) (hagrees : r.Agrees t)
    (houtline : s.outline = t.outline) : s.contents = t.contents := by
  obtain ⟨⟨hfields, hvirtuals, hfunctions⟩, hsize, hbase⟩ :=
    StructChange.kept_unchanged_iff.mp hunchanged
  simp only [outline, Outline.mk.injEq] at houtline
  obtain ⟨hname, hfieldKeys, hvirtualNames, hfunctionNames⟩ := houtline
  rw [contents, contents, hname, hbase.trans hagrees.base_eq, hsize.trans hagrees.size_eq,
    keyed_eq_of_paired (looks_getLast? _) hfields hagrees.fields hfieldKeys,
    keyed_eq_of_paired (looks_find? _) hvirtuals hagrees.virtuals hvirtualNames,
    keyed_eq_of_paired (looks_find? _) hfunctions hagrees.functions hfunctionNames]

/-- Structs with distinct members declare the same names if one is unchanged against the other. -/
theorem outline_eq_of_unchanged {s t : StructLayout} (hname : s.name = t.name)
    (hunchanged : (StructChange.kept s t).change = .unchanged) (hs : s.Distinct)
    (ht : t.Distinct) : s.outline = t.outline := by
  obtain ⟨⟨hfields, hvirtuals, hfunctions⟩, -, -⟩ :=
    StructChange.kept_unchanged_iff.mp hunchanged
  rw [outline, outline, hname, keysOf_eq_of_paired (looks_getLast? _) hfields hs.fields ht.fields,
    keysOf_eq_of_paired (looks_find? _) hvirtuals hs.virtuals ht.virtuals,
    keysOf_eq_of_paired (looks_find? _) hfunctions hs.functions ht.functions]

end StructLayout

/-- Two layouts declare the same structs with the same members, each as often and in any order. -/
def Layout.SameDeclarations (old new : Layout) : Prop :=
  Multiset.map StructLayout.contents old.structs = Multiset.map StructLayout.contents new.structs

/-- Every name of a struct and of its members stands in two layouts equally often. -/
def Layout.SameOutline (old new : Layout) : Prop :=
  Multiset.map StructLayout.outline old.structs = Multiset.map StructLayout.outline new.structs

namespace Comparison

/-- Every struct of a comparison is unchanged. -/
def Unchanged (c : Comparison) : Prop := ∀ s ∈ c.structs, s.change = .unchanged

variable {old new : Layout}

/-- Every struct is unchanged exactly when each old one is against the first new one of its name
and there is no further name. -/
theorem unchanged_iff : (ofLayouts old new).Unchanged ↔
    (∀ s ∈ old.structs, ∃ t, new.struct? s.name = some t ∧
      (StructChange.kept s t).change = .unchanged) ∧
    ∀ t ∈ new.structs, ∃ s ∈ old.structs, s.name = t.name := by
  have hfresh : ∀ t : StructLayout,
      (old.struct? t.name).isNone = true ↔ ¬∃ s ∈ old.structs, s.name = t.name := by
    intro t
    rw [Layout.struct?, Option.isNone_iff_eq_none, List.find?_eq_none]
    simp
  rw [Unchanged, ofLayouts, StructChange.list, List.forall_mem_append, List.forall_mem_map,
    List.forall_mem_map]
  refine and_congr (forall₂_congr fun s _ => ?_) ?_
  · cases new.struct? s.name with
    | none => simp [StructChange.removed]
    | some t => simp
  · simp only [List.mem_filter, hfresh, StructChange.added]
    constructor
    · intro hnone t ht
      by_contra hother
      exact absurd (hnone t ⟨ht, hother⟩) (by decide)
    · intro hnames t ht
      exact absurd (hnames t ht.1) ht.2

/-- Without a change, layouts that declare the same leave the new one unambiguous. -/
theorem unambiguous_of_sameDeclarations (h : (ofLayouts old new).Unchanged)
    (hsame : old.SameDeclarations new) : new.Unambiguous := by
  have hback : ∀ t ∈ new.structs, ∃ s ∈ old.structs, s.contents = t.contents := by
    intro t ht
    have hmem : t.contents ∈ Multiset.map StructLayout.contents old.structs := by
      rw [hsame]
      exact Multiset.mem_map_of_mem _ (Multiset.mem_coe.mpr ht)
    obtain ⟨s, hs, hcontents⟩ := Multiset.mem_map.mp hmem
    exact ⟨s, Multiset.mem_coe.mp hs, hcontents⟩
  intro t ht u hu hname
  obtain ⟨s, hs, hst⟩ := hback t ht
  obtain ⟨v, hv, hvu⟩ := hback u hu
  have hsname : s.name = t.name := congrArg StructLayout.Contents.name hst
  have hvname : v.name = u.name := congrArg StructLayout.Contents.name hvu
  obtain ⟨r, hr, hsr⟩ := (unchanged_iff.mp h).1 s hs
  obtain ⟨r', hr', hvr⟩ := (unchanged_iff.mp h).1 v hv
  rw [hvname, ← hname, ← hsname, hr] at hr'
  obtain rfl := Option.some.inj hr'
  exact (agrees_of_kept_unchanged hsr hvr).of_contents hst.symm hvu.symm

/-- Without a change, an unambiguous new layout declares the same as an old one with the same names
equally often. -/
theorem sameDeclarations_of_unambiguous (h : (ofLayouts old new).Unchanged)
    (hunambiguous : new.Unambiguous) (houtline : old.SameOutline new) :
    old.SameDeclarations new := by
  refine map_eq_map_of_map_eq_map houtline fun s hs t ht hst => ?_
  obtain ⟨r, hr, hunchanged⟩ := (unchanged_iff.mp h).1 s (Multiset.mem_coe.mp hs)
  obtain ⟨hmem, hname⟩ := (looks_find? StructLayout.name).sound hr
  have hsame : s.name = t.name := congrArg StructLayout.Outline.name hst
  have hagrees := hunambiguous r hmem t (Multiset.mem_coe.mp ht) (hname.trans hsame)
  exact StructLayout.contents_eq_of_unchanged hunchanged hagrees hst

/-- Without a change, layouts in which no name is used twice have the same names. -/
theorem sameOutline_of_distinct (h : (ofLayouts old new).Unchanged) (hold : old.Distinct)
    (hnew : new.Distinct) : old.SameOutline new := by
  have houtlines : ∀ {l : Layout}, l.Distinct → (l.structs.map StructLayout.outline).Nodup := by
    intro l hl
    have hnames : l.structs.map (·.name) = (l.structs.map StructLayout.outline).map (·.name) := by
      rw [List.map_map]
      rfl
    exact List.Nodup.of_map (·.name) (hnames ▸ hl.structs)
  have hpairs : ∀ s ∈ old.structs, ∃ t ∈ new.structs, s.name = t.name ∧ s.outline = t.outline := by
    intro s hs
    obtain ⟨t, ht, hunchanged⟩ := (unchanged_iff.mp h).1 s hs
    obtain ⟨hmem, hname⟩ := (looks_find? StructLayout.name).sound ht
    exact ⟨t, hmem, hname.symm, StructLayout.outline_eq_of_unchanged hname.symm hunchanged
      (hold.members s hs) (hnew.members t hmem)⟩
  rw [Layout.SameOutline, Multiset.map_coe, Multiset.map_coe, Multiset.coe_eq_coe,
    List.perm_ext_iff_of_nodup (houtlines hold) (houtlines hnew)]
  intro o
  simp only [List.mem_map]
  constructor
  · rintro ⟨s, hs, rfl⟩
    obtain ⟨t, ht, -, houtline⟩ := hpairs s hs
    exact ⟨t, ht, houtline.symm⟩
  · rintro ⟨t, ht, rfl⟩
    obtain ⟨s, hs, hname⟩ := (unchanged_iff.mp h).2 t ht
    obtain ⟨t', ht', hname', houtline⟩ := hpairs s hs
    obtain rfl := List.inj_on_of_nodup_map hnew.structs ht ht' (hname.symm.trans hname')
    exact ⟨s, hs, houtline⟩

/-- Between layouts in which no name is used twice, no change is missed. -/
theorem sameDeclarations_of_distinct (h : (ofLayouts old new).Unchanged) (hold : old.Distinct)
    (hnew : new.Distinct) : old.SameDeclarations new := by
  exact sameDeclarations_of_unambiguous h (unambiguous_of_distinct hnew)
    (sameOutline_of_distinct h hold hnew)

/-- Layouts that declare the same have the same names. -/
theorem sameOutline_of_sameDeclarations (h : old.SameDeclarations new) : old.SameOutline new := by
  have houtlines : ∀ l : Layout, Multiset.map StructLayout.outline l.structs =
      (Multiset.map StructLayout.contents l.structs).map StructLayout.Contents.outline := by
    intro l
    rw [Multiset.map_map]
    exact Multiset.map_congr rfl fun s _ => (StructLayout.outline_contents s).symm
  rw [Layout.SameOutline, houtlines, houtlines, h]

/-- Where every struct is unchanged, the two layouts declare the same exactly when the new one is
unambiguous and every name stands in both equally often. -/
theorem sameDeclarations_iff_of_unchanged (h : (ofLayouts old new).Unchanged) :
    old.SameDeclarations new ↔ new.Unambiguous ∧ old.SameOutline new := by
  constructor
  · intro hsame
    exact ⟨unambiguous_of_sameDeclarations h hsame, sameOutline_of_sameDeclarations hsame⟩
  · intro hnames
    rcases hnames with ⟨hunambiguous, houtline⟩
    exact sameDeclarations_of_unambiguous h hunambiguous houtline

/-- Two structs, one of which extends the other. -/
def ordered : Layout := ⟨"1", none, [⟨"Actor", none, some 32,
  [⟨some "health", 0x10, none, none⟩, ⟨none, 0x18, none, some 4⟩], [⟨"draw", 0⟩, ⟨"tick", 1⟩], []⟩,
  ⟨"Player", some "Actor", none, [⟨some "level", 0x20, none, none⟩], [], [⟨"spawn", none⟩]⟩]⟩

/-- The same two structs in another order, with their members in another order. -/
def reordered : Layout := ⟨"2", none, [
  ⟨"Player", some "Actor", none, [⟨some "level", 0x20, none, none⟩], [], [⟨"spawn", none⟩]⟩,
  ⟨"Actor", none, some 32, [⟨none, 0x18, none, some 4⟩, ⟨some "health", 0x10, none, none⟩],
    [⟨"tick", 1⟩, ⟨"draw", 0⟩], []⟩]⟩

/-- Declarations in another order are seen to be the same. -/
theorem sameDeclarations_reordered :
    (ofLayouts ordered reordered).Unchanged ∧ ordered.SameDeclarations reordered := by
  have hunchanged : (ofLayouts ordered reordered).Unchanged := by
    unfold Unchanged
    decide +kernel
  have hordered : ordered.Distinct := by decide +kernel
  have hreordered : reordered.Distinct := by decide +kernel
  have houtline := sameOutline_of_distinct hunchanged hordered hreordered
  exact ⟨hunchanged, (sameDeclarations_iff_of_unchanged hunchanged).mpr
    ⟨unambiguous_of_distinct hreordered, houtline⟩⟩

/-- The struct with the first of the two overloads alone. -/
def lone : StructLayout := ⟨"Foo", none, none, [], [⟨"draw", 0⟩], []⟩

/-- An overload that the new layout adds goes unseen, so layouts without a change may declare
different virtual functions. -/
theorem overload_missed : (ofLayouts ⟨"1", none, [lone]⟩ ⟨"2", none, [overloads]⟩).Unchanged ∧
    ¬(⟨"1", none, [lone]⟩ : Layout).SameDeclarations ⟨"2", none, [overloads]⟩ := by
  constructor
  · unfold Unchanged
    decide +kernel
  · intro hsame
    have hcounts := congrArg (Multiset.map fun c => Multiset.card c.virtuals) hsame
    simp [StructLayout.contents, keyed, lone, overloads] at hcounts

end Comparison

end LayoutWatch
