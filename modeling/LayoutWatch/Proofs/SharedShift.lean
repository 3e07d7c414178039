import LayoutWatch.Proofs.ScanVerification
import LayoutWatch.Proofs.ShiftGroup

/-!
# Changes and the shifts that they share

The changes of a report are told apart by their deltas. A delta of two or more changes is reported
as one shared shift, which lists these changes and no others, and each of them carries the label of
the delta. A delta of a single change is not reported and leaves its change without a label. The
labels are kept by struct and field, so this rests on no field having two changes.
-/

namespace LayoutWatch

/-- The first entry of a key is found, where every entry of the key has one value. -/
theorem lookup_eq_some_of_unique {κ α : Type} [BEq κ] [LawfulBEq κ] {entries : List (κ × α)}
    {key : κ} {value : α} (hmem : (key, value) ∈ entries)
    (hall : ∀ other, (key, other) ∈ entries → other = value) :
    entries.lookup key = some value := by
  cases hfound : entries.lookup key with
  | none =>
    have hne := List.lookup_eq_none_iff.mp hfound _ hmem
    simp at hne
  | some other =>
    obtain ⟨front, rest, rfl, -⟩ := List.lookup_eq_some_iff.mp hfound
    rw [hall other (by simp)]

namespace OffsetChange

/-- Struct and field of a change in one name. -/
def qualified (c : OffsetChange) : String := c.structName ++ "::" ++ c.fieldName

/-- The samples of changes with a delta are those of the changes with it. -/
theorem filter_map_shift {changes : List OffsetChange}
    (h : ∀ c ∈ changes, c.shift.delta = c.delta) (delta : Int) :
    (changes.map shift).filter (·.delta = delta) =
      (changes.filter (·.delta = delta)).map shift := by
  rw [List.filter_map]
  refine congrArg _ (List.filter_congr fun c hc => ?_)
  rw [Function.comp_apply, h c hc]

end OffsetChange

namespace SharedShift

/-- The shared shift gathers the changes of its delta. -/
structure Gathers (g : SharedShift) (changes : List OffsetChange) : Prop where
  /-- It counts them. -/
  matchCount_eq : g.matchCount = (changes.filter (·.delta = g.delta)).length
  /-- It names them in their order. -/
  fields_eq : g.fields = (changes.filter (·.delta = g.delta)).map OffsetChange.qualified
  /-- Its structs are in strict order. -/
  structs_sorted : g.structs.Pairwise (· < ·)
  /-- They are the structs of these changes. -/
  mem_structs : ∀ name, name ∈ g.structs ↔ ∃ c ∈ changes, c.delta = g.delta ∧ c.structName = name
  /-- The other changes of these structs are counted with them. -/
  totalCandidates_eq : g.totalCandidates = g.matchCount +
    changes.countP fun c => c.delta ≠ g.delta ∧ c.structName ∈ g.structs
  /-- The cause is that of several structs exactly where there are several. -/
  likelyCause_eq : g.likelyCause = if 1 < g.structs.length then multipleCause else singleCause

/-- The group of a delta gathers the changes of the delta. -/
theorem gathers_ofGroup {changes : List OffsetChange}
    (h : ∀ c ∈ changes, c.shift.delta = c.delta) (disputed : List OffsetChange) (delta : Int) :
    (ofGroup disputed (ShiftGroup.ofDelta (changes.map OffsetChange.shift) delta)).Gathers
      changes := by
  have hmembers : (ShiftGroup.ofDelta (changes.map OffsetChange.shift) delta).members =
      (changes.filter (·.delta = delta)).map OffsetChange.shift :=
    OffsetChange.filter_map_shift h delta
  have hstructs : ∀ name,
      name ∈ (ShiftGroup.ofDelta (changes.map OffsetChange.shift) delta).structs ↔
        ∃ c ∈ changes, c.delta = delta ∧ c.structName = name := by
    intro name
    rw [ShiftGroup.mem_structs, hmembers]
    constructor
    · intro hmember
      rcases hmember with ⟨s, hs, hname⟩
      obtain ⟨c, hc, rfl⟩ := List.mem_map.mp hs
      obtain ⟨hmem, hdelta⟩ := List.mem_filter.mp hc
      exact ⟨c, hmem, of_decide_eq_true hdelta, hname⟩
    · intro hchange
      rcases hchange with ⟨c, hc, hdelta, hname⟩
      have hkept : c ∈ changes.filter (·.delta = delta) :=
        List.mem_filter.mpr ⟨hc, decide_eq_true hdelta⟩
      exact ⟨c.shift, List.mem_map.mpr ⟨c, hkept, rfl⟩, hname⟩
  refine ⟨?_, ?_, Ordered.pairwise_distinctTexts _, hstructs, ?_, rfl⟩
  · change (ShiftGroup.ofDelta _ delta).members.length = _
    rw [hmembers, List.length_map]
    rfl
  · change (ShiftGroup.ofDelta _ delta).memberNames = _
    rw [ShiftGroup.memberNames, hmembers, List.map_map]
    rfl
  · change (ShiftGroup.ofDelta _ delta).members.length +
      (ShiftGroup.ofDelta _ delta).anomalies.length = _
    refine congrArg _ ?_
    rw [ShiftGroup.ofDelta]
    dsimp only
    rw [← List.countP_eq_length_filter, List.countP_map]
    refine List.countP_congr fun c hc => ?_
    have hlisted : (ShiftGroup.ofDelta (changes.map OffsetChange.shift) delta).members.any
        (·.structName == c.structName) = true ↔ c.structName ∈
          (ShiftGroup.ofDelta (changes.map OffsetChange.shift) delta).structs := by
      rw [ShiftGroup.mem_structs, List.any_eq_true]
      simp only [beq_iff_eq]
    rw [ShiftGroup.ofDelta] at hlisted
    simp only [Function.comp_apply, Bool.and_eq_true, decide_eq_true_eq, h c hc]
    exact and_congr_right fun _ => hlisted

/-- A label is listed under the field of each member of a group. -/
theorem mem_memberLabels {groups : List ShiftGroup} {key : String × String} {label : String} :
    (key, label) ∈ memberLabels groups ↔
      ∃ g ∈ groups, label = labelOf g.delta ∧ ∃ s ∈ g.members, key = (s.structName, s.member) := by
  simp only [memberLabels, List.mem_flatMap, List.mem_map, Prod.mk.injEq]
  constructor
  · intro hlisted
    rcases hlisted with ⟨g, hg, s, hs, hkey, hlabel⟩
    exact ⟨g, hg, hlabel.symm, s, hs, hkey.symm⟩
  · intro hlisted
    rcases hlisted with ⟨g, hg, hlabel, s, hs, hkey⟩
    exact ⟨g, hg, s, hs, hkey.symm, hlabel.symm⟩

section Labels

variable {changes : List OffsetChange} (h : ∀ c ∈ changes, c.shift.delta = c.delta)
  (hnodup : (changes.map fun c => (c.structName, c.fieldName)).Nodup)

include h hnodup

/-- The only label of a field is that of the delta of its change. -/
theorem eq_labelOf_of_mem {c : OffsetChange} (hc : c ∈ changes) {label : String}
    (hlabel : ((c.structName, c.fieldName), label) ∈
      memberLabels (ShiftGroup.ofSamples (changes.map OffsetChange.shift))) :
    label = labelOf c.delta ∧
      ShiftGroup.leastSize ≤ (changes.filter (·.delta = c.delta)).length := by
  obtain ⟨g, hg, rfl, s, hs, hkey⟩ := mem_memberLabels.mp hlabel
  obtain ⟨heq, hshared⟩ := ShiftGroup.mem_ofSamples.mp hg
  have hmembers : g.members = (changes.filter (·.delta = g.delta)).map OffsetChange.shift := by
    rw [heq]
    exact OffsetChange.filter_map_shift h _
  rw [hmembers] at hs
  obtain ⟨other, hother, rfl⟩ := List.mem_map.mp hs
  obtain ⟨hmem, hdelta⟩ := List.mem_filter.mp hother
  -- No other change has the struct and the field of this one.
  obtain rfl : c = other := List.inj_on_of_nodup_map hnodup hc hmem hkey
  rw [OffsetChange.filter_map_shift h, List.length_map] at hshared
  rw [of_decide_eq_true hdelta]
  exact ⟨rfl, hshared⟩

/-- A change gets the label of its delta exactly when enough changes share it. -/
theorem label_labelled {c : OffsetChange} (hc : c ∈ changes) :
    (c.labelled (memberLabels (ShiftGroup.ofSamples (changes.map OffsetChange.shift)))).label =
      if ShiftGroup.leastSize ≤ (changes.filter (·.delta = c.delta)).length then
        some (labelOf c.delta)
      else none := by
  rw [OffsetChange.labelled]
  split
  · next hshared =>
    apply lookup_eq_some_of_unique
    · refine List.mem_reverse.mpr (mem_memberLabels.mpr
        ⟨ShiftGroup.ofDelta (changes.map OffsetChange.shift) c.delta, ?_, rfl, c.shift, ?_, rfl⟩)
      · refine ShiftGroup.mem_ofSamples.mpr ⟨rfl, ?_⟩
        change _ ≤ ((changes.map OffsetChange.shift).filter (·.delta = c.delta)).length
        rw [OffsetChange.filter_map_shift h, List.length_map]
        exact hshared
      · change _ ∈ (changes.map OffsetChange.shift).filter (·.delta = c.delta)
        exact List.mem_filter.mpr ⟨List.mem_map.mpr ⟨c, hc, rfl⟩, decide_eq_true (h c hc)⟩
    · intro other hother
      exact (eq_labelOf_of_mem h hnodup hc (List.mem_reverse.mp hother)).1
  · next hfew =>
    refine List.lookup_eq_none_iff.mpr ?_
    rintro ⟨key, label⟩ hentry
    refine bne_iff_ne.mpr ?_
    rintro rfl
    exact hfew (eq_labelOf_of_mem h hnodup hc (List.mem_reverse.mp hentry)).2

end Labels

end SharedShift

namespace ScanReport

variable {identifier hash scannedAt : String} {sightings : List Sighting}

/-- A change of a list of sightings moved by the delta of its sample. -/
theorem shift_delta_of_mem {c : OffsetChange} (hc : c ∈ OffsetChange.ofSightings sightings) :
    c.shift.delta = c.delta := (OffsetChange.summarises_of_mem hc).delta_eq.symm

/-- The labels leave the samples of the changes as they are. -/
theorem map_shift_changes :
    (ofSightings identifier hash scannedAt sightings).changes.map OffsetChange.shift =
      (OffsetChange.ofSightings sightings).map OffsetChange.shift := by
  rw [ofSightings, List.map_map]
  rfl

/-- The labels leave the number of changes of a delta as it is. -/
theorem length_filter_changes (delta : Int) :
    ((ofSightings identifier hash scannedAt sightings).changes.filter (·.delta = delta)).length =
      ((OffsetChange.ofSightings sightings).filter (·.delta = delta)).length := by
  rw [ofSightings, List.filter_map, List.length_map]
  rfl

/-- The shared shifts with a delta are those of its group. -/
theorem filter_shifts (delta : Int) :
    (ofSightings identifier hash scannedAt sightings).shifts.filter (·.delta = delta) =
      ((ShiftGroup.ofSamples
        ((ofSightings identifier hash scannedAt sightings).changes.map OffsetChange.shift)).filter
          (·.delta = delta)).map (SharedShift.ofGroup (OffsetChange.ofSightings sightings)) := by
  rw [map_shift_changes, ofSightings, List.filter_map]
  rfl

/-- The samples with a delta are as many as the changes with it. -/
theorem length_filter_shift {r : ScanReport} (h : ∀ c ∈ r.changes, c.shift.delta = c.delta)
    (delta : Int) : ((r.changes.map OffsetChange.shift).filter (·.delta = delta)).length =
      (r.changes.filter (·.delta = delta)).length := by
  rw [OffsetChange.filter_map_shift h, List.length_map]

/-- A change of a report moved by the delta of its sample. -/
theorem shift_delta_of_mem_changes :
    ∀ c ∈ (ofSightings identifier hash scannedAt sightings).changes, c.shift.delta = c.delta := by
  intro c hc
  obtain ⟨unlabelled, hmem, rfl⟩ := List.mem_map.mp hc
  have hdelta : unlabelled.shift.delta = unlabelled.delta := shift_delta_of_mem hmem
  exact hdelta

/-- A delta of enough changes is reported as one shared shift, which gathers these changes. -/
theorem exists_shift_of_shared {r : ScanReport}
    (hr : r = ofSightings identifier hash scannedAt sightings) {delta : Int}
    (hshared : ShiftGroup.leastSize ≤ (r.changes.filter (·.delta = delta)).length) :
    ∃ g, r.shifts.filter (·.delta = delta) = [g] ∧ g.delta = delta ∧ g.Gathers r.changes := by
  subst hr
  have hmoved : ∀ c ∈ (ofSightings identifier hash scannedAt sightings).changes,
      c.shift.delta = c.delta := shift_delta_of_mem_changes
  rw [← length_filter_shift hmoved] at hshared
  rw [filter_shifts, ShiftGroup.filter_ofSamples_of_shared hshared]
  exact ⟨_, rfl, rfl, SharedShift.gathers_ofGroup hmoved _ delta⟩

/-- A delta of too few changes is not reported. -/
theorem no_shift_of_not_shared {r : ScanReport}
    (hr : r = ofSightings identifier hash scannedAt sightings) {delta : Int}
    (hfew : ¬ShiftGroup.leastSize ≤ (r.changes.filter (·.delta = delta)).length) :
    r.shifts.filter (·.delta = delta) = [] := by
  subst hr
  rw [← length_filter_shift shift_delta_of_mem_changes] at hfew
  rw [filter_shifts, ShiftGroup.filter_ofSamples_of_not_shared hfew, List.map_nil]

/-- The label of a change is that of its delta, where enough changes share it. -/
theorem label_of_mem_changes {r : ScanReport}
    (hr : r = ofSightings identifier hash scannedAt sightings) {c : OffsetChange}
    (hc : c ∈ r.changes) :
    c.label = if ShiftGroup.leastSize ≤ (r.changes.filter (·.delta = c.delta)).length then
      some (SharedShift.labelOf c.delta) else none := by
  subst hr
  rw [length_filter_changes]
  obtain ⟨unlabelled, hmem, rfl⟩ := List.mem_map.mp hc
  exact SharedShift.label_labelled (fun _ => shift_delta_of_mem) (OffsetChange.nodup_fields _) hmem

/-- The shared shifts are listed by the number of their changes, and then by their deltas. -/
theorem pairwise_shifts {r : ScanReport}
    (hr : r = ofSightings identifier hash scannedAt sightings) :
    r.shifts.Pairwise fun g g' => g'.matchCount < g.matchCount ∨
      g.matchCount = g'.matchCount ∧ g.delta < g'.delta := by
  subst hr
  exact List.pairwise_map.mpr (ShiftGroup.pairwise_ofSamples _)

end ScanReport

/-- The changes that a scan reports are told apart by their deltas. A delta of at least two changes
is reported as one shared shift, which gathers them, and they carry its label; a delta of a single
change is not reported, and the change carries no label. The shared shifts of more changes stand in
front, and among equals those of the smaller delta. -/
theorem Binary.shifts_of_scan {b : Binary} {sets : List SignatureSet} {scannedAt : String}
    {r : ScanReport} (h : b.scan sets scannedAt = .ok r) :
    (∀ delta,
      (2 ≤ (r.changes.filter (·.delta = delta)).length →
        ∃ g, r.shifts.filter (·.delta = delta) = [g] ∧ g.delta = delta ∧ g.Gathers r.changes) ∧
      (¬2 ≤ (r.changes.filter (·.delta = delta)).length →
        r.shifts.filter (·.delta = delta) = [])) ∧
    (∀ c ∈ r.changes, c.label = if 2 ≤ (r.changes.filter (·.delta = c.delta)).length then
      some ("delta " ++ Delta.text c.delta) else none) ∧
    r.shifts.Pairwise fun g g' => g'.matchCount < g.matchCount ∨
      g.matchCount = g'.matchCount ∧ g.delta < g'.delta := by
  obtain ⟨sightings, hr, -⟩ := sightings_of_scan h
  exact ⟨fun delta => ⟨ScanReport.exists_shift_of_shared hr, ScanReport.no_shift_of_not_shared hr⟩,
    fun c hc => ScanReport.label_of_mem_changes hr hc, ScanReport.pairwise_shifts hr⟩

namespace Gathered

/-- The signature of a field that is expected at this offset, from an instruction with this
opcode. -/
def signature (structName fieldName : String) (expected : UInt64) (opcode : UInt8) : Signature :=
  { Disputed.signature opcode with structName, fieldName, expectedOffset := expected }

/-- Two fields are expected 8 bytes in front of their offset, and one 16 bytes. -/
def signatures : SignatureSet :=
  ⟨"Foo", "", none, SignatureSet.currentFormat, "",
    [signature "Foo" "a" 0 0x8B, signature "Bar" "b" 8 0x89, signature "Foo" "c" 8 0x8D]⟩

/-- A field as it is seen at a place of the file. -/
def sighting (structName fieldName : String) (expected : UInt64) (site : Nat)
    (observed : UInt64) : Sighting :=
  ⟨structName, fieldName, .fieldAccess, expected, true, some site, some observed, 85, 1, false⟩

/-- The three fields as they are seen. -/
def sightings : List Sighting :=
  [sighting "Foo" "a" 0 160 8, sighting "Bar" "b" 8 167 16, sighting "Foo" "c" 8 174 24]

/-- A signature is looked for by its pattern. -/
theorem sightValid_signature (structName fieldName : String) (expected : UInt64) (opcode : UInt8) :
    Disputed.binary.sightValid (signature structName fieldName expected opcode) =
      .ok (Disputed.binary.sightPatterns (signature structName fieldName expected opcode)
        ⟨Disputed.pattern opcode, none, none⟩) :=
  Binary.sightValid_of_text (List.cons_ne_nil _ _) rfl rfl rfl

/-- Each field is seen once. -/
theorem scan_signatures : Disputed.binary.scan [signatures] "" = .ok
    (ScanReport.ofSightings Disputed.binary.identifier Disputed.binary.hash "" sightings) := by
  refine Binary.scan_eq (Binary.validImage_ofCode (by decide)) (mapM_eq_ok_iff.mpr ?_) ""
  refine .cons ?_ (.cons ?_ (.cons ?_ .nil)) <;>
    exact (sightValid_signature _ _ _ _).trans (congrArg Except.ok (by decide +kernel))

/-- Each field has changed. -/
theorem ofSightings_sightings : OffsetChange.ofSightings sightings =
    [⟨"Foo", "a", 0, 8, 8, 85, none, []⟩, ⟨"Bar", "b", 8, 16, 8, 85, none, []⟩,
      ⟨"Foo", "c", 8, 24, 16, 85, none, []⟩] := by
  have hfields : OffsetChange.byField sightings =
      [(("Foo", "a"), [sighting "Foo" "a" 0 160 8]), (("Bar", "b"), [sighting "Bar" "b" 8 167 16]),
        (("Foo", "c"), [sighting "Foo" "c" 8 174 24])] := by
    simp [OffsetChange.byField, Ordered.collect, List.eraseDups_cons, sightings, sighting]
  have hnear : Delta.between 0 8 = 8 ∧ Delta.between 8 16 = 8 ∧ Delta.between 8 24 = 16 := by
    decide
  rw [OffsetChange.ofSightings, hfields]
  simp [OffsetChange.ofField?, sighting, Sighting.isChanged, Ordered.best?, hnear,
    Ordered.dropRepeats]

/-- The changes of the report, their labels aside. -/
theorem exists_changes : ∃ first second third,
    (ScanReport.ofSightings Disputed.binary.identifier Disputed.binary.hash "" sightings).changes =
      [⟨"Foo", "a", 0, 8, 8, 85, first, []⟩, ⟨"Bar", "b", 8, 16, 8, 85, second, []⟩,
        ⟨"Foo", "c", 8, 24, 16, 85, third, []⟩] := by
  rw [ScanReport.ofSightings, ofSightings_sightings]
  exact ⟨_, _, _, rfl⟩

/-- Two fields of different structs moved by 8 bytes and share a shift, which has the third field
as a candidate; that one moved by 16 bytes, alone. -/
theorem two_of_three_share : ∃ r, Disputed.binary.scan [signatures] "" = .ok r ∧
    (∃ g, r.shifts.filter (·.delta = 8) = [g] ∧ g.matchCount = 2 ∧ g.totalCandidates = 3 ∧
      g.fields = ["Foo::a", "Bar::b"] ∧ "Foo" ∈ g.structs ∧ "Bar" ∈ g.structs) ∧
    r.shifts.filter (·.delta = 16) = [] ∧
    r.changes.map (·.label) = [some "delta +0x8", some "delta +0x8", none] := by
  obtain ⟨hshifts, hlabels, -⟩ := Binary.shifts_of_scan scan_signatures
  obtain ⟨first, second, third, hchanges⟩ := exists_changes
  refine ⟨_, scan_signatures, ?_, ?_, ?_⟩
  · obtain ⟨g, hg, hdelta, hgathers⟩ := (hshifts 8).1 (by simp [hchanges])
    have hcount : g.matchCount = 2 := by simp [hgathers.matchCount_eq, hdelta, hchanges]
    have hfoo : "Foo" ∈ g.structs := by simp [hgathers.mem_structs, hdelta, hchanges]
    have hbar : "Bar" ∈ g.structs := by simp [hgathers.mem_structs, hdelta, hchanges]
    refine ⟨g, hg, hcount, ?_, ?_, hfoo, hbar⟩
    · simp [hgathers.totalCandidates_eq, hcount, hdelta, hchanges, hfoo]
    · simp [hgathers.fields_eq, hdelta, hchanges, OffsetChange.qualified]
  · exact (hshifts 16).2 (by simp [hchanges])
  · have htext : "delta " ++ Delta.text 8 = "delta +0x8" := by decide +kernel
    rw [hchanges] at hlabels ⊢
    have heach : first = some "delta +0x8" ∧ second = some "delta +0x8" ∧ third = none := by
      simpa [htext] using hlabels
    simp [heach]

end Gathered

end LayoutWatch
