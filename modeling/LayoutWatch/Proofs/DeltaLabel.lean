import LayoutWatch.Proofs.SharedShift

/-!
# Labels and their deltas

A delta is written with its sign and in lower-case digits, and it can be read again from that text.
So no two deltas have one text. The label of a shared shift is made from the text of its delta, and
two labelled changes of a report have one label exactly when they moved by one delta.
-/

namespace LayoutWatch

/-! ## Reading hexadecimal digits -/

namespace Text

/-- A digit below ten or a letter from `a` to `f`. -/
def isLowerHex (c : Char) : Bool := c.isDigit || ('a' ≤ c && c ≤ 'f')

/-- The number that lower-case hexadecimal digits stand for. -/
def lowerHex? (digits : List Char) : Option Nat :=
  if digits.all isLowerHex then numeral? 16 digits else none

/-- The digit of a number is read as the number and is in lower case. -/
theorem hexValue?_digitChar {d : Nat} (hd : d < 16) :
    hexValue? d.digitChar = some d ∧ isLowerHex d.digitChar = true := by
  revert d
  decide

/-- One more digit behind the others adds its value to sixteen times theirs. -/
theorem lowerHex?_concat {digits : List Char} {value d : Nat} (h : lowerHex? digits = some value)
    (hd : d < 16) : lowerHex? (digits ++ [d.digitChar]) = some (value * 16 + d) := by
  obtain ⟨hvalue, hlower⟩ := hexValue?_digitChar hd
  rw [lowerHex?, Option.ite_none_right_eq_some, numeral?, Option.ite_none_left_eq_some] at h
  obtain ⟨hall, -, hread⟩ := h
  rw [lowerHex?, if_pos (by simpa [hlower] using hall), numeral?, if_neg (by simp),
    List.foldl_append, hread]
  simp [hvalue, hd]

/-- The digits of a number are read as the number. -/
@[simp] theorem lowerHex?_toDigits (n : Nat) : lowerHex? (Nat.toDigits 16 n) = some n := by
  induction n using Nat.strongRecOn with
  | ind n ih =>
    by_cases hsmall : n < 16
    · obtain ⟨hvalue, hlower⟩ := hexValue?_digitChar hsmall
      rw [Nat.toDigits_of_lt_base hsmall]
      simp [lowerHex?, numeral?, hvalue, hlower, hsmall]
    · rw [Nat.toDigits_of_base_le (by decide) (by omega),
        lowerHex?_concat (ih (n / 16) (by omega)) (Nat.mod_lt n (by decide))]
      exact congrArg some (by omega)

end Text

/-! ## Reading deltas -/

namespace Delta

/-- The delta that a text gives by a sign, the mark of hexadecimal digits and such digits in lower
case. -/
def ofText? (text : String) : Option Int :=
  match text.toList with
  | '-' :: '0' :: 'x' :: digits => (Text.lowerHex? digits).map fun n : Nat => -(n : Int)
  | '+' :: '0' :: 'x' :: digits => (Text.lowerHex? digits).map Int.ofNat
  | _ => none

/-- The characters of the text of a delta. -/
theorem toList_text (delta : Int) : (text delta).toList =
    (if delta < 0 then '-' else '+') :: '0' :: 'x' :: Nat.toDigits 16 delta.natAbs := by
  rw [text, Text.hex, Text.hexDigits]
  split <;> simp

/-- A delta is read from its text. -/
@[simp] theorem ofText?_text (delta : Int) : ofText? (text delta) = some delta := by
  rw [ofText?, toList_text]
  by_cases hneg : delta < 0
  · rw [if_pos hneg]
    change (Text.lowerHex? (Nat.toDigits 16 delta.natAbs)).map (fun n : Nat => -(n : Int)) = _
    rw [Text.lowerHex?_toDigits, Option.map_some]
    exact congrArg some (by omega)
  · rw [if_neg hneg]
    change (Text.lowerHex? (Nat.toDigits 16 delta.natAbs)).map Int.ofNat = _
    rw [Text.lowerHex?_toDigits, Option.map_some]
    exact congrArg some (Int.natAbs_of_nonneg (Int.not_lt.mp hneg))

/-- No two deltas have one text. -/
@[simp] theorem text_inj {delta other : Int} : text delta = text other ↔ delta = other := by
  refine ⟨fun h => ?_, congrArg text⟩
  have hread := congrArg ofText? h
  simpa using hread

end Delta

/-- Labels are told apart by their deltas. -/
@[simp] theorem SharedShift.labelOf_inj {delta other : Int} :
    labelOf delta = labelOf other ↔ delta = other := by
  simp [labelOf, String.append_right_inj]

namespace ScanReport

variable {identifier hash scannedAt : String} {sightings : List Sighting} {r : ScanReport}
  {c : OffsetChange}

/-- The label of a change is that of its own delta. -/
theorem eq_labelOf (hr : r = ofSightings identifier hash scannedAt sightings) (hc : c ∈ r.changes)
    {label : String} (hlabel : c.label = some label) : label = SharedShift.labelOf c.delta := by
  rw [label_of_mem_changes hr hc, Option.ite_none_right_eq_some] at hlabel
  exact (Option.some.inj hlabel.2).symm

/-- A change of a report moved by the delta between its two offsets. -/
theorem delta_eq_between (hr : r = ofSightings identifier hash scannedAt sightings)
    (hc : c ∈ r.changes) : c.delta = Delta.between c.declaredOffset c.observedOffset := by
  subst hr
  exact (shift_delta_of_mem_changes c hc).symm

end ScanReport

/-- The delta between two offsets is the nearest one to their difference, so it is zero only for
equal offsets, has the sign of the difference and follows both offsets. It is read again from its
text, so the labels of a report tell its changes apart by their deltas and by nothing else. -/
theorem Binary.labels_tell_deltas :
    (∀ old new : UInt64,
      Delta.between old new = max (-2 ^ 63) (min (2 ^ 63 - 1) ((new.toNat : Int) - old.toNat)) ∧
      (Delta.between old new = 0 ↔ old = new) ∧
      (Delta.between old new).sign = ((new.toNat : Int) - old.toNat).sign) ∧
    (∀ old new later : UInt64, new ≤ later → Delta.between old new ≤ Delta.between old later) ∧
    (∀ old later new : UInt64, old ≤ later → Delta.between later new ≤ Delta.between old new) ∧
    (∀ delta : Int, Delta.ofText? (Delta.text delta) = some delta) ∧
    (∀ delta other : Int, Delta.text delta = Delta.text other ↔ delta = other) ∧
    ∀ (b : Binary) (sets : List SignatureSet) (scannedAt : String) (r : ScanReport),
      b.scan sets scannedAt = .ok r → ∀ c ∈ r.changes,
        c.delta = Delta.between c.declaredOffset c.observedOffset ∧
        ∀ c' ∈ r.changes, ∀ label label', c.label = some label → c'.label = some label' →
          (label = label' ↔ c.delta = c'.delta) := by
  refine ⟨fun old new => ⟨Delta.between_eq_clamp old new, Delta.between_eq_zero_iff,
    Delta.sign_between old new⟩, fun old _ _ h => Delta.between_le_between_right h old,
    fun _ _ new h => Delta.between_le_between_left h new, Delta.ofText?_text,
    fun _ _ => Delta.text_inj, ?_⟩
  intro b sets scannedAt r hscan c hc
  obtain ⟨sightings, hr, -⟩ := sightings_of_scan hscan
  refine ⟨ScanReport.delta_eq_between hr hc, ?_⟩
  intro c' hc' label label' hlabel hlabel'
  rw [ScanReport.eq_labelOf hr hc hlabel, ScanReport.eq_labelOf hr hc' hlabel',
    SharedShift.labelOf_inj]

namespace Held

/-- Two fields are expected at the last offsets that there are. -/
def signatures : SignatureSet :=
  ⟨"Foo", "", none, SignatureSet.currentFormat, "",
    [Gathered.signature "Foo" "a" 0xFFFFFFFFFFFFFFFF 0x8B,
      Gathered.signature "Bar" "b" 0xFFFFFFFFFFFFFFFE 0x89]⟩

/-- The two fields as they are seen. -/
def sightings : List Sighting :=
  [Gathered.sighting "Foo" "a" 0xFFFFFFFFFFFFFFFF 160 8,
    Gathered.sighting "Bar" "b" 0xFFFFFFFFFFFFFFFE 167 16]

/-- Each field is seen once. -/
theorem scan_signatures : Disputed.binary.scan [signatures] "" = .ok
    (ScanReport.ofSightings Disputed.binary.identifier Disputed.binary.hash "" sightings) := by
  refine Binary.scan_eq (Binary.validImage_ofCode (by decide)) (mapM_eq_ok_iff.mpr ?_) ""
  refine .cons ?_ (.cons ?_ .nil) <;>
    exact (Gathered.sightValid_signature _ _ _ _).trans (congrArg Except.ok (by decide +kernel))

/-- Each field has changed, and each delta is held at the least one. -/
theorem ofSightings_sightings : OffsetChange.ofSightings sightings =
    [⟨"Foo", "a", 0xFFFFFFFFFFFFFFFF, 8, Delta.least, 85, none, []⟩,
      ⟨"Bar", "b", 0xFFFFFFFFFFFFFFFE, 16, Delta.least, 85, none, []⟩] := by
  have hfields : OffsetChange.byField sightings =
      [(("Foo", "a"), [Gathered.sighting "Foo" "a" 0xFFFFFFFFFFFFFFFF 160 8]),
        (("Bar", "b"), [Gathered.sighting "Bar" "b" 0xFFFFFFFFFFFFFFFE 167 16])] := by
    simp [OffsetChange.byField, Ordered.collect, List.eraseDups_cons, sightings, Gathered.sighting]
  have hfar : Delta.between 0xFFFFFFFFFFFFFFFF 8 = Delta.least ∧
      Delta.between 0xFFFFFFFFFFFFFFFE 16 = Delta.least := by decide
  rw [OffsetChange.ofSightings, hfields]
  simp [OffsetChange.ofField?, Gathered.sighting, Sighting.isChanged, Ordered.best?, hfar,
    Ordered.dropRepeats]

/-- The changes of the report, their labels aside. -/
theorem exists_changes : ∃ first second,
    (ScanReport.ofSightings Disputed.binary.identifier Disputed.binary.hash "" sightings).changes =
      [⟨"Foo", "a", 0xFFFFFFFFFFFFFFFF, 8, Delta.least, 85, first, []⟩,
        ⟨"Bar", "b", 0xFFFFFFFFFFFFFFFE, 16, Delta.least, 85, second, []⟩] := by
  rw [ScanReport.ofSightings, ofSightings_sightings]
  exact ⟨_, _, rfl⟩

/-- Two fields moved by different distances, of which neither is a delta. Both deltas are held at
the least one, and so both changes carry its label. -/
theorem two_share_label :
    ((8 : UInt64) ≤ 16 ∧ Delta.between 0xFFFFFFFFFFFFFFFF 8 ≤ Delta.between 0xFFFFFFFFFFFFFFFF 16) ∧
    ((8 : UInt64) ≤ 16 ∧ Delta.between 16 0 ≤ Delta.between 8 0) ∧
    ∃ r, Disputed.binary.scan [signatures] "" = .ok r ∧ ∃ c ∈ r.changes, ∃ c' ∈ r.changes,
      c.declaredOffset = 0xFFFFFFFFFFFFFFFF ∧ c.observedOffset = 8 ∧
      c'.declaredOffset = 0xFFFFFFFFFFFFFFFE ∧ c'.observedOffset = 16 ∧
      c.label = some "delta -0x8000000000000000" ∧ c'.label = some "delta -0x8000000000000000" ∧
      c.delta = c'.delta := by
  obtain ⟨-, hlater, hearlier, -, -, htold⟩ := Binary.labels_tell_deltas
  refine ⟨⟨by decide, hlater _ _ _ (by decide)⟩, ⟨by decide, hearlier _ _ _ (by decide)⟩, ?_⟩
  obtain ⟨first, second, hchanges⟩ := exists_changes
  have htext : SharedShift.labelOf Delta.least = "delta -0x8000000000000000" := by decide +kernel
  have hlabels : ∀ c ∈ (ScanReport.ofSightings Disputed.binary.identifier Disputed.binary.hash ""
      sightings).changes, c.label = some "delta -0x8000000000000000" := by
    intro c hc
    rw [ScanReport.label_of_mem_changes rfl hc]
    rw [hchanges] at hc ⊢
    have hdelta : c.delta = Delta.least := by
      rcases List.mem_pair.mp hc with rfl | rfl <;> rfl
    simp [hdelta, htext, ShiftGroup.leastSize]
  have hfirst := hchanges ▸ List.mem_cons_self
  have hsecond := hchanges ▸ List.mem_cons_of_mem _ List.mem_cons_self
  exact ⟨_, scan_signatures, _, hfirst, _, hsecond, rfl, rfl, rfl, rfl, hlabels _ hfirst,
    hlabels _ hsecond, ((htold _ _ _ _ scan_signatures _ hfirst).2 _ hsecond _ _
      (hlabels _ hfirst) (hlabels _ hsecond)).mp rfl⟩

end Held

end LayoutWatch
