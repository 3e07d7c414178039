import LayoutWatch.Image
import LayoutWatch.Proofs.DistinctSites
import Mathlib.Data.List.Pairwise

/-!
# Addresses and places in the file

A section pairs the addresses at which it is mapped with the places at which it stands in the file.
Each of the two translations goes through the sections in the order of the table and takes the first
one that answers, and the two ask for different things: an address has to lie in the mapped part, a
place need not. Where the sections share neither places nor addresses, one translation undoes the
other for the addresses that are mapped.
-/

namespace LayoutWatch

/-- A search takes what the only element answers, where no two elements of the list answer. -/
theorem findSome?_eq_some_iff_of_pairwise {α β : Type} {f : α → Option β} {l : List α} {b : β}
    (h : l.Pairwise fun x y => f x = none ∨ f y = none) :
    l.findSome? f = some b ↔ ∃ a ∈ l, f a = some b := by
  induction l with
  | nil => simp
  | cons x rest ih =>
    obtain ⟨hhead, htail⟩ := List.pairwise_cons.mp h
    cases hx : f x with
    | none =>
      rw [List.findSome?_cons_of_isNone (by rw [hx]; rfl), ih htail]
      simp [hx]
    | some c =>
      have hrest : ∀ a ∈ rest, f a ≠ some b := by
        intro a ha hsome
        have hnone := (hhead a ha).resolve_left (by rw [hx]; exact Option.some_ne_none c)
        rw [hnone] at hsome
        cases hsome
      rw [List.findSome?_cons_of_isSome (by rw [hx]; rfl)]
      constructor
      · intro hfirst
        exact ⟨x, List.mem_cons_self, hfirst⟩
      · intro hsome
        obtain ⟨a, ha, hvalue⟩ := hsome
        rcases List.mem_cons.mp ha with rfl | ha
        · exact hvalue
        · exact absurd hvalue (hrest a ha)

namespace Window

/-- Two windows meet exactly when the later start lies before the earlier stop. -/
theorem meets_iff {v w : Window} : v.Meets w ↔ max v.start w.start < min v.stop w.stop := by
  constructor
  · intro hmeets
    obtain ⟨offset, hv, hw⟩ := hmeets
    have hinside := Window.contains_iff.mp hv
    have hother := Window.contains_iff.mp hw
    omega
  · intro hlt
    exact ⟨max v.start w.start, Window.contains_iff.mpr (by omega),
      Window.contains_iff.mpr (by omega)⟩

/-- It can be checked whether two windows meet. -/
instance decidableMeets (v w : Window) : Decidable (v.Meets w) :=
  decidable_of_iff (max v.start w.start < min v.stop w.stop) meets_iff.symm

/-- Windows meet in either order. -/
theorem Meets.symm {v w : Window} (h : v.Meets w) : w.Meets v := by
  obtain ⟨offset, hv, hw⟩ := h
  exact ⟨offset, hw, hv⟩

end Window

namespace Section

/-- The places in the file that the section claims. The file may end before. -/
def rawWindow (s : Section) : Window :=
  ⟨s.rawAddress.toNat, s.rawAddress.toNat + s.rawSize.toNat⟩

/-- The addresses at which the section is mapped. They may lie beyond the last address. -/
def mappedWindow (s : Section) : Window :=
  ⟨s.virtualAddress.toNat, s.virtualAddress.toNat + s.mappedSize.toNat⟩

/-- The section pairs an address with a place: the place is one of its own, and both are as far
from where the section begins. -/
structure Pairs (s : Section) (address offset : UInt32) : Prop where
  /-- The place lies in the section. -/
  claimed : s.rawWindow.contains offset.toNat = true
  /-- Address and place are equally far inside. -/
  aligned : s.virtualAddress.toNat + offset.toNat = s.rawAddress.toNat + address.toNat

/-- What a section answers when it is asked for the place of an address. -/
def offsetOf? (s : Section) (address : UInt32) : Option UInt32 :=
  if s.virtualAddress ≤ address
      ∧ address - s.virtualAddress < s.mappedSize ∧ address - s.virtualAddress < s.rawSize
      ∧ s.rawAddress.toNat + (address - s.virtualAddress).toNat < UInt32.size then
    some (s.rawAddress + (address - s.virtualAddress))
  else none

/-- What a section answers when it is asked for the address of a place. -/
def addressOf? (s : Section) (offset : UInt32) : Option UInt32 :=
  if s.rawAddress ≤ offset ∧ offset - s.rawAddress < s.rawSize
      ∧ s.virtualAddress.toNat + (offset - s.rawAddress).toNat < UInt32.size then
    some (s.virtualAddress + (offset - s.rawAddress))
  else none

/-- A word lies within a limit behind a base exactly when its value does. -/
theorem within_iff {base limit x : UInt32} : base ≤ x ∧ x - base < limit ↔
    base.toNat ≤ x.toNat ∧ x.toNat < base.toNat + limit.toNat := by
  rw [UInt32.le_iff_toNat_le, UInt32.lt_iff_toNat_lt]
  refine and_congr_right fun hle => ?_
  have hdistance : (x - base).toNat = x.toNat - base.toNat :=
    UInt32.toNat_sub_of_le _ _ (UInt32.le_iff_toNat_le.mpr hle)
  omega

/-- A word is moved to another base without leaving the words exactly when its value is. -/
theorem moved_iff {base target x y : UInt32} (hle : base ≤ x) :
    target.toNat + (x - base).toNat < UInt32.size ∧ target + (x - base) = y ↔
      target.toNat + x.toNat = base.toNat + y.toNat := by
  have hbase : base.toNat ≤ x.toNat := UInt32.le_iff_toNat_le.mp hle
  have hdistance : (x - base).toNat = x.toNat - base.toNat := UInt32.toNat_sub_of_le _ _ hle
  have hy : y.toNat < UInt32.size := y.toNat_lt
  rw [← UInt32.toNat_inj, UInt32.toNat_add, hdistance]
  simp only [UInt32.size] at hy ⊢
  omega

variable {s : Section} {address offset : UInt32}

/-- A section answers with the address that it pairs with the place. -/
theorem addressOf?_eq_some_iff : s.addressOf? offset = some address ↔ s.Pairs address offset := by
  rw [addressOf?, Option.ite_none_right_eq_some, Option.some.injEq]
  constructor
  · intro h
    obtain ⟨⟨hle, hraw, hfits⟩, hmoved⟩ := h
    exact ⟨Window.contains_iff.mpr (within_iff.mp ⟨hle, hraw⟩), (moved_iff hle).mp ⟨hfits, hmoved⟩⟩
  · intro h
    obtain ⟨hle, hraw⟩ := within_iff.mpr (Window.contains_iff.mp h.claimed)
    obtain ⟨hfits, hmoved⟩ := (moved_iff hle).mpr h.aligned
    exact ⟨⟨hle, hraw, hfits⟩, hmoved⟩

/-- A section answers with the place that it pairs with the address, if the address is mapped. -/
theorem offsetOf?_eq_some_iff : s.offsetOf? address = some offset ↔
    s.Pairs address offset ∧ s.mappedWindow.contains address.toNat = true := by
  rw [offsetOf?, Option.ite_none_right_eq_some, Option.some.injEq, Window.contains_iff]
  constructor
  · intro h
    obtain ⟨⟨hle, hmapped, hraw, hfits⟩, hmoved⟩ := h
    have haligned := (moved_iff hle).mp ⟨hfits, hmoved⟩
    have hinside := within_iff.mp ⟨hle, hraw⟩
    have hclaimed : s.rawAddress.toNat ≤ offset.toNat ∧
        offset.toNat < s.rawAddress.toNat + s.rawSize.toNat := by omega
    exact ⟨⟨Window.contains_iff.mpr hclaimed, haligned.symm⟩, within_iff.mp ⟨hle, hmapped⟩⟩
  · intro h
    obtain ⟨hpairs, hmapped⟩ := h
    have haligned := hpairs.aligned
    have hclaimed : s.rawAddress.toNat ≤ offset.toNat ∧
        offset.toNat < s.rawAddress.toNat + s.rawSize.toNat := Window.contains_iff.mp hpairs.claimed
    have hinside : s.virtualAddress.toNat ≤ address.toNat ∧
        address.toNat < s.virtualAddress.toNat + s.rawSize.toNat := by omega
    obtain ⟨hle, hlimit⟩ := within_iff.mpr hmapped
    obtain ⟨-, hraw⟩ := within_iff.mpr hinside
    obtain ⟨hfits, hmoved⟩ := (moved_iff hle).mpr haligned.symm
    exact ⟨⟨hle, hlimit, hraw, hfits⟩, hmoved⟩

end Section

namespace Image

variable {image : Image}

/-- No two sections claim a common place in the file, and no two are mapped at a common address. -/
structure DisjointSections (image : Image) : Prop where
  /-- No place is claimed twice. -/
  raw : image.sections.Pairwise fun s t => ¬s.rawWindow.Meets t.rawWindow
  /-- No address is mapped twice. -/
  mapped : image.sections.Pairwise fun s t => ¬s.mappedWindow.Meets t.mappedWindow

/-- The sections are asked for the place of an address one after the other. -/
theorem offsetOfAddress?_eq (image : Image) (address : UInt32) :
    image.offsetOfAddress? address = image.sections.findSome? (·.offsetOf? address) := rfl

/-- The sections are asked for the address of a place one after the other. -/
theorem addressOfOffset?_eq (image : Image) (offset : UInt32) :
    image.addressOfOffset? offset = image.sections.findSome? (·.addressOf? offset) := rfl

/-- Where sections answer only for what lies in their windows, and the windows do not meet, the
first answer is the only one. -/
theorem findSome?_answer_iff (answer : Section → UInt32 → Option UInt32)
    (window : Section → Window) {sections : List Section}
    (hinside : ∀ s x y, answer s x = some y → (window s).contains x.toNat = true)
    (hapart : sections.Pairwise fun s t => ¬(window s).Meets (window t)) (x y : UInt32) :
    sections.findSome? (answer · x) = some y ↔ ∃ s ∈ sections, answer s x = some y := by
  refine findSome?_eq_some_iff_of_pairwise (hapart.imp fun {s t} hunmet => ?_)
  cases hs : answer s x with
  | none => exact .inl rfl
  | some first =>
    cases ht : answer t x with
    | none => exact .inr rfl
    | some second => exact absurd ⟨x.toNat, hinside s x first hs, hinside t x second ht⟩ hunmet

/-- A place is claimed by one section only. -/
theorem DisjointSections.eq_of_claimed (h : image.DisjointSections) {s t : Section}
    (hs : s ∈ image.sections) (ht : t ∈ image.sections) {place : Nat}
    (hclaimed : s.rawWindow.contains place = true)
    (hclaimed' : t.rawWindow.contains place = true) : s = t := by
  by_contra hne
  have hsymm : Std.Symm fun s t : Section => ¬s.rawWindow.Meets t.rawWindow :=
    ⟨fun _ _ hapart hmeets => hapart hmeets.symm⟩
  exact h.raw.forall hs ht hne ⟨place, hclaimed, hclaimed'⟩

/-- Where the sections are disjoint, an address is translated to a place exactly when the place is
translated back to it and the address lies in the mapped part of the section that claims the
place. -/
theorem offsetOfAddress?_eq_some_iff (h : image.DisjointSections) (address offset : UInt32) :
    image.offsetOfAddress? address = some offset ↔
      image.addressOfOffset? offset = some address ∧
        ∃ s ∈ image.sections, s.rawWindow.contains offset.toNat = true ∧
          s.mappedWindow.contains address.toNat = true := by
  have hoffset : image.sections.findSome? (·.offsetOf? address) = some offset ↔
      ∃ s ∈ image.sections, s.offsetOf? address = some offset :=
    findSome?_answer_iff Section.offsetOf? Section.mappedWindow
      (fun _ _ _ hs => (Section.offsetOf?_eq_some_iff.mp hs).2) h.mapped address offset
  have haddress : image.sections.findSome? (·.addressOf? offset) = some address ↔
      ∃ s ∈ image.sections, s.addressOf? offset = some address :=
    findSome?_answer_iff Section.addressOf? Section.rawWindow
      (fun _ _ _ hs => (Section.addressOf?_eq_some_iff.mp hs).claimed) h.raw offset address
  rw [offsetOfAddress?_eq, addressOfOffset?_eq, hoffset, haddress]
  simp only [Section.offsetOf?_eq_some_iff, Section.addressOf?_eq_some_iff]
  constructor
  · intro htranslated
    obtain ⟨s, hs, hpairs, hmapped⟩ := htranslated
    exact ⟨⟨s, hs, hpairs⟩, s, hs, hpairs.claimed, hmapped⟩
  · intro htranslated
    obtain ⟨⟨s, hs, hpairs⟩, t, ht, hclaimed, hmapped⟩ := htranslated
    -- The section that answers for the place is the one that claims it.
    obtain rfl := h.eq_of_claimed hs ht hpairs.claimed hclaimed
    exact ⟨s, hs, hpairs, hmapped⟩

/-- A section with padding behind its mapped part, one without a size of its own once mapped, one
that has no place in the file, and one that reaches beyond the last address. -/
def unevenImage : Image where
  valid := true
  fault := none
  wide := true
  machine := amd64
  imageBase := 0
  entryPoint := 0
  sections := [
    ⟨".text", 0x1000, 0x180, 0x400, 0x200, 0x20⟩,
    ⟨".data", 0x2000, 0, 0x600, 0x200, 0⟩,
    ⟨".bss", 0x3000, 0x1000, 0, 0, 0⟩,
    ⟨".last", 0xFFFFF000, 0x2000, 0x800, 0x2000, 0⟩]

/-- In the last section and in the one without a size an address is translated to its place. The
padding is translated to addresses, but none of them back to it. -/
theorem offsetOfAddress?_eq_some_iff_uneven :
    unevenImage.DisjointSections ∧
      unevenImage.offsetOfAddress? 0xFFFFF800 = some 0x1000 ∧
      unevenImage.offsetOfAddress? 0x21FF = some 0x7FF ∧
      unevenImage.addressOfOffset? 0x5C0 = some 0x11C0 ∧
      unevenImage.offsetOfAddress? 0x11C0 ≠ some 0x5C0 := by
  have hdisjoint : unevenImage.DisjointSections := ⟨by decide, by decide⟩
  have hiff := offsetOfAddress?_eq_some_iff hdisjoint
  exact ⟨hdisjoint, (hiff _ _).mpr (by decide), (hiff _ _).mpr (by decide), by decide,
    fun hpadding => absurd ((hiff _ _).mp hpadding).2 (by decide)⟩

end Image

end LayoutWatch
