import LayoutWatch.Codec.Image
import LayoutWatch.Proofs.Json.Record

/-!
# Patterns are stored as two lists

A pattern is stored as its bytes and as the marks of those that are compared. The lists are as long
as each other, and a byte that is not compared is zero; all other lists are the stored form of no
pattern. The pattern is got back from its stored form, and from the text of this.
-/

namespace LayoutWatch.Pattern

open Json

variable {s : Stored}

/-- The lists fit together as those of a pattern do. -/
structure Stored.Fits (s : Stored) : Prop where
  /-- Every byte has a mark. -/
  length_eq : s.bytes.length = s.mask.length
  /-- A byte that is not compared is zero. -/
  eq_zero : ∀ cell ∈ s.bytes.zip s.mask, cell.2 = false → cell.1 = 0

/-- The lists of a pattern fit together. -/
theorem fits_stored (p : Pattern) : p.stored.Fits where
  length_eq := by rw [stored, List.length_map, List.length_map]
  eq_zero cell hcell hopen := by
    rw [stored, List.zip_map', List.mem_map] at hcell
    obtain ⟨c, -, rfl⟩ := hcell
    cases c with
    | fixed byte => cases hopen
    | wildcard => rfl

/-- A pattern is got back from its stored form. -/
@[simp] theorem pattern_stored (p : Pattern) : p.stored.pattern = p := by
  rw [Stored.pattern, stored]
  induction p with
  | nil => rfl
  | cons c p ih =>
    rw [List.map_cons, List.map_cons, List.zipWith_cons_cons, ih]
    cases c <;> rfl

/-- Lists that fit together are the stored form of their pattern. -/
theorem Stored.Fits.stored_pattern (h : s.Fits) : s.pattern.stored = s := by
  obtain ⟨bytes, mask⟩ := s
  obtain ⟨hlength, hzero⟩ := h
  rw [Stored.pattern, stored, Stored.mk.injEq]
  dsimp only at hlength hzero ⊢
  induction bytes generalizing mask with
  | nil =>
    rw [List.eq_nil_of_length_eq_zero hlength.symm]
    exact ⟨rfl, rfl⟩
  | cons byte bytes ih =>
    obtain ⟨mark, mask, rfl⟩ := List.exists_cons_of_length_eq_add_one hlength.symm
    rw [List.zip_cons_cons, List.forall_mem_cons] at hzero
    obtain ⟨hbytes, hmask⟩ := ih mask (Nat.succ.inj hlength) hzero.2
    rw [List.zipWith_cons_cons, List.map_cons, List.map_cons, hbytes, hmask]
    cases mark with
    | true => exact ⟨rfl, rfl⟩
    | false =>
      have hbyte : byte = 0 := hzero.1 rfl
      rw [hbyte]
      exact ⟨rfl, rfl⟩

/-- Lists are the stored form of a pattern exactly when they fit together. -/
theorem exists_stored_eq_iff : (∃ p : Pattern, p.stored = s) ↔ s.Fits := by
  constructor
  · rintro ⟨p, rfl⟩
    exact p.fits_stored
  · exact fun h => ⟨s.pattern, h.stored_pattern⟩

/-! ## Texts -/

namespace Stored

/-- The members of a written pattern. -/
def entries (s : Stored) : List Entry := [
  ("bytes", some (ofList (fun byte => ofNat byte.toNat) s.bytes)),
  ("mask", some (ofList ofBool s.mask))]

/-- A stored form is written from its entries. -/
theorem toValue_eq (s : Stored) : s.toValue = ofEntries s.entries := rfl

/-- A written pattern is read back. -/
@[simp] theorem ofValue?_toValue (s : Stored) : ofValue? s.toValue = some s := by
  rw [ofValue?, toValue_eq]
  refine bind_ofTree? rfl (by decide) fun r h => ?_
  rw [h.required rfl (list?_ofList fun byte _ => word8?_ofNat byte),
    h.required rfl (list?_ofList fun mark _ => bool?_ofBool mark)]
  rfl

/-- A stored form is built for writing. -/
theorem written_toValue (s : Stored) : Written s.toValue := by
  have hbytes : Written (ofList (fun byte : UInt8 => ofNat byte.toNat) s.bytes) :=
    .ofList fun byte _ => .word8 byte
  have hmask : Written (ofList ofBool s.mask) := .ofList fun mark _ => .bool mark
  rw [toValue_eq]
  refine written_ofEntries ?_
  simp [entries, hbytes, hmask]

end Stored

/-- A pattern is got back from the text of its stored form. -/
theorem map_pattern_parse? (p : Pattern) :
    ((Json.parse? (pretty p.stored.toValue).toList).bind Stored.ofValue?).map Stored.pattern =
      some p := by
  simp [parse?_pretty p.stored.written_toValue]

end LayoutWatch.Pattern
