import LayoutWatch.Proofs.Access
import LayoutWatch.Proofs.Ordered

/-!
# The index of accesses and the search for their instructions

The index decodes what stands at an offset, the search compares it with a pattern of fixed bytes.
Both accept the same offsets: under a displacement the index lists, section by section and
ascending, the offsets at which one of the recognised instructions with this displacement is found.
-/

namespace LayoutWatch

namespace Access

/-- The operation bytes that are recognised, each with what it does with the field. -/
def operations : List (UInt8 × Kind) := [(0x8B, .load), (0x89, .store), (0x8D, .address)]

/-- The instruction of this operation, this operand and this displacement. -/
def instruction (operation operand : UInt8) (displacement : Nat) : List UInt8 :=
  [0x48, operation, operand] ++ wordBytes 4 displacement

/-- The two bytes that make an instruction an access of a kind. -/
structure Encodes (kind : Kind) (operation operand : UInt8) : Prop where
  /-- The operation is the one of the kind. -/
  operation_mem : (operation, kind) ∈ operations
  /-- A displacement of four bytes is added to the register. -/
  mode_eq : operand >>> 6 = 0b10
  /-- The register is a base register without an index. -/
  base_ne : operand &&& 0b111 ≠ 0b100

/-- The pattern of an access of this kind with this displacement matches at the offset. -/
def FoundAt (bytes : Bytes) (displacement : Nat) (kind : Kind) (site : Nat) : Prop :=
  ∃ operation operand, Encodes kind operation operand ∧
    (Pattern.ofBytes (instruction operation operand displacement)).matchesAt bytes site = true

/-- The accesses are those with this displacement in one window of the file, as the search finds
them. -/
structure Lists (bytes : Bytes) (displacement : Nat) (w : Window) (accesses : List Access) :
    Prop where
  /-- They are in the order of their offsets. -/
  ascending : accesses.Pairwise fun a b => a.fileOffset < b.fileOffset
  /-- Their offsets are those at which the pattern of some access lies in the window and
  matches. -/
  mem_offsets_iff : ∀ site, site ∈ accesses.map (·.fileOffset) ↔
    w.start ≤ site ∧ site + 7 ≤ w.stop ∧ ∃ kind, FoundAt bytes displacement kind site
  /-- The pattern that matches is one of the kind of the access. -/
  found : ∀ a ∈ accesses, FoundAt bytes displacement a.kind a.fileOffset
  /-- The bytes of the access are those that stand there. -/
  bytes_eq : ∀ a ∈ accesses, bytes.slice? a.fileOffset 7 = some a.bytes
  /-- Its pattern with the displacement left open reads the displacement there. -/
  reads : ∀ a ∈ accesses,
    (Pattern.ofBytesMasked a.bytes ⟨3, 7⟩).displacement? bytes a.fileOffset =
      some (displacement : Int)

/-- An operation byte stands for a kind exactly when it is recognised as that. -/
theorem Kind.ofOperation?_eq_some_iff {operation : UInt8} {kind : Kind} :
    ofOperation? operation = some kind ↔ (operation, kind) ∈ operations := by
  unfold ofOperation? operations
  simp only [List.mem_cons, Prod.mk.injEq, List.not_mem_nil, or_false, beq_iff_eq]
  split
  · next hload => subst hload; simp [eq_comm]
  · next hload =>
    split
    · next hstore => subst hstore; simp [eq_comm]
    · next hstore =>
      split
      · next haddress => subst haddress; simp [eq_comm]
      · next haddress => simp [hload, hstore, haddress]

/-- An instruction is decoded to a kind and a displacement exactly when it is written for them. -/
theorem decode?_eq_some_iff {bytes : List UInt8} {kind : Kind} {displacement : Nat} :
    decode? bytes = some (kind, displacement) ↔ displacement < displacementLimit ∧
      ∃ operation operand, Encodes kind operation operand ∧
        bytes = instruction operation operand displacement := by
  constructor
  · intro h
    obtain ⟨operation, operand, d₀, d₁, d₂, d₃, rfl, rfl, hlimit⟩ := decode?_eq_some h
    simp only [decode?, Option.bind_eq_bind, Option.bind_eq_some_iff, hlimit, and_true,
      Option.ite_none_right_eq_some, Option.some.injEq, Prod.mk.injEq] at h
    obtain ⟨_, hoperation, haddresses, rfl⟩ := h
    simp only [addressesBase, Bool.and_eq_true, beq_iff_eq, bne_iff_ne] at haddresses
    have hword : wordBytes 4 (littleEndian [d₀, d₁, d₂, d₃]) = [d₀, d₁, d₂, d₃] :=
      wordBytes_littleEndian [d₀, d₁, d₂, d₃]
    refine ⟨hlimit, operation, operand,
      ⟨Kind.ofOperation?_eq_some_iff.mp hoperation, haddresses.1, haddresses.2⟩, ?_⟩
    rw [instruction, hword]
    rfl
  · rintro ⟨hlimit, operation, operand, hencodes, rfl⟩
    have haddresses : addressesBase operand = true := by
      simp [addressesBase, hencodes.mode_eq, hencodes.base_ne]
    have hvalue : littleEndian (wordBytes 4 displacement) = displacement := by
      refine littleEndian_wordBytes ?_
      rw [displacementLimit] at hlimit
      have hcount : wordCount 4 = 0x100000000 := rfl
      omega
    simp only [wordBytes] at hvalue
    simp [instruction, wordBytes, decode?, hvalue, haddresses, hlimit,
      Kind.ofOperation?_eq_some_iff.mpr hencodes.operation_mem]

variable {bytes : Bytes} {displacement : Nat}

/-- The access at an offset is decoded with a displacement exactly when its pattern with this
displacement is found there. -/
theorem at?_eq_some_iff_foundAt {a : Access} :
    at? bytes a.fileOffset = some (displacement, a) ↔ displacement < displacementLimit ∧
      FoundAt bytes displacement a.kind a.fileOffset ∧
      bytes.slice? a.fileOffset length = some a.bytes := by
  have hlength : ∀ operation operand,
      (instruction operation operand displacement).length = length := fun _ _ => rfl
  rw [at?_eq_some_iff, decode?_eq_some_iff]
  simp only [FoundAt, Pattern.matchesAt_ofBytes_iff, hlength, true_and]
  constructor
  · rintro ⟨hread, hlimit, operation, operand, hencodes, hbytes⟩
    exact ⟨hlimit, ⟨operation, operand, hencodes, hbytes ▸ hread⟩, hread⟩
  · rintro ⟨hlimit, ⟨operation, operand, hencodes, hread'⟩, hread⟩
    exact ⟨hread, hlimit, operation, operand, hencodes, Option.some.inj (hread.symm.trans hread')⟩

/-- An access is decoded wherever the pattern of one is found. -/
theorem exists_at?_of_foundAt {kind : Kind} {site : Nat} (hlimit : displacement < displacementLimit)
    (h : FoundAt bytes displacement kind site) :
    ∃ a, a.fileOffset = site ∧ at? bytes a.fileOffset = some (displacement, a) := by
  obtain ⟨operation, operand, hencodes, hmatch⟩ := h
  refine ⟨⟨site, kind, instruction operation operand displacement⟩, rfl, ?_⟩
  exact at?_eq_some_iff_foundAt.mpr ⟨hlimit, ⟨operation, operand, hencodes, hmatch⟩,
    Pattern.matchesAt_ofBytes_iff.mp hmatch⟩

/-- The accesses with this displacement that lie inside a window, in the order of the index. -/
def ofWindow (bytes : Bytes) (displacement : Nat) (w : Window) : List Access :=
  (inWindow bytes w).filterMap fun site => if site.1 = displacement then some site.2 else none

/-- The accesses of a window are those inside it that are decoded with the displacement. -/
theorem mem_ofWindow {w : Window} {a : Access} : a ∈ ofWindow bytes displacement w ↔
    w.start ≤ a.fileOffset ∧ a.fileOffset + length ≤ w.stop ∧
      at? bytes a.fileOffset = some (displacement, a) := by
  rw [← mem_inWindow]
  simp [ofWindow]

/-- The index goes through a window upwards. -/
theorem pairwise_ofWindow (bytes : Bytes) (displacement : Nat) (w : Window) :
    (ofWindow bytes displacement w).Pairwise fun a b => a.fileOffset < b.fileOffset := by
  have hsites : (inWindow bytes w).Pairwise fun x y => x.2.fileOffset < y.2.fileOffset := by
    refine List.pairwise_filterMap.mpr ((List.pairwise_lt_range' 1).imp ?_)
    rintro offset offset' hlt ⟨d, a⟩ ha ⟨d', a'⟩ ha'
    rw [(at?_eq_some_iff.mp ha).1, (at?_eq_some_iff.mp ha').1]
    exact hlt
  refine List.pairwise_filterMap.mpr (hsites.imp ?_)
  intro x y hlt a ha a' ha'
  simp only [Option.ite_none_right_eq_some, Option.some.injEq] at ha ha'
  rw [← ha.2, ← ha'.2]
  exact hlt

/-- What the index lists in a window is what the search finds there. -/
theorem lists_ofWindow (hlimit : displacement < displacementLimit) (bytes : Bytes) (w : Window) :
    Lists bytes displacement w (ofWindow bytes displacement w) where
  ascending := pairwise_ofWindow bytes displacement w
  mem_offsets_iff := by
    intro site
    rw [List.mem_map]
    constructor
    · rintro ⟨a, ha, rfl⟩
      obtain ⟨hstart, hstop, hat⟩ := mem_ofWindow.mp ha
      exact ⟨hstart, hstop, a.kind, (at?_eq_some_iff_foundAt.mp hat).2.1⟩
    · rintro ⟨hstart, hstop, kind, hfound⟩
      obtain ⟨a, rfl, hat⟩ := exists_at?_of_foundAt hlimit hfound
      exact ⟨a, mem_ofWindow.mpr ⟨hstart, hstop, hat⟩, rfl⟩
  found := fun a ha => (at?_eq_some_iff_foundAt.mp (mem_ofWindow.mp ha).2.2).2.1
  bytes_eq := fun a ha => (at?_eq_some_iff_foundAt.mp (mem_ofWindow.mp ha).2.2).2.2
  reads := fun a ha => displacement?_pattern_self (mem_ofWindow.mp ha).2.2

end Access

namespace AccessIndex

open Access

/-- A displacement is looked up in one window after the other. -/
theorem lookup_build_eq_flatMap (image : Image) (bytes : Bytes) (displacement : Nat) :
    (build image bytes).lookup displacement =
      (image.executableWindows bytes.size).flatMap (ofWindow bytes displacement) := by
  rw [lookup, build, List.filterMap_flatMap]
  rfl

/-- No access has a displacement at the limit or beyond. -/
theorem lookup_build_of_le {image : Image} {bytes : Bytes} {displacement : Nat}
    (h : displacementLimit ≤ displacement) : (build image bytes).lookup displacement = [] := by
  refine List.eq_nil_iff_forall_not_mem.mpr fun a ha => ?_
  obtain ⟨_, -, -, -, hat⟩ := mem_lookup_build.mp ha
  exact Nat.not_lt.mpr h (at?_eq_some_iff_foundAt.mp hat).1

/-- The accesses of a displacement are the values that the index has under it. -/
theorem lookup_eq_valuesOf (index : AccessIndex) (displacement : Nat) :
    index.lookup displacement = Ordered.valuesOf index.sites displacement := by
  simp [lookup, Ordered.valuesOf]

/-- The lists of all displacements below the limit make up the index. -/
theorem sum_length_lookup (image : Image) (bytes : Bytes) :
    ((List.range displacementLimit).map fun d => ((build image bytes).lookup d).length).sum =
      (build image bytes).sites.length := by
  have hbelow : ∀ site ∈ (build image bytes).sites, site.1 ∈ List.range displacementLimit := by
    intro site hsite
    obtain ⟨w, -, hw⟩ := List.mem_flatMap.mp hsite
    have hat := (mem_inWindow.mp hw).2.2
    exact List.mem_range.mpr (at?_eq_some_iff_foundAt.mp hat).1
  simp only [lookup_eq_valuesOf]
  exact Ordered.sum_length_valuesOf List.nodup_range hbelow

/-- The index lists under each displacement below the limit what the search finds in one executable
section after the other, and nothing under any other. So all its entries are counted when its lists
are. -/
theorem lookup_agrees_with_search (image : Image) (bytes : Bytes) :
    (∀ displacement < 0x100000, ∃ parts : List (List Access),
      (build image bytes).lookup displacement = parts.flatten ∧
        List.Forall₂ (fun s part => Lists bytes displacement (s.fileWindow bytes.size) part)
          image.executableSections parts) ∧
      (∀ displacement ≥ 0x100000, (build image bytes).lookup displacement = []) ∧
      ∀ top, ((build image bytes).stats top).totalEntries =
        ((List.range 0x100000).map fun d => ((build image bytes).lookup d).length).sum := by
  refine ⟨fun displacement hlimit => ?_, fun displacement hlimit => lookup_build_of_le hlimit,
    fun top => (sum_length_lookup image bytes).symm⟩
  refine ⟨(image.executableWindows bytes.size).map (ofWindow bytes displacement), ?_, ?_⟩
  · rw [lookup_build_eq_flatMap, List.flatMap_def]
  · rw [Image.executableWindows, List.map_map, List.forall₂_map_right_iff, List.forall₂_same]
    exact fun s _ => lists_ofWindow hlimit bytes _

/-- Two executable sections, the second one longer than the file, and one of data in between. -/
def twoSections : Image where
  valid := true
  fault := none
  wide := true
  machine := Image.amd64
  imageBase := 0
  entryPoint := 0
  sections := [⟨".text", 0x1000, 0, 0, 20, 0x20⟩, ⟨".data", 0x2000, 0, 0, 35, 0x40⟩,
    ⟨".more", 0x3000, 0, 14, 0xFFFFFFFF, 0x20000000⟩]

/-- A load from offset 16, a store with an index register, the address of offset 16, and two loads
whose displacements are negative and too large. -/
def mixedCode : Bytes :=
  #[0x48, 0x8B, 0x81, 0x10, 0, 0, 0, 0x48, 0x89, 0x84, 0x10, 0, 0, 0,
    0x48, 0x8D, 0x82, 0x10, 0, 0, 0, 0x48, 0x8B, 0x81, 0xF0, 0xFF, 0xFF, 0xFF,
    0x48, 0x8B, 0x81, 0, 0, 0x10, 0]

/-- The load and the address are all that is listed. The first section ends inside the address,
which is found in the second one. -/
theorem lookup_agrees_in_two_sections :
    ((build twoSections mixedCode).lookup 16).map (·.fileOffset) = [0, 14] ∧
      (∃ parts : List (List Access), (build twoSections mixedCode).lookup 16 = parts.flatten ∧
        List.Forall₂ (fun s part => Lists mixedCode 16 (s.fileWindow mixedCode.size) part)
          twoSections.executableSections parts) ∧
      (build twoSections mixedCode).lookup 0x100000 = [] ∧
      ((List.range 0x100000).map fun d =>
        ((build twoSections mixedCode).lookup d).length).sum = 2 := by
  obtain ⟨hlisted, hbeyond, htotal⟩ := lookup_agrees_with_search twoSections mixedCode
  have hentries : ((build twoSections mixedCode).stats 0).totalEntries = 2 := by decide +kernel
  exact ⟨by decide +kernel, hlisted 16 (by decide), hbeyond 0x100000 (by decide),
    (htotal 0).symm.trans hentries⟩

end AccessIndex

end LayoutWatch
