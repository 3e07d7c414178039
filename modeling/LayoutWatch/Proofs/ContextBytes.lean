import LayoutWatch.Proofs.CodeImage
import LayoutWatch.Proofs.Extraction
import LayoutWatch.Proofs.Offset

/-!
# The bytes around an instruction

The context of an instruction is what stands directly in front of it and directly behind it in the
same section. Where it begins and ends is computed from offsets of 64 bits. Here this is written
down once more with every sum and every read checked: one that went wrong would leave the context
without a result. None does, however wide the context is asked to be, and what is read are the
neighbouring bytes: together with the instruction they are one part of the section.
-/

namespace LayoutWatch

/-! ## Parts of the file that back a section -/

/-- The part of a file that backs a section, with the sum capped. -/
def Section.cappedWindow (s : Section) (fileSize : Nat) : Window :=
  let start := min s.rawAddress.toNat fileSize
  ⟨start, min (cappedSum start s.rawSize.toNat) fileSize⟩

/-- The offsets of a section table have 32 bits, so no sum of two of them has to be capped. -/
theorem Section.cappedWindow_eq (s : Section) (fileSize : Nat) :
    s.cappedWindow fileSize = s.fileWindow fileSize := by
  have hstart := s.rawAddress.toNat_lt
  have hsize := s.rawSize.toNat_lt
  have hsum : cappedSum (min s.rawAddress.toNat fileSize) s.rawSize.toNat =
      min s.rawAddress.toNat fileSize + s.rawSize.toNat := by
    rw [cappedSum, offsetCount]
    omega
  rw [cappedWindow, fileWindow, hsum]

/-- The part of a file that backs a section ends at an offset. -/
theorem Section.stop_lt_offsetCount (s : Section) (fileSize : Nat) :
    (s.fileWindow fileSize).stop < offsetCount := by
  have hstart := s.rawAddress.toNat_lt
  have hsize := s.rawSize.toNat_lt
  rw [fileWindow, offsetCount]
  dsimp only
  omega

/-! ## Context -/

namespace Extraction

/-- A text is written for some bytes: there is one unless there are no bytes, and it is read as the
pattern of them. -/
structure Spells (text : Option String) (bytes : List UInt8) : Prop where
  /-- There is no text exactly for no bytes. -/
  eq_none_iff : text = none ↔ bytes = []
  /-- The text is read as the pattern of the bytes. -/
  parse_eq : ∀ t, text = some t → Pattern.parse t = .ok (Pattern.ofBytes bytes)

/-- The text of context is written for its bytes. -/
theorem spells_contextText? (bytes : List UInt8) : Spells (contextText? bytes) bytes := by
  cases bytes with
  | nil => exact ⟨by simp [contextText?], fun t ht => absurd ht (by simp [contextText?])⟩
  | cons b rest =>
    have htext : contextText? (b :: rest) = some (Pattern.textOfBytes (b :: rest)) := rfl
    refine ⟨by simp [htext], fun t ht => ?_⟩
    obtain rfl := Option.some.inj (htext.symm.trans ht)
    exact Pattern.parse_text (by simp [Pattern.ofBytes])

/-- The context of an instruction with everything checked. -/
def checkedContext? (b : Binary) (site length width : Nat) :
    Option (Option String × Option String) :=
  if width = 0 then some (none, none)
  else
    match (b.image.executableSections.map (·.cappedWindow b.bytes.size)).find?
        (·.contains site) with
    | none => some (none, none)
    | some w => do
      let frontStart := max (site - width) w.start
      let backStart := min (← sum? site length) w.stop
      let backStop := min (cappedSum backStart width) w.stop
      let front ← b.bytes.between? frontStart site
      let back ← b.bytes.between? backStart backStop
      return (contextText? front, contextText? back)

variable {b : Binary} {site length width : Nat} {w : Window}

/-- The windows are those of the executable sections. -/
theorem cappedWindows_eq (b : Binary) :
    b.image.executableSections.map (·.cappedWindow b.bytes.size) = b.executableWindows := by
  simp only [Section.cappedWindow_eq]
  rfl

/-- As long as an instruction ends at an offset, nothing goes wrong, and the context is what it is
without the checks. -/
theorem checkedContext?_eq (h : site + length < offsetCount) (width : Nat) :
    checkedContext? b site length width =
      some (contextAround b.bytes b.executableWindows site length width) := by
  rw [checkedContext?, contextAround, cappedWindows_eq]
  split
  · rfl
  · cases hfound : b.executableWindows.find? (·.contains site) with
    | none => rfl
    | some w =>
      have hmem := List.mem_of_find?_eq_some hfound
      have hstop := Image.stop_le_of_mem_executableWindows hmem
      obtain ⟨s, -, rfl⟩ := List.mem_map.mp hmem
      have hcontains : (s.fileWindow b.bytes.size).contains site = true := by
        simpa using List.find?_some hfound
      have hsite := Window.contains_iff.mp hcontains
      have hsum : sum? site length = some (site + length) := if_pos h
      have hcapped := min_cappedSum (a := min (site + length) (s.fileWindow b.bytes.size).stop)
        (b := width) (s.stop_lt_offsetCount b.bytes.size)
      dsimp only
      rw [hsum, Option.bind_eq_bind, Option.bind_some, hcapped,
        Bytes.between?_eq_some (by omega) (by omega), Option.bind_eq_bind, Option.bind_some,
        Bytes.between?_eq_some (by omega) (by omega)]
      rfl

/-- What stands around an instruction in a window: the bytes in front of it, its own, and the bytes
behind it. -/
structure Neighbours (bytes : Bytes) (w : Window) (site length width : Nat)
    (front own back : List UInt8) : Prop where
  /-- The bytes in front are those of the window, up to `width` of them. -/
  front_eq : bytes.between? (max w.start (site - width)) site = some front
  /-- The instruction stands behind them. -/
  own_eq : bytes.between? site (site + length) = some own
  /-- The bytes behind are those of the window, up to `width` of them. -/
  back_eq : bytes.between? (site + length) (min w.stop (site + length + width)) = some back
  /-- Together they are one part of the window. -/
  whole_eq : bytes.between? (max w.start (site - width)) (min w.stop (site + length + width)) =
    some (front ++ own ++ back)
  /-- That part lies in the window. -/
  inside : w.start ≤ max w.start (site - width) ∧ min w.stop (site + length + width) ≤ w.stop

/-- An instruction inside a window of the file has neighbours. -/
theorem exists_neighbours {bytes : Bytes} (hstart : w.start ≤ site) (hfit : site + length ≤ w.stop)
    (hstop : w.stop ≤ bytes.size) (width : Nat) :
    ∃ front own back, Neighbours bytes w site length width front own back := by
  have hread : ∀ {start stop}, start ≤ stop → stop ≤ w.stop →
      ∃ word, bytes.between? start stop = some word :=
    fun hle hend => ⟨_, Bytes.between?_eq_some hle (Nat.le_trans hend hstop)⟩
  obtain ⟨front, hfront⟩ : ∃ word, bytes.between? (max w.start (site - width)) site = some word :=
    hread (by omega) (by omega)
  obtain ⟨own, hown⟩ : ∃ word, bytes.between? site (site + length) = some word :=
    hread (by omega) hfit
  obtain ⟨back, hback⟩ : ∃ word,
      bytes.between? (site + length) (min w.stop (site + length + width)) = some word :=
    hread (by omega) (by omega)
  exact ⟨front, own, back, hfront, hown, hback,
    Bytes.between?_append (Bytes.between?_append hfront hown) hback, by omega, by omega⟩

/-- The captured context of an instruction is what stands around it. In every binary, for an
instruction that the first executable section with its offset holds whole, and for every width: no
sum leaves the offsets, and no read leaves the file; the texts are written for the bytes of the
section directly in front of the instruction and directly behind it, up to that many. -/
theorem contextAround_neighbours (hw : b.executableWindows.find? (·.contains site) = some w)
    (hfit : site + length ≤ w.stop) (width : Nat) :
    checkedContext? b site length width =
        some (contextAround b.bytes b.executableWindows site length width) ∧
      ∃ front own back, Neighbours b.bytes w site length width front own back ∧
        Spells (contextAround b.bytes b.executableWindows site length width).1 front ∧
        Spells (contextAround b.bytes b.executableWindows site length width).2 back := by
  have hmem := List.mem_of_find?_eq_some hw
  have hstop := Image.stop_le_of_mem_executableWindows hmem
  have hstart := start_le_of_find? hw
  have hcount : w.stop < offsetCount := by
    obtain ⟨s, -, rfl⟩ := List.mem_map.mp hmem
    exact s.stop_lt_offsetCount _
  refine ⟨checkedContext?_eq (by omega) width, ?_⟩
  obtain ⟨front, own, back, hall⟩ := exists_neighbours hstart hfit hstop width
  have hbytes : contextBytes b.bytes b.executableWindows site length width = (front, back) := by
    rw [contextBytes, hw]
    dsimp only
    rw [Nat.min_eq_left hfit, Nat.max_comm, Nat.min_comm, Bytes.within_of_between? hall.front_eq,
      Bytes.within_of_between? hall.back_eq]
  rw [contextAround_eq, hbytes]
  exact ⟨front, own, back, hall, spells_contextText? front, spells_contextText? back⟩

/-- Four bytes, an access, and three bytes. -/
def padded : Binary :=
  .ofCode "padded.exe" [0x90, 0x91, 0x92, 0x93, 0x48, 0x8B, 0x81, 0x10, 0, 0, 0, 0xC3, 0xCC, 0xCC]

/-- The widest context of the access reaches to both ends of the section. -/
theorem contextAround_neighbours_widest : ∃ w,
    padded.executableWindows.find? (·.contains 164) = some w ∧ 164 + 7 ≤ w.stop ∧
      checkedContext? padded 164 7 0xFFFFFFFFFFFFFFFF =
        some (contextAround padded.bytes padded.executableWindows 164 7 0xFFFFFFFFFFFFFFFF) ∧
      contextAround padded.bytes padded.executableWindows 164 7 0xFFFFFFFFFFFFFFFF =
        (some "90 91 92 93", some "C3 CC CC") := by
  have hwindows : padded.executableWindows = [⟨160, 174⟩] :=
    Binary.executableWindows_ofCode (by decide)
  have hw : padded.executableWindows.find? (·.contains 164) = some ⟨160, 174⟩ := by
    rw [hwindows]
    rfl
  have hchecked := (contextAround_neighbours hw (by decide : 164 + 7 ≤ 174) 0xFFFFFFFFFFFFFFFF).1
  refine ⟨_, hw, by decide, hchecked, ?_⟩
  rw [hwindows]
  decide +kernel

end Extraction

end LayoutWatch
