import LayoutWatch.Access
import LayoutWatch.Proofs.Pattern.Search

/-!
# What the index of accesses lists

An access is listed under its displacement when its instruction lies inside an executable section
and is decoded there. The pattern of its instruction with the displacement left open matches at
its own place, and reading the displacement there gives the one it is listed under.
-/

namespace LayoutWatch

namespace Access

/-- An instruction that is an access has seven bytes, the last four of them the displacement. -/
theorem decode?_eq_some {instruction : List UInt8} {kind : Kind} {displacement : Nat}
    (h : decode? instruction = some (kind, displacement)) :
    ∃ operation operand d₀ d₁ d₂ d₃, instruction = [0x48, operation, operand, d₀, d₁, d₂, d₃] ∧
      littleEndian [d₀, d₁, d₂, d₃] = displacement ∧ displacement < displacementLimit := by
  unfold decode? at h
  split at h
  · next operation operand d₀ d₁ d₂ d₃ =>
    simp only [Option.bind_eq_bind, Option.bind_eq_some_iff] at h
    obtain ⟨k, -, hk⟩ := h
    split at hk
    · next hlimit =>
      simp only [Option.some.injEq, Prod.mk.injEq] at hk
      obtain ⟨-, rfl⟩ := hk
      exact ⟨operation, operand, d₀, d₁, d₂, d₃, rfl, rfl, hlimit.2⟩
    · exact absurd hk (by simp)
  · exact absurd h (by simp)

/-- The access at an offset is the instruction that is read and decoded there. -/
theorem at?_eq_some_iff {bytes : Bytes} {offset displacement : Nat} {a : Access} :
    at? bytes offset = some (displacement, a) ↔
      a.fileOffset = offset ∧ bytes.slice? offset length = some a.bytes ∧
        decode? a.bytes = some (a.kind, displacement) := by
  simp only [at?, Option.bind_eq_bind, Option.bind_eq_some_iff, Option.pure_def]
  constructor
  · intro haccess
    rcases haccess with ⟨instruction, hread, ⟨kind, d⟩, hdecode, heq⟩
    simp only [Option.some.injEq, Prod.mk.injEq] at heq
    obtain ⟨rfl, rfl⟩ := heq
    exact ⟨rfl, hread, hdecode⟩
  · intro haccess
    rcases haccess with ⟨rfl, hread, hdecode⟩
    exact ⟨a.bytes, hread, (a.kind, displacement), hdecode, rfl⟩

/-- The accesses of a window are those whose instruction lies inside it. -/
theorem mem_inWindow {bytes : Bytes} {w : Window} {displacement : Nat} {a : Access} :
    (displacement, a) ∈ inWindow bytes w ↔ w.start ≤ a.fileOffset ∧
      a.fileOffset + length ≤ w.stop ∧ at? bytes a.fileOffset = some (displacement, a) := by
  simp only [inWindow, List.mem_filterMap, List.mem_range'_1, Window.size, length]
  constructor
  · intro hplace
    rcases hplace with ⟨offset, ⟨hstart, hstop⟩, hat⟩
    obtain ⟨rfl, -⟩ := at?_eq_some_iff.mp hat
    exact ⟨hstart, by omega, hat⟩
  · intro hplace
    rcases hplace with ⟨hstart, hstop, hat⟩
    exact ⟨a.fileOffset, ⟨hstart, by omega⟩, hat⟩

end Access

/-- An access is found under its displacement when it lies inside an executable section. -/
theorem AccessIndex.mem_lookup_build {image : Image} {bytes : Bytes} {displacement : Nat}
    {a : Access} :
    a ∈ (build image bytes).lookup displacement ↔
      ∃ w ∈ image.executableWindows bytes.size, w.start ≤ a.fileOffset ∧
        a.fileOffset + Access.length ≤ w.stop ∧
        Access.at? bytes a.fileOffset = some (displacement, a) := by
  simp only [lookup, build, List.mem_filterMap, List.mem_flatMap]
  constructor
  · intro hsite
    rcases hsite with ⟨⟨d, a'⟩, ⟨w, hw, hmem⟩, heq⟩
    split at heq
    · next hd =>
      simp only [Option.some.injEq] at heq
      dsimp only at hd
      subst hd heq
      exact ⟨w, hw, Access.mem_inWindow.mp hmem⟩
    · exact absurd heq (by simp)
  · intro hwindow
    rcases hwindow with ⟨w, hw, hplace⟩
    exact ⟨(displacement, a), ⟨w, hw, Access.mem_inWindow.mpr hplace⟩, if_pos rfl⟩

namespace Access

/-- The pattern of an instruction with its displacement left open. -/
def pattern (a : Access) : Pattern := Pattern.ofBytesMasked a.bytes displacementWindow

variable {bytes : Bytes} {displacement : Nat} {a : Access}

/-- The pattern has the length of the instruction, and its first run of wildcards is the
displacement. -/
theorem pattern_shape (h : at? bytes a.fileOffset = some (displacement, a)) :
    a.pattern.length = length ∧ a.pattern.wildcardRun? = some displacementWindow := by
  obtain ⟨-, -, hdecode⟩ := at?_eq_some_iff.mp h
  obtain ⟨operation, operand, d₀, d₁, d₂, d₃, hbytes, -⟩ := decode?_eq_some hdecode
  rw [pattern, hbytes]
  exact ⟨rfl, rfl⟩

/-- The pattern has cells. -/
theorem pattern_ne_nil (h : at? bytes a.fileOffset = some (displacement, a)) : a.pattern ≠ [] := by
  intro hnil
  have hlength := (pattern_shape h).1
  rw [hnil] at hlength
  exact absurd hlength (by decide)

/-- The displacement that the pattern reads at any place of any file. -/
theorem displacement?_pattern (h : at? bytes a.fileOffset = some (displacement, a))
    (file : Bytes) (offset : Nat) :
    a.pattern.displacement? file offset =
      (file.slice? (offset + 3) 4).map Pattern.signedLittleEndian :=
  Pattern.displacement?_eq (pattern_shape h).2 (by decide) file offset

/-- At its own place the pattern reads the displacement that the access is listed under. -/
theorem displacement?_pattern_self (h : at? bytes a.fileOffset = some (displacement, a)) :
    a.pattern.displacement? bytes a.fileOffset = some (displacement : Int) := by
  obtain ⟨-, hread, hdecode⟩ := at?_eq_some_iff.mp h
  obtain ⟨operation, operand, d₀, d₁, d₂, d₃, hbytes, hvalue, hlimit⟩ := decode?_eq_some hdecode
  have hword : bytes.slice? (a.fileOffset + 3) 4 = some [d₀, d₁, d₂, d₃] := by
    rw [Bytes.slice?_part hread (by decide), hbytes]
    rfl
  rw [displacement?_pattern h, hword, Option.map_some, Pattern.signedLittleEndian_eq, hvalue]
  rw [hvalue]
  have hcount : wordCount [d₀, d₁, d₂, d₃].length = 0x100000000 := rfl
  rw [displacementLimit] at hlimit
  omega

/-- The pattern matches at its own place in every file of the same size that differs in the
displacement only. -/
theorem matchesAt_pattern (h : at? bytes a.fileOffset = some (displacement, a)) {file : Bytes}
    (hsize : file.size = bytes.size)
    (hagree : ∀ i < 3, file[a.fileOffset + i]? = bytes[a.fileOffset + i]?) :
    a.pattern.matchesAt file a.fileOffset = true := by
  obtain ⟨-, hread, -⟩ := at?_eq_some_iff.mp h
  refine Pattern.matchesAt_of_agree hsize ?_ (Pattern.matchesAt_ofBytesMasked hread _)
  intro i b hcell
  rw [pattern, Pattern.getElem?_ofBytesMasked] at hcell
  obtain ⟨c, hc, hopen⟩ := Option.map_eq_some_iff.mp hcell
  have hi : i < length := Bytes.length_of_slice? hread ▸ (List.getElem?_eq_some_iff.mp hc).1
  split at hopen
  · exact absurd hopen (by simp)
  · next hfixed =>
    rw [Window.contains_iff] at hfixed
    simp only [displacementWindow, length] at hfixed hi
    exact hagree i (by omega)

end Access

end LayoutWatch
