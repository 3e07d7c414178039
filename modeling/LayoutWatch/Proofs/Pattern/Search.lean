import LayoutWatch.Pattern.Search
import LayoutWatch.Proofs.Bytes

/-!
# What a search finds

A pattern matches at an offset when every cell accepts the byte that stands there. The search
lists, in ascending order and each once, exactly the offsets of its window at which the pattern
fits into the window and matches; looking for the first fixed byte beforehand loses none. A
displacement is read from the bytes under the first run of wildcards and from no others.
-/

namespace LayoutWatch.Pattern

/-- A pattern matches where it lies inside the file and each cell accepts its byte. -/
theorem matchesAt_iff {bytes : Bytes} {p : Pattern} {offset : Nat} :
    matchesAt bytes p offset = true ↔ offset + p.length ≤ bytes.size ∧
      ∀ i cell, p[i]? = some cell → ∃ b, bytes[offset + i]? = some b ∧ cell.accepts b = true := by
  induction p generalizing offset with
  | nil => simp [matchesAt]
  | cons cell rest ih =>
    rw [matchesAt]
    cases hb : bytes[offset]? with
    | none =>
      have hout : bytes.size ≤ offset := by simpa using hb
      simp only [Bool.false_eq_true, List.length_cons, false_iff, not_and]
      omega
    | some b =>
      have hin : offset < bytes.size := (Array.getElem?_eq_some_iff.mp hb).1
      simp only [Bool.and_eq_true, ih, List.length_cons]
      constructor
      · intro hcells
        rcases hcells with ⟨hcell, hfit, hrest⟩
        refine ⟨by omega, ?_⟩
        intro i c hc
        cases i with
        | zero =>
          obtain rfl : cell = c := by simpa using hc
          exact ⟨b, hb, hcell⟩
        | succ i =>
          obtain ⟨b', hb', hc'⟩ := hrest i c (by simpa using hc)
          exact ⟨b', by rw [← hb']; congr 1; omega, hc'⟩
      · intro hcells
        rcases hcells with ⟨hfit, hall⟩
        refine ⟨?_, by omega, ?_⟩
        · obtain ⟨b', hb', hc'⟩ := hall 0 cell (by simp)
          rw [Nat.add_zero, hb] at hb'
          cases hb'
          exact hc'
        · intro i c hc
          obtain ⟨b', hb', hc'⟩ := hall (i + 1) c (by simpa using hc)
          exact ⟨b', by rw [← hb']; congr 1; omega, hc'⟩

/-- Matching looks at the bytes under fixed cells only. -/
theorem matchesAt_of_agree {bytes bytes' : Bytes} {p : Pattern} {offset : Nat}
    (hsize : bytes'.size = bytes.size)
    (hagree : ∀ i b, p[i]? = some (.fixed b) → bytes'[offset + i]? = bytes[offset + i]?)
    (h : matchesAt bytes p offset = true) : matchesAt bytes' p offset = true := by
  obtain ⟨hfit, hall⟩ := matchesAt_iff.mp h
  refine matchesAt_iff.mpr ⟨by omega, ?_⟩
  intro i cell hcell
  have hi : i < p.length := (List.getElem?_eq_some_iff.mp hcell).1
  cases cell with
  | wildcard =>
    obtain ⟨b, hb⟩ : ∃ b, bytes'[offset + i]? = some b :=
      ⟨bytes'[offset + i], Array.getElem?_eq_getElem (by omega)⟩
    exact ⟨b, hb, rfl⟩
  | fixed b =>
    rw [hagree i b hcell]
    exact hall i (.fixed b) hcell

/-- A pattern in two parts matches where both of them do, one behind the other. -/
theorem matchesAt_append {bytes : Bytes} {p q : Pattern} {offset : Nat} :
    matchesAt bytes (p ++ q) offset = true ↔
      matchesAt bytes p offset = true ∧ matchesAt bytes q (offset + p.length) = true := by
  induction p generalizing offset with
  | nil =>
    have hfit : matchesAt bytes q offset = true → offset ≤ bytes.size := fun h =>
      Nat.le_trans (Nat.le_add_right _ _) (matchesAt_iff.mp h).1
    simpa [matchesAt] using hfit
  | cons cell rest ih =>
    have hplace : offset + (cell :: rest).length = offset + 1 + rest.length := by
      rw [List.length_cons]
      omega
    rw [List.cons_append, matchesAt, matchesAt, hplace]
    cases bytes[offset]? with
    | none => simp
    | some actual => simp only [Bool.and_eq_true, ih, and_assoc]

/-- The cells of a pattern made from bytes. -/
theorem getElem?_ofBytesMasked (word : List UInt8) (masked : Window) (i : Nat) :
    (ofBytesMasked word masked)[i]? =
      word[i]?.map fun b => if masked.contains i then .wildcard else .fixed b := by
  rw [ofBytesMasked, List.getElem?_map, List.getElem?_zipIdx, Option.map_map, Nat.zero_add]
  rfl

/-- A pattern made from bytes of a file matches at the place they were read from. -/
theorem matchesAt_ofBytesMasked {bytes : Bytes} {start count : Nat} {word : List UInt8}
    (h : bytes.slice? start count = some word) (masked : Window) :
    matchesAt bytes (ofBytesMasked word masked) start = true := by
  have hlength := Bytes.length_of_slice? h
  have hfit := (Bytes.slice?_eq_some_iff.mp h).1
  have hcells : (ofBytesMasked word masked).length = count := by simp [ofBytesMasked, hlength]
  refine matchesAt_iff.mpr ⟨hcells ▸ hfit, ?_⟩
  intro i cell hcell
  rw [getElem?_ofBytesMasked] at hcell
  obtain ⟨b, hb, rfl⟩ := Option.map_eq_some_iff.mp hcell
  have hi : i < word.length := (List.getElem?_eq_some_iff.mp hb).1
  refine ⟨b, (Bytes.getElem?_of_slice? h (hlength ▸ hi)).trans hb, ?_⟩
  split <;> simp [Cell.accepts]

/-- Without a mask the pattern holds fixed bytes only. -/
theorem ofBytes_eq_ofBytesMasked (word : List UInt8) :
    ofBytes word = ofBytesMasked word ⟨0, 0⟩ := by
  refine List.ext_getElem? fun i => ?_
  rw [getElem?_ofBytesMasked]
  simp [ofBytes, Window.contains]

/-- A pattern of fixed bytes matches where these bytes stand, and nowhere else. -/
@[simp] theorem matchesAt_ofBytes_iff {bytes : Bytes} {word : List UInt8} {offset : Nat} :
    matchesAt bytes (ofBytes word) offset = true ↔
      bytes.slice? offset word.length = some word := by
  constructor
  · intro hmatch
    obtain ⟨hfit, hcells⟩ := matchesAt_iff.mp hmatch
    have hlength : (ofBytes word).length = word.length := List.length_map _
    rw [hlength] at hfit
    refine Bytes.slice?_eq_some_iff.mpr ⟨hfit, List.ext_getElem? fun i => ?_⟩
    rw [Bytes.getElem?_within, Window.size, Nat.add_sub_cancel_left]
    by_cases hi : i < word.length
    · have hcell : (ofBytes word)[i]? = some (.fixed word[i]) := by simp [ofBytes, hi]
      obtain ⟨b, hb, haccepts⟩ := hcells i _ hcell
      have hbyte : word[i] = b := by simpa [Cell.accepts] using haccepts
      rw [if_pos hi, hb, List.getElem?_eq_getElem hi, hbyte]
    · rw [if_neg hi, List.getElem?_eq_none (Nat.le_of_not_lt hi)]
  · intro hread
    rw [ofBytes_eq_ofBytesMasked]
    exact matchesAt_ofBytesMasked hread _

/-- A pattern of fixed bytes leaves nothing open. -/
@[simp] theorem wildcardRun?_ofBytes (word : List UInt8) : wildcardRun? (ofBytes word) = none := by
  have hrun : (ofBytes word).dropWhile Cell.isFixed = [] := by
    induction word with
    | nil => rfl
    | cons b rest ih => exact ih
  rw [wildcardRun?, hrun]
  rfl

/-- The first fixed byte is the cell at its index. -/
theorem getElem?_of_anchor? {p : Pattern} {i : Nat} {b : UInt8} (h : anchor? p = some (i, b)) :
    p[i]? = some (.fixed b) := by
  induction p generalizing i with
  | nil => simp [anchor?] at h
  | cons cell rest ih =>
    cases cell with
    | fixed c =>
      simp only [anchor?, Option.some.injEq, Prod.mk.injEq] at h
      simp [← h.1, h.2]
    | wildcard =>
      obtain ⟨⟨j, c⟩, hrest, heq⟩ := Option.map_eq_some_iff.mp h
      simp only [Prod.mk.injEq] at heq
      obtain ⟨rfl, rfl⟩ := heq
      simpa using ih hrest

/-- A pattern of wildcards alone matches wherever it fits. -/
theorem matchesAt_of_anchor?_none {bytes : Bytes} {p : Pattern} {offset : Nat}
    (h : anchor? p = none) (hfit : offset + p.length ≤ bytes.size) :
    matchesAt bytes p offset = true := by
  induction p generalizing offset with
  | nil => simpa [matchesAt] using hfit
  | cons cell rest ih =>
    rw [List.length_cons] at hfit
    cases cell with
    | fixed c => simp [anchor?] at h
    | wildcard =>
      have hnone : anchor? rest = none := by simpa [anchor?] using h
      have hrest : matchesAt bytes rest (offset + 1) = true := ih hnone (by omega)
      rw [matchesAt, Array.getElem?_eq_getElem (by omega : offset < bytes.size)]
      simpa [Cell.accepts] using hrest

/-- A byte that has to stand `index` places further on is looked for first, and the places in
front of those where it stands are tried. No place is lost when each place that counts has it. -/
theorem filter_map_sub_range' {found counts : Nat → Bool} {index : Nat}
    (hcounts : ∀ offset, counts offset = true → found (index + offset) = true)
    (start count : Nat) :
    (((List.range' (start + index) count).filter found).map (· - index)).filter counts =
      (List.range' start count).filter counts := by
  have hfound : ((List.range' start count).map (index + ·)).filter found =
      ((List.range' start count).filter (found ∘ (index + ·))).map (index + ·) := List.filter_map
  have hback : ((· - index) ∘ (index + ·)) = (id : Nat → Nat) := by
    funext offset
    exact Nat.add_sub_cancel_left index offset
  rw [Nat.add_comm start index, ← List.map_add_range', hfound, List.map_map, hback, List.map_id,
    List.filter_filter]
  refine List.filter_congr fun offset _ => ?_
  rw [Bool.and_eq_left_iff_imp]
  exact hcounts offset

/-- The search lists every offset at which the pattern fits into the window and matches. -/
theorem findAll_eq_filter {p : Pattern} (hne : p ≠ []) (bytes : Bytes) (w : Window) :
    p.findAll bytes w =
      (List.range' w.start (min w.stop bytes.size + 1 - p.length - w.start)).filter
        (matchesAt bytes p) := by
  have hlength : 0 < p.length := List.length_pos_iff.mpr hne
  have hempty : p.isEmpty = false := by simpa using hne
  unfold findAll
  simp only [hempty, Bool.false_or, decide_eq_true_eq]
  by_cases hfit : min w.stop bytes.size - min w.start (min w.stop bytes.size) < p.length
  · rw [if_pos hfit]
    have hcount : min w.stop bytes.size + 1 - p.length - w.start = 0 := by omega
    rw [hcount]
    rfl
  · rw [if_neg hfit]
    have hstart : min w.start (min w.stop bytes.size) = w.start := by omega
    have hcount : min w.stop bytes.size - w.start - p.length + 1 =
        min w.stop bytes.size + 1 - p.length - w.start := by omega
    rw [hstart, hcount]
    cases ha : anchor? p with
    | none =>
      refine (List.filter_eq_self.mpr ?_).symm
      intro offset hoffset
      rw [List.mem_range'_1] at hoffset
      exact matchesAt_of_anchor?_none ha (by omega)
    | some anchor =>
      obtain ⟨index, byte⟩ := anchor
      apply filter_map_sub_range'
      intro offset hmatch
      obtain ⟨b, hb, haccepts⟩ := (matchesAt_iff.mp hmatch).2 _ _ (getElem?_of_anchor? ha)
      have hbyte : byte = b := by simpa [Cell.accepts] using haccepts
      rw [Nat.add_comm index offset, hb, hbyte]
      exact beq_self_eq_true _

/-- An offset is found when the pattern is not empty, lies inside the window and matches there. -/
theorem mem_findAll {p : Pattern} {bytes : Bytes} {w : Window} {offset : Nat} :
    offset ∈ p.findAll bytes w ↔ p ≠ [] ∧ w.start ≤ offset ∧ offset + p.length ≤ w.stop ∧
      matchesAt bytes p offset = true := by
  by_cases hne : p = []
  · subst hne
    simp [findAll]
  · have hlength : 0 < p.length := List.length_pos_iff.mpr hne
    rw [findAll_eq_filter hne, List.mem_filter, List.mem_range'_1]
    constructor
    · intro hfound
      rcases hfound with ⟨⟨hstart, hstop⟩, hmatch⟩
      exact ⟨hne, hstart, by omega, hmatch⟩
    · intro hfound
      rcases hfound with ⟨-, hstart, hstop, hmatch⟩
      have hfit := (matchesAt_iff.mp hmatch).1
      exact ⟨⟨hstart, by omega⟩, hmatch⟩

/-- A displacement of one, two or four bytes is the signed word under the run of wildcards, where
the file holds it. -/
theorem displacement?_eq {p : Pattern} {run : Window} (hrun : wildcardRun? p = some run)
    (hwidth : run.size = 1 ∨ run.size = 2 ∨ run.size = 4) (bytes : Bytes) (offset : Nat) :
    displacement? p bytes offset =
      (bytes.slice? (offset + run.start) run.size).map signedLittleEndian := by
  unfold displacement?
  rw [hrun]
  cases hword : bytes.slice? (offset + run.start) run.size with
  | none => simp [hword]
  | some word =>
    have hlength := Bytes.length_of_slice? hword
    rw [← hlength] at hwidth
    simp [hword, hwidth]

/-- A word in the lower half of its range stands for its own value. -/
theorem signedLittleEndian_eq {word : List UInt8}
    (h : 2 * littleEndian word < wordCount word.length) :
    signedLittleEndian word = littleEndian word := by
  apply Int.bmod_eq_of_le
  · omega
  · exact_mod_cast (by omega : littleEndian word < (wordCount word.length + 1) / 2)

/-- A signed word is below half the bound of its width. -/
theorem signedLittleEndian_lt (word : List UInt8) :
    signedLittleEndian word < (wordCount word.length + 1 : Nat) / 2 := by
  have hpos : 0 < wordCount word.length := Nat.zero_lt_of_lt (littleEndian_lt word)
  exact_mod_cast Int.bmod_lt hpos

end LayoutWatch.Pattern
