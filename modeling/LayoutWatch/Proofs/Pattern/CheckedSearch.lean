import LayoutWatch.Proofs.SearchSites

/-!
# A search that checks every read

The search of a window looks for the first fixed byte of the pattern, only where a match can have
it, and compares the whole pattern at the places in front of it. Here the search is written down
once more with every read of the file, every read of the pattern and every difference of offsets
checked: one of them that went wrong would leave it without a result. It always has one, which is
that of the search, and that lists exactly the offsets at which every fixed byte agrees.
-/

namespace LayoutWatch.Pattern

/-- The difference of two offsets, where the second one is not behind the first. -/
def difference? (offset behind : Nat) : Option Nat :=
  if behind ≤ offset then some (offset - behind) else none

/-- The pattern compared with the bytes from an offset on, which are read at once. Where the
pattern would leave the file, nothing is read. -/
def checkedMatch? (bytes : Bytes) (p : Pattern) (offset : Nat) : Option Bool :=
  if bytes.size < offset + p.length then some false
  else (bytes.slice? offset p.length).map fun word =>
    (p.zip word).all fun (cell, actual) => cell.accepts actual

/-- The offsets that pass a test. A test without an answer ends the search. -/
def checkedFilter? (test : Nat → Option Bool) : List Nat → Option (List Nat)
  | [] => some []
  | offset :: rest => do
    let passes ← test offset
    let others ← checkedFilter? test rest
    return if passes then offset :: others else others

/-- The search of a window with everything checked. -/
def checkedFindAll? (p : Pattern) (bytes : Bytes) (w : Window) : Option (List Nat) := do
  let stop := min w.stop bytes.size
  let start := min w.start stop
  let room ← difference? stop start
  if p.isEmpty || room < p.length then some []
  else
    let last ← difference? stop p.length
    let count ← difference? (last + 1) start
    match anchor? p with
    | none => some (List.range' start count)
    | some (index, _) =>
      let anchor ← p[index]?
      -- The first fixed byte of a match from `start` to `last` stands in this part of the file.
      let haystack ← bytes.slice? (start + index) count
      checkedFilter? (checkedMatch? bytes p) (haystack.idxsOf anchor.byte start)

/-- A cell accepts the byte that it has, or any byte if it is open. -/
theorem Cell.accepts_iff {cell : Cell} {actual : UInt8} :
    cell.accepts actual = true ↔ (cell.isFixed = true → actual = cell.byte) := by
  cases cell with
  | wildcard => simp [Cell.accepts, Cell.isFixed]
  | fixed b =>
    have hbytes : (b == actual) = true ↔ actual = b := beq_iff_eq.trans eq_comm
    simpa [Cell.accepts, Cell.isFixed, Cell.byte] using hbytes

variable {bytes : Bytes} {p : Pattern} {w : Window} {offset : Nat}

/-- A pattern matches where it lies inside the file and the bytes under its fixed positions are
those of the pattern. -/
theorem matchesAt_iff_bytes :
    matchesAt bytes p offset = true ↔ offset + p.length ≤ bytes.size ∧
      ∀ i, (hi : i < p.length) → p[i].isFixed = true → bytes[offset + i]? = some p[i].byte := by
  rw [matchesAt_iff]
  refine and_congr_right fun hfit => ?_
  constructor
  · intro hcells i hi hfixed
    have hcell := hcells i p[i] (List.getElem?_eq_getElem hi)
    rcases hcell with ⟨actual, hactual, haccepts⟩
    rw [hactual, Cell.accepts_iff.mp haccepts hfixed]
  · intro hfixed i cell hcell
    have hi : i < p.length := (List.getElem?_eq_some_iff.mp hcell).1
    have hin : offset + i < bytes.size := by omega
    have hactual : bytes[offset + i]? = some bytes[offset + i] := Array.getElem?_eq_getElem hin
    refine ⟨bytes[offset + i], hactual, Cell.accepts_iff.mpr fun hmark => ?_⟩
    have heq : p[i] = cell := (List.getElem?_eq_some_iff.mp hcell).2
    have hbyte := hfixed i hi (heq ▸ hmark)
    rw [hactual, heq] at hbyte
    exact Option.some.inj hbyte

/-- The cells of a pattern accept the bytes that were read, one after the other, exactly when each
of them accepts the byte at its place in the file. -/
theorem all_zip_accepts_iff {word : List UInt8}
    (hread : bytes.slice? offset p.length = some word) :
    ((p.zip word).all fun (cell, actual) => cell.accepts actual) = true ↔
      ∀ i cell, p[i]? = some cell → ∃ b, bytes[offset + i]? = some b ∧ cell.accepts b = true := by
  have hfit := (Bytes.slice?_eq_some_iff.mp hread).1
  rw [List.all_eq_true]
  constructor
  · intro hall i cell hcell
    have hi : i < p.length := (List.getElem?_eq_some_iff.mp hcell).1
    have hbyte : bytes[offset + i]? = some bytes[offset + i] :=
      Array.getElem?_eq_getElem (by omega)
    have hpair : (p.zip word)[i]? = some (cell, bytes[offset + i]) := by
      rw [List.getElem?_zip_eq_some, ← Bytes.getElem?_of_slice? hread hi]
      exact ⟨hcell, hbyte⟩
    exact ⟨_, hbyte, hall _ (List.mem_of_getElem? hpair)⟩
  · intro hcells pair hpair
    have hplace := List.mem_iff_getElem?.mp hpair
    rcases hplace with ⟨i, hi⟩
    have hboth := List.getElem?_zip_eq_some.mp hi
    have hlt : i < p.length := (List.getElem?_eq_some_iff.mp hboth.1).1
    have haccepted := hcells i pair.1 hboth.1
    rcases haccepted with ⟨actual, hactual, haccepts⟩
    rw [Bytes.getElem?_of_slice? hread hlt, hboth.2] at hactual
    obtain rfl : pair.2 = actual := Option.some.inj hactual
    exact haccepts

/-- A pattern is compared within the file, and the answer is that of the comparison byte by byte. -/
@[simp] theorem checkedMatch?_eq (bytes : Bytes) (p : Pattern) (offset : Nat) :
    checkedMatch? bytes p offset = some (matchesAt bytes p offset) := by
  rw [checkedMatch?]
  split
  · next hout =>
    have hno : matchesAt bytes p offset = false := by
      rw [Bool.eq_false_iff]
      intro hmatch
      have hfit := (matchesAt_iff.mp hmatch).1
      omega
    rw [hno]
  · next hin =>
    have hfit : offset + p.length ≤ bytes.size := by omega
    have hread : bytes.slice? offset p.length =
        some (bytes.within ⟨offset, offset + p.length⟩) :=
      Bytes.slice?_eq_some_iff.mpr ⟨hfit, rfl⟩
    rw [hread, Option.map_some]
    refine congrArg some (Bool.eq_iff_iff.mpr ?_)
    rw [all_zip_accepts_iff hread, matchesAt_iff, and_iff_right hfit]

/-- A test that always has an answer leaves the offsets that pass it. -/
theorem checkedFilter?_eq {test : Nat → Option Bool} {passes : Nat → Bool}
    (h : ∀ offset, test offset = some (passes offset)) (offsets : List Nat) :
    checkedFilter? test offsets = some (offsets.filter passes) := by
  induction offsets with
  | nil => rfl
  | cons offset rest ih =>
    rw [checkedFilter?, h offset, ih, List.filter_cons]
    rfl

section Room

variable (hroom : w.start + p.length ≤ min w.stop bytes.size)

include hroom

/-- Where the window has room for a pattern of wildcards alone, the search lists every offset at
which it fits. -/
theorem range'_eq_findAll (hne : p ≠ []) (hanchor : anchor? p = none) :
    List.range' w.start (min w.stop bytes.size - w.start - p.length + 1) = p.findAll bytes w := by
  have hcount : min w.stop bytes.size + 1 - p.length - w.start =
      min w.stop bytes.size - w.start - p.length + 1 := by omega
  rw [findAll_eq_filter hne, hcount]
  refine (List.filter_eq_self.mpr fun offset hoffset => ?_).symm
  rw [List.mem_range'_1] at hoffset
  exact matchesAt_of_anchor?_none hanchor (by omega)

/-- The first fixed byte of a match stands in the part of the file that is searched for it. -/
theorem exists_haystack {index : Nat} {byte : UInt8} (hanchor : anchor? p = some (index, byte)) :
    ∃ haystack, bytes.slice? (w.start + index)
      (min w.stop bytes.size - w.start - p.length + 1) = some haystack := by
  have hindex : index < p.length :=
    (List.getElem?_eq_some_iff.mp (getElem?_of_anchor? hanchor)).1
  exact ⟨_, Bytes.slice?_eq_some_iff.mpr ⟨by omega, rfl⟩⟩

/-- The places of the first fixed byte lead to the matches of the window and to no others. -/
theorem filter_idxsOf_eq_findAll {index : Nat} {byte : UInt8} {haystack : List UInt8}
    (hne : p ≠ []) (hanchor : anchor? p = some (index, byte))
    (hread : bytes.slice? (w.start + index) (min w.stop bytes.size - w.start - p.length + 1) =
      some haystack) :
    (haystack.idxsOf byte w.start).filter (matchesAt bytes p) = p.findAll bytes w := by
  have hsorted : ((haystack.idxsOf byte w.start).filter (matchesAt bytes p)).Pairwise (· < ·) :=
    List.pairwise_findIdxs.filter _
  refine hsorted.eq_of_mem_iff (pairwise_findAll p bytes w) fun offset => ?_
  have hlength := Bytes.length_of_slice? hread
  rw [List.mem_filter, List.mem_idxsOf_iff_getElem_sub_pos, mem_findAll]
  constructor
  · intro hhit
    rcases hhit with ⟨⟨hstart, hplace, -⟩, hmatch⟩
    exact ⟨hne, hstart, by omega, hmatch⟩
  · intro hfound
    rcases hfound with ⟨-, hstart, hstop, hmatch⟩
    have hfit := (matchesAt_iff.mp hmatch).1
    have hplace : offset - w.start < haystack.length := by omega
    refine ⟨⟨hstart, hplace, ?_⟩, hmatch⟩
    have hcell := (matchesAt_iff.mp hmatch).2 index (.fixed byte) (getElem?_of_anchor? hanchor)
    rcases hcell with ⟨actual, hactual, haccepts⟩
    have hoffset : w.start + index + (offset - w.start) = offset + index := by omega
    have hbyte := Bytes.getElem?_of_slice? hread (hlength ▸ hplace)
    rw [hoffset, hactual, List.getElem?_eq_getElem hplace] at hbyte
    have hsame : actual = haystack[offset - w.start] := Option.some.inj hbyte
    rw [← hsame, beq_iff_eq]
    exact Cell.accepts_iff.mp haccepts rfl

end Room

/-- The search with everything checked always has a result, which is that of the search. -/
@[simp] theorem checkedFindAll?_eq (p : Pattern) (bytes : Bytes) (w : Window) :
    checkedFindAll? p bytes w = some (p.findAll bytes w) := by
  have hstart : difference? (min w.stop bytes.size) (min w.start (min w.stop bytes.size)) =
      some (min w.stop bytes.size - min w.start (min w.stop bytes.size)) :=
    if_pos (Nat.min_le_right ..)
  rw [checkedFindAll?, hstart, Option.bind_eq_bind, Option.bind_some]
  split
  · next hnone => rw [findAll, if_pos hnone]
  · next hsome =>
    have hfit : p ≠ [] ∧
        p.length ≤ min w.stop bytes.size - min w.start (min w.stop bytes.size) := by
      simpa using hsome
    have hlength : 0 < p.length := List.length_pos_iff.mpr hfit.1
    -- There is room for the pattern, so the window begins inside the file.
    have hbegin : min w.start (min w.stop bytes.size) = w.start := by omega
    have hroom : w.start + p.length ≤ min w.stop bytes.size := by omega
    have hlast : difference? (min w.stop bytes.size) p.length =
        some (min w.stop bytes.size - p.length) := if_pos (by omega)
    have hcount : difference? (min w.stop bytes.size - p.length + 1) w.start =
        some (min w.stop bytes.size - w.start - p.length + 1) := by
      rw [difference?, if_pos (by omega)]
      exact congrArg some (by omega)
    rw [hbegin, hlast, Option.bind_eq_bind, Option.bind_some, hcount, Option.bind_some]
    cases hanchor : anchor? p with
    | none => exact congrArg some (range'_eq_findAll hroom hfit.1 hanchor)
    | some anchor =>
      have hhaystack := exists_haystack hroom hanchor
      rcases hhaystack with ⟨haystack, hread⟩
      have hcell : p[anchor.1]? = some (.fixed anchor.2) := getElem?_of_anchor? hanchor
      dsimp only
      rw [hcell, Option.bind_some, hread, Option.bind_eq_bind, Option.bind_some,
        checkedFilter?_eq (checkedMatch?_eq bytes p)]
      exact congrArg some (filter_idxsOf_eq_findAll hroom hfit.1 hanchor hread)

/-- The search of a window for a pattern with at least one cell reads nothing outside the file, and
it lists, in strictly ascending order, exactly the offsets of the window from which the pattern
lies inside window and file with each of its fixed bytes in place. -/
theorem findAll_listsMatches (hne : p ≠ []) (bytes : Bytes) (w : Window) :
    checkedFindAll? p bytes w = some (p.findAll bytes w) ∧
      (p.findAll bytes w).Pairwise (· < ·) ∧
      ∀ offset, offset ∈ p.findAll bytes w ↔
        w.start ≤ offset ∧ offset + p.length ≤ min w.stop bytes.size ∧
          ∀ i, (hi : i < p.length) → p[i].isFixed = true →
            bytes[offset + i]? = some p[i].byte := by
  refine ⟨checkedFindAll?_eq p bytes w, pairwise_findAll p bytes w, fun offset => ?_⟩
  rw [mem_findAll, matchesAt_iff_bytes, Nat.le_min]
  constructor
  · intro hfound
    rcases hfound with ⟨-, hstart, hstop, hfit, hbytes⟩
    exact ⟨hstart, ⟨hstop, hfit⟩, hbytes⟩
  · intro hstands
    rcases hstands with ⟨hstart, ⟨hstop, hfit⟩, hbytes⟩
    exact ⟨hne, hstart, hstop, hfit, hbytes⟩

/-- Matches that overlap are found behind a wildcard, up to the end of a file that is shorter than
the window. -/
theorem findAll_listsMatches_overlapping :
    findAll [.wildcard, .fixed 0xAA, .wildcard, .fixed 0xAA]
        #[0xAA, 0xAA, 0xAA, 0xAA, 0xAA, 0xAA] ⟨1, 100⟩ = [1, 2] ∧
      checkedFindAll? [.wildcard, .fixed 0xAA, .wildcard, .fixed 0xAA]
        #[0xAA, 0xAA, 0xAA, 0xAA, 0xAA, 0xAA] ⟨1, 100⟩ = some [1, 2] := by
  have hne : ([.wildcard, .fixed 0xAA, .wildcard, .fixed 0xAA] : Pattern) ≠ [] := by simp
  have hfound : findAll [.wildcard, .fixed 0xAA, .wildcard, .fixed 0xAA]
      #[0xAA, 0xAA, 0xAA, 0xAA, 0xAA, 0xAA] ⟨1, 100⟩ = [1, 2] := by decide
  have hchecked :=
    (findAll_listsMatches hne #[0xAA, 0xAA, 0xAA, 0xAA, 0xAA, 0xAA] ⟨1, 100⟩).1
  rw [hfound] at hchecked
  exact ⟨hfound, hchecked⟩

end LayoutWatch.Pattern
