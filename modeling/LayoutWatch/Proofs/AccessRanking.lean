import LayoutWatch.Proofs.AccessSearch

/-!
# The most frequent displacements

An index is filled access by access: each access is entered under its displacement, and a
displacement gets an entry with its first access. The entries can be gone through in any order. The
summary ranks them by the number of their accesses, and no two of them tie, so it is the same for
every order.
-/

namespace LayoutWatch.AccessIndex

/-! ## Filling the index -/

/-- Enter an access under its displacement. -/
def enter (rows : List (Nat × List Access)) (site : Nat × Access) : List (Nat × List Access) :=
  if site.1 ∈ rows.map (·.1) then
    rows.map fun row => if row.1 = site.1 then (row.1, row.2 ++ [site.2]) else row
  else rows ++ [(site.1, [site.2])]

/-- The displacements of an index, each with its accesses, as they are entered one by one. -/
def entries (index : AccessIndex) : List (Nat × List Access) := index.sites.foldl enter []

/-- The rows have the accesses of an index under their displacements. -/
structure Tabulates (rows : List (Nat × List Access)) (index : AccessIndex) : Prop where
  /-- No displacement has two rows. -/
  nodup : (rows.map (·.1)).Nodup
  /-- The displacements with a row are those that occur. -/
  mem_iff : ∀ d, d ∈ rows.map (·.1) ↔ index.lookup d ≠ []
  /-- A row has all accesses with its displacement, in order of discovery. -/
  lookup_eq : ∀ row ∈ rows, row.2 = index.lookup row.1

variable {rows rows' : List (Nat × List Access)} {index : AccessIndex}
  {sites : List (Nat × Access)} {site : Nat × Access}

/-- An access is looked up last under its own displacement, and nowhere else. -/
theorem lookup_concat (sites : List (Nat × Access)) (site : Nat × Access) (d : Nat) :
    lookup ⟨sites ++ [site]⟩ d =
      lookup ⟨sites⟩ d ++ if site.1 = d then [site.2] else [] := by
  by_cases hd : site.1 = d <;> simp [lookup, hd]

/-- The displacements of the rows stay when an access is put behind those of its displacement. -/
theorem map_fst_putBehind (rows : List (Nat × List Access)) (site : Nat × Access) :
    (rows.map fun row => if row.1 = site.1 then (row.1, row.2 ++ [site.2]) else row).map (·.1) =
      rows.map (·.1) := by
  rw [List.map_map]
  refine List.map_congr_left fun row _ => ?_
  rw [Function.comp_apply]
  split <;> rfl

/-- Rows go on being those of an index when an access is entered. -/
theorem Tabulates.enter (h : Tabulates rows ⟨sites⟩) (site : Nat × Access) :
    Tabulates (enter rows site) ⟨sites ++ [site]⟩ := by
  have hthere := h.mem_iff site.1
  rw [AccessIndex.enter]
  split
  · next hkey =>
    -- The access is put behind those of its displacement.
    refine ⟨map_fst_putBehind rows site ▸ h.nodup, fun d => ?_, fun row hrow => ?_⟩
    · rw [map_fst_putBehind, lookup_concat, h.mem_iff]
      split
      · next hd =>
        subst hd
        exact iff_of_true (hthere.mp hkey) (by simp)
      · rw [List.append_nil]
    · obtain ⟨old, hold, rfl⟩ := List.mem_map.mp hrow
      rw [lookup_concat]
      split
      · next hd => rw [if_pos hd.symm, h.lookup_eq old hold]
      · next hd => rw [if_neg (Ne.symm hd), List.append_nil, h.lookup_eq old hold]
  · next hkey =>
    -- The displacement is new, so there was no access to look up.
    have hnone : lookup ⟨sites⟩ site.1 = [] := by
      rw [hthere] at hkey
      exact not_not.mp hkey
    refine ⟨?_, fun d => ?_, fun row hrow => ?_⟩
    · rw [List.map_append, List.map_singleton, ← List.concat_eq_append]
      exact List.Nodup.concat hkey h.nodup
    · rw [List.map_append, List.mem_append, h.mem_iff, lookup_concat]
      split
      · next hd => simp [hd]
      · next hd => simp [Ne.symm hd]
    · rw [lookup_concat]
      rcases List.mem_append.mp hrow with hold | hnew
      · rw [if_neg, List.append_nil, h.lookup_eq row hold]
        rintro hd
        exact hkey (hd ▸ List.mem_map_of_mem hold)
      · obtain rfl := List.mem_singleton.mp hnew
        rw [hnone, if_pos rfl]
        rfl

/-- The entries of an index have its accesses under their displacements. -/
theorem tabulates_entries (index : AccessIndex) : Tabulates index.entries index := by
  have hrun : ∀ sites done rows, Tabulates rows ⟨done⟩ →
      Tabulates (sites.foldl AccessIndex.enter rows) ⟨done ++ sites⟩ := by
    intro sites
    induction sites with
    | nil =>
      intro done rows h
      rwa [List.append_nil]
    | cons site sites ih =>
      intro done rows h
      have hstep := ih _ _ (h.enter site)
      rwa [List.append_assoc] at hstep
  exact hrun index.sites [] [] ⟨List.nodup_nil, fun d => by simp [lookup], by simp⟩

/-- The order of the rows does not matter. -/
theorem Tabulates.perm (h : Tabulates rows index) (hperm : rows'.Perm rows) :
    Tabulates rows' index where
  nodup := (hperm.map _).nodup_iff.mpr h.nodup
  mem_iff d := (hperm.map _).mem_iff.trans (h.mem_iff d)
  lookup_eq row hrow := h.lookup_eq row (hperm.mem_iff.mp hrow)

/-! ## Counting -/

/-- A displacement occurs where it has an access. -/
theorem mem_displacements {d : Nat} : d ∈ index.displacements ↔ index.lookup d ≠ [] := by
  rw [lookup_eq_valuesOf, ← List.length_pos_iff]
  simp [displacements, List.count_pos_iff]

/-- Each displacement that occurs is counted with the number of its accesses. -/
theorem counts_eq (index : AccessIndex) :
    index.counts = index.displacements.map fun d => (d, (index.lookup d).length) := by
  rw [counts, Ordered.runLengths_eq (Ordered.pairwise_mergeSort_numbers _)]
  refine List.map_congr_left fun d _ => ?_
  rw [(List.mergeSort_perm _ _).count_eq, lookup_eq_valuesOf, Ordered.length_valuesOf]

/-- A row as it is counted. -/
def count (row : Nat × List Access) : Nat × Nat := (row.1, row.2.length)

/-- The rows of an index are counted with the displacements that occur. -/
theorem Tabulates.count_perm (h : Tabulates rows index) : (rows.map count).Perm index.counts := by
  have hrows : rows.map count = (rows.map (·.1)).map fun d => (d, (index.lookup d).length) := by
    rw [List.map_map]
    exact List.map_congr_left fun row hrow => by rw [count, h.lookup_eq row hrow]; rfl
  rw [hrows, counts_eq]
  refine List.Perm.map _ ?_
  refine (List.perm_ext_iff_of_nodup h.nodup (Ordered.nodup_distinctNumbers _)).mpr fun d => ?_
  exact (h.mem_iff d).trans mem_displacements.symm

/-- No displacement is counted twice. -/
theorem nodup_counts (index : AccessIndex) : (index.counts.map (·.1)).Nodup := by
  rw [counts_eq, List.map_map]
  exact (List.map_id _).symm ▸ Ordered.nodup_distinctNumbers _

/-! ## Ranking -/

/-- One counted displacement stands above another one: it has more accesses, or as many and is the
smaller one. -/
def RanksAbove (a b : Nat × Nat) : Prop := b.2 < a.2 ∨ a.2 = b.2 ∧ a.1 < b.1

instance : Std.Irrefl RanksAbove := ⟨fun a => by rw [RanksAbove]; omega⟩

instance : Std.Antisymm RanksAbove :=
  ⟨fun a b hab hba => by rw [RanksAbove] at hab hba; omega⟩

/-- Counts of different displacements are ranked without ties. -/
theorem pairwise_ranked {counts : List (Nat × Nat)} (h : (counts.map (·.1)).Nodup) :
    (counts.mergeSort ranksBefore).Pairwise RanksAbove := by
  have hsorted : (counts.mergeSort ranksBefore).Pairwise fun a b => ranksBefore a b = true := by
    refine List.pairwise_mergeSort (fun a b c hab hbc => ?_) (fun a b => ?_) counts
    · simp only [ranksBefore, decide_eq_true_eq] at hab hbc ⊢
      omega
    · simp only [ranksBefore, Bool.or_eq_true, decide_eq_true_eq]
      omega
  have hnodup := (((List.mergeSort_perm counts ranksBefore).map (·.1)).nodup_iff).mpr h
  refine hsorted.imp₂ (fun a b hle hne => ?_) (List.pairwise_map.mp hnodup)
  simp only [ranksBefore, decide_eq_true_eq] at hle
  rw [RanksAbove]
  omega

/-- The ranking does not depend on the order of the counts. -/
theorem ranked_eq_of_perm {counts counts' : List (Nat × Nat)} (h : (counts.map (·.1)).Nodup)
    (hperm : counts'.Perm counts) :
    counts'.mergeSort ranksBefore = counts.mergeSort ranksBefore := by
  have h' := ((hperm.map (·.1)).nodup_iff).mpr h
  refine (pairwise_ranked h').eq_of_mem_iff (pairwise_ranked h) fun row => ?_
  rw [List.mem_mergeSort, List.mem_mergeSort, hperm.mem_iff]

/-- The summary of the rows of an index, gone through in their order. -/
def statsOf (rows : List (Nat × List Access)) (top : Nat) : Stats where
  uniqueOffsets := rows.length
  totalEntries := (rows.map fun row => row.2.length).sum
  topOffsets := ((rows.map count).mergeSort ranksBefore).take top

/-- The accesses of all displacements that occur are all accesses. -/
theorem sum_displacements (index : AccessIndex) :
    (index.displacements.map fun d => (index.lookup d).length).sum = index.sites.length := by
  simp only [lookup_eq_valuesOf]
  exact Ordered.sum_length_valuesOf (Ordered.nodup_distinctNumbers _) fun site hsite =>
    Ordered.mem_distinctNumbers.mpr (List.mem_map_of_mem hsite)

/-- The summary is that of the rows in whatever order. -/
theorem Tabulates.statsOf_eq (h : Tabulates rows index) (top : Nat) :
    statsOf rows top = index.stats top := by
  have hcounts := h.count_perm
  have htotal : (rows.map fun row => row.2.length).sum = index.sites.length := by
    have hsum := (hcounts.map (·.2)).sum_eq
    rw [counts_eq, List.map_map, List.map_map] at hsum
    exact hsum.trans (sum_displacements index)
  have hlength := hcounts.length_eq
  rw [List.length_map] at hlength
  rw [statsOf, stats, htotal, hlength, ranked_eq_of_perm index.nodup_counts hcounts]

/-- A summary of an index says which displacements are the most frequent. -/
structure Ranks (index : AccessIndex) (top : Nat) (s : Stats) (keys : Finset Nat) : Prop where
  /-- The keys are the displacements that occur. -/
  mem_iff : ∀ d, d ∈ keys ↔ index.lookup d ≠ []
  /-- They are counted. -/
  uniqueOffsets_eq : s.uniqueOffsets = keys.card
  /-- All their accesses are counted. -/
  totalEntries_eq : s.totalEntries = ∑ d ∈ keys, (index.lookup d).length
  /-- As many displacements are listed as were asked for, or all of them. -/
  length_eq : s.topOffsets.length = min top s.uniqueOffsets
  /-- What is listed is a displacement that occurs, with the number of its accesses. -/
  listed : ∀ row ∈ s.topOffsets, row.1 ∈ keys ∧ row.2 = (index.lookup row.1).length
  /-- What is listed is ranked without ties. -/
  pairwise : s.topOffsets.Pairwise RanksAbove
  /-- What is left out stands below everything that is listed. -/
  above : ∀ d ∈ keys, d ∉ s.topOffsets.map (·.1) →
    ∀ row ∈ s.topOffsets, RanksAbove row (d, (index.lookup d).length)

/-- The summary of an index ranks its displacements. -/
theorem ranks_stats (index : AccessIndex) (top : Nat) :
    index.Ranks top (index.stats top) index.displacements.toFinset := by
  have hnodup : index.displacements.Nodup := Ordered.nodup_distinctNumbers _
  have hranked : ∀ row, row ∈ index.counts.mergeSort ranksBefore ↔
      index.lookup row.1 ≠ [] ∧ row.2 = (index.lookup row.1).length := by
    intro row
    rw [List.mem_mergeSort, counts_eq, List.mem_map]
    constructor
    · rintro ⟨d, hd, rfl⟩
      exact ⟨mem_displacements.mp hd, rfl⟩
    · rintro ⟨hd, hcount⟩
      exact ⟨row.1, mem_displacements.mpr hd, Prod.ext rfl hcount.symm⟩
  have hpairwise := pairwise_ranked index.nodup_counts
  refine ⟨fun d => List.mem_toFinset.trans mem_displacements, ?_, ?_, ?_, fun row hrow => ?_,
    hpairwise.sublist (List.take_sublist _ _), fun d hd hout row hrow => ?_⟩
  · rw [List.toFinset_card_of_nodup hnodup, stats, counts_eq, List.length_map]
  · rw [List.sum_toFinset _ hnodup, sum_displacements]
    rfl
  · rw [stats, List.length_take, List.length_mergeSort]
  · obtain ⟨hoccurs, hcount⟩ := (hranked row).mp (List.mem_of_mem_take hrow)
    exact ⟨List.mem_toFinset.mpr (mem_displacements.mpr hoccurs), hcount⟩
  · -- What is not listed is behind the part that is.
    have hthere := (hranked (d, (index.lookup d).length)).mpr
      ⟨mem_displacements.mp (List.mem_toFinset.mp hd), rfl⟩
    rw [← List.take_append_drop top (index.counts.mergeSort ranksBefore)] at hthere hpairwise
    refine (List.pairwise_append.mp hpairwise).2.2 row hrow _ ?_
    exact (List.mem_append.mp hthere).resolve_left fun hlisted =>
      hout (List.mem_map_of_mem (f := (·.1)) hlisted)

/-- The summary of the index of an image ranks the displacements by the number of their accesses. It
is made of the entries in whatever order they are gone through, and asking for one displacement more
only adds to the end of the list. -/
theorem stats_rank (image : Image) (bytes : Bytes) (top : Nat) :
    (∃ keys, (build image bytes).Ranks top ((build image bytes).stats top) keys) ∧
      (∀ rows, rows.Perm (build image bytes).entries →
        statsOf rows top = (build image bytes).stats top) ∧
      ((build image bytes).stats top).topOffsets <+:
        ((build image bytes).stats (top + 1)).topOffsets :=
  ⟨⟨_, ranks_stats _ top⟩,
    fun _ hperm => ((tabulates_entries _).perm hperm).statsOf_eq top,
    List.take_prefix_take_left (Nat.le_succ top)⟩

/-- Two loads from offset 16 around one from offset 32, and one from offset 8. -/
def fourLoads : Bytes :=
  #[0x48, 0x8B, 0x81, 0x10, 0, 0, 0, 0x48, 0x8B, 0x81, 0x20, 0, 0, 0,
    0x48, 0x8B, 0x81, 0x10, 0, 0, 0, 0x48, 0x8B, 0x81, 0x08, 0, 0, 0]

/-- The offsets with their loads, as they are entered. -/
def fourEntries : List (Nat × List Access) := (build twoSections fourLoads).entries

/-- The entries give the summary also when they are gone through backwards: of the two offsets with
one load, the smaller one is listed. -/
theorem stats_rank_fourLoads : fourEntries.reverse.Perm fourEntries ∧
    ((build twoSections fourLoads).stats 2).topOffsets = [(16, 2), (8, 1)] := by
  have hsame := (stats_rank twoSections fourLoads 2).2.1 _ (List.reverse_perm fourEntries)
  have hcounts : fourEntries.reverse.map count = [(8, 1), (32, 1), (16, 2)] := by decide +kernel
  refine ⟨List.reverse_perm fourEntries, ?_⟩
  rw [← hsame, statsOf, hcounts]
  simp [List.mergeSort, List.MergeSort.Internal.splitInTwo, ranksBefore]

end LayoutWatch.AccessIndex
