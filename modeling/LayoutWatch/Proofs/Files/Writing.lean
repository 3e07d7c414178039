import LayoutWatch.Proofs.Files.Tree

/-!
# What writing changes

A file is written at one location, where no folder stands, and is read back from the same path. So
is a registry.
Folders are made where nothing stands. All else stays as it was, and so does the way to every
location that could be reached before.
-/

namespace LayoutWatch.FileTree

variable {t t' : FileTree} {l l' : Location} {folder path : String}

/-! ## Ways -/

/-- Every folder of one tree is a folder of another one. -/
def FoldersStay (t t' : FileTree) : Prop :=
  ∀ p, t.node? p = some .folder → t'.node? p = some .folder

/-- Folders stay where something is put in place of no folder. -/
theorem foldersStay_put (hne : l ≠ []) (hfree : t.node? l ≠ some .folder) (n : FileNode) :
    FoldersStay t (t.put l n) := by
  intro p hp
  have hother : p ≠ l := by
    rintro rfl
    exact hfree hp
  rw [node?_put hne, if_neg hother, hp]

/-- A path that leads to a location goes on leading there as long as folders stay. -/
theorem locate_mono (hstay : FoldersStay t t') (h : t.locate folder path = .ok l) :
    t'.locate folder path = .ok l := by
  rw [locate] at h ⊢
  split at h
  · cases h
  · next hpath =>
    rw [if_neg hpath]
    exact follow_mono hstay h

/-- A registry goes on being kept at its location as long as folders stay. -/
theorem registryLocation_mono (hstay : FoldersStay t t')
    (h : t.registryLocation folder path = some l) : t'.registryLocation folder path = some l := by
  rw [registryLocation, follow_mono hstay (follow_of_registryLocation h)]
  rfl

/-! ## Files -/

/-- A file is written at the location that its path leads to, where no folder stands. -/
theorem exists_put_of_write {bytes : Bytes} (h : t.write folder path bytes = .ok t') :
    ∃ l, t.locate folder path = .ok l ∧ l ≠ [] ∧ t.node? l ≠ some .folder ∧
      t' = t.put l (.file bytes) := by
  obtain ⟨l, htarget, rfl⟩ : ∃ l, t.target folder path = .ok l ∧ t' = t.put l (.file bytes) := by
    rw [write] at h
    cases htarget : t.target folder path with
    | error fault =>
      rw [htarget] at h
      cases h
    | ok l =>
      rw [htarget] at h
      cases h
      exact ⟨l, rfl, rfl⟩
  rw [target] at htarget
  split at htarget
  · cases hfollow : t.follow [] (segmentsFrom folder path).dropLast with
    | error fault =>
      rw [hfollow] at htarget
      cases htarget
    | ok place =>
      rw [hfollow] at htarget
      cases htarget
  · cases hlocate : t.locate folder path with
    | error fault =>
      rw [hlocate] at htarget
      cases htarget
    | ok place =>
      rw [hlocate, ok_bind] at htarget
      split at htarget
      · cases htarget
      · next hfree =>
        cases htarget
        have hroot : l ≠ [] := by
          rintro rfl
          exact hfree t.node?_root
        exact ⟨l, rfl, hroot, hfree, rfl⟩

/-- What is written to a file is read from it. -/
theorem read_write {bytes : Bytes} (h : t.write folder path bytes = .ok t') :
    t'.read folder path = .ok bytes := by
  obtain ⟨l, hlocate, hne, hfree, rfl⟩ := exists_put_of_write h
  have hthere : (t.put l (.file bytes)).node? l = some (.file bytes) := by
    rw [node?_put hne, if_pos rfl]
  rw [read_eq (locate_mono (foldersStay_put hne hfree _) hlocate) hthere]
  rfl

/-! ## Registries -/

/-- A registry is kept at a location, or can be. -/
structure KeepsRegistry (t : FileTree) (folder path : String) (l : Location) : Prop where
  /-- The path of the registry leads there. -/
  location_eq : t.registryLocation folder path = some l
  /-- No folder stands there. -/
  not_folder : t.node? l ≠ some .folder

/-- A registry is read from where it stands. -/
theorem readRegistry_of_registry {kept : Project.Registry}
    (hl : t.registryLocation folder path = some l) (hn : t.node? l = some (.registry kept)) :
    t.readRegistry folder path = .ok kept := by
  rw [readRegistry, hl]
  dsimp only
  rw [hn]

/-- From another file only a fresh registry is read, if the file is empty. -/
theorem readRegistry_of_file {bytes : Bytes} (hl : t.registryLocation folder path = some l)
    (hn : t.node? l = some (.file bytes)) :
    t.readRegistry folder path = if bytes.isEmpty then .ok .fresh else .error .unusable := by
  rw [readRegistry, hl]
  dsimp only
  rw [hn]

/-- A registry that can be read is kept somewhere. -/
theorem exists_keepsRegistry {stored : Project.Registry}
    (h : t.readRegistry folder path = .ok stored) : ∃ l, t.KeepsRegistry folder path l := by
  cases hl : t.registryLocation folder path with
  | none =>
    simp only [readRegistry, hl] at h
    cases h
  | some l =>
    simp only [readRegistry, hl] at h
    refine ⟨l, hl, fun hfolder => ?_⟩
    rw [hfolder] at h
    cases h

namespace KeepsRegistry

/-- No registry is kept at the root. -/
theorem ne_root (h : t.KeepsRegistry folder path l) : l ≠ [] := by
  rintro rfl
  exact h.not_folder t.node?_root

/-- A registry is put where it is kept. -/
theorem writeRegistry_eq (h : t.KeepsRegistry folder path l) (kept : Project.Registry) :
    t.writeRegistry folder path kept = .ok (t.put l (.registry kept)) := by
  rw [writeRegistry, h.location_eq]

/-- Folders stay where a registry is put. -/
theorem foldersStay (h : t.KeepsRegistry folder path l) (kept : Project.Registry) :
    FoldersStay t (t.put l (.registry kept)) :=
  foldersStay_put h.ne_root h.not_folder _

/-- The registry that was put at the location stands there. -/
theorem node?_eq (h : t.KeepsRegistry folder path l) (kept : Project.Registry) :
    (t.put l (.registry kept)).node? l = some (.registry kept) := by
  rw [node?_put h.ne_root, if_pos rfl]

/-- Elsewhere all is as it was. -/
theorem node?_eq_of_ne (h : t.KeepsRegistry folder path l) (kept : Project.Registry)
    (hother : l' ≠ l) : (t.put l (.registry kept)).node? l' = t.node? l' := by
  rw [node?_put h.ne_root, if_neg hother]

/-- The path goes on leading to the location after a registry was put there. -/
theorem location_put (h : t.KeepsRegistry folder path l) (kept : Project.Registry) :
    (t.put l (.registry kept)).registryLocation folder path = some l :=
  registryLocation_mono (h.foldersStay kept) h.location_eq

/-- A registry is read from where it was put. -/
theorem readRegistry_put (h : t.KeepsRegistry folder path l) (kept : Project.Registry) :
    (t.put l (.registry kept)).readRegistry folder path = .ok kept :=
  readRegistry_of_registry (h.location_put kept) (h.node?_eq kept)

end KeepsRegistry

/-! ## Folders -/

/-- The trees differ at most in folders that stand in the second one where nothing stands in the
first one. -/
def OnlyAddsFolders (t t' : FileTree) : Prop :=
  ∀ l, t'.node? l = t.node? l ∨ (t.node? l = none ∧ t'.node? l = some .folder)

/-- A tree that only got more folders has all the folders that it had. -/
theorem OnlyAddsFolders.foldersStay (h : OnlyAddsFolders t t') : FoldersStay t t' := by
  intro p hp
  rcases h p with hsame | ⟨hnone, -⟩
  · rw [hsame, hp]
  · rw [hp] at hnone
    cases hnone

/-- What stands somewhere stays there while folders are made. -/
theorem OnlyAddsFolders.node?_eq (h : OnlyAddsFolders t t') {n : FileNode}
    (hn : t.node? l = some n) : t'.node? l = some n := by
  rcases h l with hsame | ⟨hnone, -⟩
  · rw [hsame, hn]
  · rw [hn] at hnone
    cases hnone

/-- Making folders along segments makes nothing but folders. -/
theorem onlyAddsFolders_makeAlong (t : FileTree) (l : Location) (segments : List String) :
    OnlyAddsFolders t (t.makeAlong l segments).1 := by
  induction segments generalizing t l with
  | nil => exact fun _ => .inl rfl
  | cons segment rest ih =>
    rw [makeAlong]
    split
    · exact ih t l
    · split
      · exact ih t l.dropLast
      · have hne : l ++ [segment] ≠ [] := by simp
        split
        · next hfree =>
          intro p
          have hput := node?_put (t := t) hne .folder p
          rcases ih (t.put (l ++ [segment]) .folder) (l ++ [segment]) p with hsame | ⟨hnone, hmade⟩
          · by_cases hp : p = l ++ [segment]
            · rw [if_pos hp] at hput
              exact .inr ⟨hp ▸ hfree, hsame.trans hput⟩
            · rw [if_neg hp] at hput
              exact .inl (hsame.trans hput)
          · by_cases hp : p = l ++ [segment]
            · rw [hput, if_pos hp] at hnone
              cases hnone
            · rw [hput, if_neg hp] at hnone
              exact .inr ⟨hnone, hmade⟩
        · exact ih t (l ++ [segment])
        · exact fun _ => .inl rfl
        · exact fun _ => .inl rfl

/-- Making a folder makes nothing but folders. -/
theorem onlyAddsFolders_makeFolders (t : FileTree) (folder path : String) :
    OnlyAddsFolders t (t.makeFolders folder path).1 := by
  rw [makeFolders]
  split
  · exact fun _ => .inl rfl
  · exact onlyAddsFolders_makeAlong t [] _

end LayoutWatch.FileTree
