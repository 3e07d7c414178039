import LayoutWatch.Proofs.Command.Work
import LayoutWatch.Proofs.Files.Writing

/-!
# Opening a registry of any version

A fault tells which versions a registry may have. A newer registry is refused and left alone, and
one of the range is brought up to the current form: its tables are kept with all their rows, and
the tables that it lacks are added. A version below the range is brought up as well.
-/

namespace LayoutWatch.Project.Registry

/-! ## The current form -/

/-- The tables that belong to the version of a registry are there. -/
structure HasTables (r : Registry) : Prop where
  /-- Binaries came with the first version. -/
  binaries : 1 ≤ r.version → r.binaries.isSome
  /-- Scans came with the second version. -/
  scans : 2 ≤ r.version → r.scans.isSome

/-- The version of a registry is in the range that a fault tells. -/
def IsSupported (r : Registry) : Prop := oldestVersion ≤ r.version ∧ r.version ≤ currentVersion

/-- The current form of a registry. Its tables are kept, and those that it lacks have no rows. -/
def upgraded (r : Registry) : Registry where
  version := currentVersion
  binaries := some (r.binaries.getD .empty)
  scans := some (r.scans.getD .empty)

/-- A registry whose version is not too new is brought up to the current form. -/
theorem migrate_eq_upgraded {r : Registry} (htables : r.HasTables)
    (h : r.version ≤ currentVersion) : r.migrate = .ok r.upgraded := by
  have hbinaries : (if r.version < 1 then some (r.binaries.getD .empty) else r.binaries) =
      some (r.binaries.getD .empty) := by
    split
    · rfl
    · next hold =>
      obtain ⟨t, ht⟩ := Option.isSome_iff_exists.mp (htables.binaries (by omega))
      rw [ht, Option.getD_some]
  have hscans : (if r.version < 2 then some (r.scans.getD .empty) else r.scans) =
      some (r.scans.getD .empty) := by
    split
    · rfl
    · next hold =>
      obtain ⟨t, ht⟩ := Option.isSome_iff_exists.mp (htables.scans (by omega))
      rw [ht, Option.getD_some]
  rw [migrate, if_neg (by omega), hbinaries, hscans, upgraded]

/-- A registry whose version is too new is refused. -/
theorem migrate_eq_error {r : Registry} (h : currentVersion < r.version) :
    r.migrate = .error (.unsupportedVersion r.version) := by
  rw [migrate, if_pos h]

/-- The current form is brought up to itself. -/
@[simp] theorem migrate_upgraded (r : Registry) : r.upgraded.migrate = .ok r.upgraded := rfl

/-! ## Opening -/

variable {w w' : FileWorld} {path : String} {r current : Registry}

/-- What opening the registry at a path gives, and the files afterwards. -/
def opening (w : FileWorld) (path : String) : Except Fault Registry × FileWorld :=
  (FileSystem.openRegistry path : StateM FileWorld _).run w

/-- A registry that is refused is left as it is. -/
theorem opening_eq_error (hread : w.tree.readRegistry w.workingFolder path = .ok r)
    (h : currentVersion < r.version) :
    opening w path = (.error (.unsupportedVersion r.version), w) := by
  have hrun : (FileSystem.readRegistry path : StateM FileWorld _).run w =
      (w.tree.readRegistry w.workingFolder path, w) := rfl
  rw [opening, FileSystem.openRegistry, Command.Work.run_bind, hrun, hread]
  dsimp only
  rw [migrate_eq_error h]
  rfl

/-- A registry that is brought up to another form is kept in that form where it was. -/
theorem opening_eq_ok (hread : w.tree.readRegistry w.workingFolder path = .ok r)
    (hmigrate : r.migrate = .ok current) :
    ∃ l, w.tree.KeepsRegistry w.workingFolder path l ∧
      opening w path = (.ok current, { w with tree := w.tree.put l (.registry current) }) := by
  obtain ⟨l, hl⟩ := FileTree.exists_keepsRegistry hread
  have hopen := Command.Work.completes_openRegistry.mpr
    ⟨r, _, hread, hmigrate, hl.writeRegistry_eq current, rfl⟩
  exact ⟨l, hl, Command.Work.completes_ofAction.mp hopen⟩

/-- Opening the registry at a path does what its documentation tells. -/
structure OpensAsTold (w : FileWorld) (path : String) (r : Registry) : Prop where
  /-- It is opened exactly if its version is in the range. -/
  opens_iff : (∃ current w', opening w path = (.ok current, w')) ↔ r.IsSupported
  /-- Otherwise its version is told, and nothing is changed. -/
  refused : ¬r.IsSupported → opening w path = (.error (.unsupportedVersion r.version), w)
  /-- It is opened in the current form. -/
  upgraded : ∀ current w', opening w path = (.ok current, w') → current = r.upgraded
  /-- It is kept in that form at its place, and all else stays. -/
  kept : ∀ current w', opening w path = (.ok current, w') →
    w'.tree.readRegistry w'.workingFolder path = .ok current ∧
      ∀ l, w.tree.registryLocation w.workingFolder path ≠ some l →
        w'.tree.node? l = w.tree.node? l
  /-- Opening it again changes nothing. -/
  reopens : ∀ current w', opening w path = (.ok current, w') →
    opening w' path = (.ok current, w')

/-- A registry of any version that is not too new is opened in the current form, and stays so. -/
theorem exists_opening (hread : w.tree.readRegistry w.workingFolder path = .ok r)
    (htables : r.HasTables) (h : r.version ≤ currentVersion) :
    ∃ w', opening w path = (.ok r.upgraded, w') ∧ opening w' path = (.ok r.upgraded, w') ∧
      w'.tree.readRegistry w'.workingFolder path = .ok r.upgraded ∧
      ∀ l, w.tree.registryLocation w.workingFolder path ≠ some l →
        w'.tree.node? l = w.tree.node? l := by
  obtain ⟨l, hl, hopen⟩ := opening_eq_ok hread (migrate_eq_upgraded htables h)
  have hagain := hl.readRegistry_put r.upgraded
  refine ⟨_, hopen, ?_, hagain, fun other hother => hl.node?_eq_of_ne _ ?_⟩
  · obtain ⟨place, hplace, hreopen⟩ :=
      opening_eq_ok (w := ⟨w.tree.put l (.registry r.upgraded), w.workingFolder, w.now⟩) hagain
        (migrate_upgraded r)
    have hlocation := hl.location_put r.upgraded
    obtain rfl : l = place := Option.some.inj (hlocation.symm.trans hplace.location_eq)
    rw [FileTree.put_put] at hreopen
    exact hreopen
  · rintro rfl
    exact hother hl.location_eq

/-- A registry with the tables of its version is opened as told exactly if its version is not
below the range. -/
theorem opensAsTold_iff (hread : w.tree.readRegistry w.workingFolder path = .ok r)
    (htables : r.HasTables) : OpensAsTold w path r ↔ oldestVersion ≤ r.version := by
  constructor
  · intro h
    by_contra hold
    -- A version below the range is opened all the same.
    have hrange : oldestVersion ≤ currentVersion := by decide
    obtain ⟨w', hopen, -⟩ := exists_opening hread htables (by omega)
    exact hold (h.opens_iff.mp ⟨_, w', hopen⟩).1
  · intro hold
    by_cases hnew : r.version ≤ currentVersion
    · obtain ⟨w', hopen, hagain, hkept, hsame⟩ := exists_opening hread htables hnew
      have hresult : ∀ current other, opening w path = (.ok current, other) →
          current = r.upgraded ∧ other = w' := by
        intro current other h
        rw [hopen] at h
        cases h
        exact ⟨rfl, rfl⟩
      refine ⟨⟨fun _ => ⟨hold, hnew⟩, fun _ => ⟨_, w', hopen⟩⟩, fun h => absurd ⟨hold, hnew⟩ h,
        fun current other h => (hresult current other h).1, ?_, ?_⟩
      · intro current other h
        obtain ⟨rfl, rfl⟩ := hresult current other h
        exact ⟨hkept, hsame⟩
      · intro current other h
        obtain ⟨rfl, rfl⟩ := hresult current other h
        exact hagain
    · have hrefused := opening_eq_error hread (Int.not_le.mp hnew)
      have hnever : ∀ current w', opening w path ≠ (.ok current, w') := by
        intro current w' h
        rw [hrefused] at h
        cases h
      refine ⟨⟨?_, fun h => absurd h.2 hnew⟩, fun _ => hrefused,
        fun _ _ h => absurd h (hnever _ _), fun _ _ h => absurd h (hnever _ _),
        fun _ _ h => absurd h (hnever _ _)⟩
      rintro ⟨current, w', h⟩
      exact absurd h (hnever current w')

/-! ## Registries of older versions -/

/-- A registry of the first version, with a binary. -/
def firstVersion : Registry := ⟨1, some (Table.empty.insert (.new "a" "bin/a.exe")), none⟩

/-- A registry whose version is below the range. -/
def belowRange : Registry := ⟨-1, none, none⟩

/-- Nothing but a registry is there. -/
def alone (r : Registry) : FileWorld := ⟨⟨[(["project.db"], .registry r)]⟩, "/", ""⟩

/-- The registry is read from its place. -/
theorem readRegistry_alone (r : Registry) :
    (alone r).tree.readRegistry (alone r).workingFolder "project.db" = .ok r := by
  have hsegments : FileTree.segmentsFrom "/" "project.db" = ["project.db"] := by decide +kernel
  have hl : (alone r).tree.registryLocation (alone r).workingFolder "project.db" =
      some ["project.db"] := by
    simp [alone, FileTree.registryLocation, hsegments, FileTree.straighten, FileTree.follow,
      FileTree.node?, Except.toOption]
  rw [FileTree.readRegistry, hl]
  rfl

/-- A registry of the first version is opened as told. -/
theorem opensAsTold_firstVersion :
    firstVersion.HasTables ∧ OpensAsTold (alone firstVersion) "project.db" firstVersion := by
  have htables : firstVersion.HasTables := ⟨by decide, by decide⟩
  exact ⟨htables, (opensAsTold_iff (readRegistry_alone _) htables).mpr (by decide)⟩

/-- A registry whose version is below the range is opened, and not refused. -/
theorem not_opensAsTold_belowRange :
    (alone belowRange).tree.readRegistry (alone belowRange).workingFolder "project.db" =
        .ok belowRange ∧
      belowRange.HasTables ∧ ¬belowRange.IsSupported ∧
      (∃ w', opening (alone belowRange) "project.db" = (.ok belowRange.upgraded, w')) ∧
      ¬OpensAsTold (alone belowRange) "project.db" belowRange := by
  have htables : belowRange.HasTables := ⟨by decide, by decide⟩
  have hbelow : ¬belowRange.IsSupported := fun h => absurd h.1 (by decide)
  obtain ⟨w', hopen, -⟩ := exists_opening (readRegistry_alone belowRange) htables (by decide)
  exact ⟨readRegistry_alone _, htables, hbelow, ⟨w', hopen⟩,
    fun h => hbelow (h.opens_iff.mp ⟨_, w', hopen⟩)⟩

end LayoutWatch.Project.Registry
