import LayoutWatch.Layout
import Mathlib.Data.Finset.Card
import Mathlib.Data.Finset.Range
import Mathlib.Data.Nat.Find
import Mathlib.Order.Bounds.Defs

/-!
# The walk along the bases

From a name the walk goes on to the base that the first struct of this name declares. It may have to
stop for four reasons, and the root is the first name at which it has to. In front of that name no
other one occurs twice and all of them are declared, so there are at most as many steps as structs,
whatever the bases say: they may be missing, lead back to where the walk has been, or stand in a
second struct of a name, which is never asked. Unless the walk would go round in a circle, all names
on its way have one root, and the root is its own.
-/

namespace LayoutWatch.Layout

/-- Some struct has this name. -/
def Declares (l : Layout) (name : String) : Prop := ∃ s ∈ l.structs, s.name = name

/-- The base that the first struct of a name declares. -/
def base? (l : Layout) (name : String) : Option String := (l.struct? name).bind (·.base)

/-- The name that this many steps along the bases lead to. -/
def ancestor? (l : Layout) (name : String) : Nat → Option String
  | 0 => some name
  | steps + 1 => (l.ancestor? name steps).bind l.base?

/-- The next step of the walk would lead to a name where it has been. -/
def Revisits (l : Layout) (name : String) (steps : Nat) : Prop :=
  ∃ base, l.ancestor? name (steps + 1) = some base ∧
    ∃ i ≤ steps, l.ancestor? name i = some base

/-- After this many steps the walk has to stop. -/
inductive Stops (l : Layout) (name : String) (steps : Nat) : Prop where
  /-- No struct has the name that the walk has come to. -/
  | undeclared {last : String} (hlast : l.ancestor? name steps = some last)
    (hnone : ¬l.Declares last)
  /-- The first struct of this name has no base. -/
  | baseless {last : String} {s : StructLayout} (hlast : l.ancestor? name steps = some last)
    (hstruct : l.struct? last = some s) (hbase : s.base = none)
  /-- It has a base, and no struct has the name of that. -/
  | undeclaredBase {base : String} (hbase : l.ancestor? name (steps + 1) = some base)
    (hnone : ¬l.Declares base)
  /-- It has a base where the walk has been. -/
  | revisit (h : l.Revisits name steps)

variable {l : Layout} {name last base : String} {steps : Nat}

/-- A struct of a declared name is found. -/
@[simp] theorem isSome_struct?_iff : (l.struct? name).isSome = true ↔ l.Declares name := by
  rw [struct?, List.find?_isSome, Declares]
  simp only [beq_iff_eq]

/-- A declared base is a base that is declared. -/
theorem declaredBase?_eq_some_iff :
    l.declaredBase? name = some base ↔ l.base? name = some base ∧ l.Declares base := by
  rw [declaredBase?, Option.filter_eq_some_iff, isSome_struct?_iff, base?]

/-- The step behind a name leads to its base. -/
theorem ancestor?_succ (h : l.ancestor? name steps = some last) :
    l.ancestor? name (steps + 1) = l.base? last := by
  rw [ancestor?, h, Option.bind_some]

/-- Steps from a name on the way are further steps of the walk. -/
theorem ancestor?_add (h : l.ancestor? name steps = some last) (more : Nat) :
    l.ancestor? name (steps + more) = l.ancestor? last more := by
  induction more with
  | zero => exact h
  | succ more ih => rw [Nat.add_succ, ancestor?, ancestor?, ih]

/-- The walk has to stop where the base is not declared or leads back. -/
theorem stops_iff (h : l.ancestor? name steps = some last) :
    l.Stops name steps ↔ ∀ base, l.declaredBase? last = some base →
      ∃ i ≤ steps, l.ancestor? name i = some base := by
  have hnext := ancestor?_succ h
  constructor
  · intro hstops base hbase
    have hdeclared := declaredBase?_eq_some_iff.mp hbase
    rcases hdeclared with ⟨hbase, hdeclared⟩
    cases hstops with
    | undeclared hlast hnone =>
      rw [h, Option.some.injEq] at hlast
      rw [← isSome_struct?_iff, ← hlast] at hnone
      rw [base?, Option.not_isSome_iff_eq_none.mp hnone] at hbase
      cases hbase
    | baseless hlast hstruct hnone =>
      rw [h, Option.some.injEq] at hlast
      rw [base?, hlast, hstruct, Option.bind_some, hnone] at hbase
      cases hbase
    | undeclaredBase hother hnone =>
      rw [hnext, hbase, Option.some.injEq] at hother
      rw [hother] at hdeclared
      exact absurd hdeclared hnone
    | revisit hback =>
      rcases hback with ⟨other, hother, hseen⟩
      rw [hnext, hbase, Option.some.injEq] at hother
      rw [hother]
      exact hseen
  · intro hall
    by_cases hstruct : l.Declares last
    · have hsome := Option.isSome_iff_exists.mp (isSome_struct?_iff.mpr hstruct)
      rcases hsome with ⟨s, hs⟩
      cases hbase : s.base with
      | none => exact .baseless h hs hbase
      | some base =>
        have hstep : l.base? last = some base := by rw [base?, hs, Option.bind_some, hbase]
        rw [hstep] at hnext
        by_cases hdeclared : l.Declares base
        · have hseen := hall base (declaredBase?_eq_some_iff.mpr ⟨hstep, hdeclared⟩)
          exact .revisit ⟨base, hnext, hseen⟩
        · exact .undeclaredBase hnext hdeclared
    · exact .undeclared h hstruct

/-- Where the walk does not have to stop, it goes on from a declared name to a declared base where
it has not been. -/
theorem exists_of_not_stops (h : l.ancestor? name steps = some last) (hgo : ¬l.Stops name steps) :
    l.Declares last ∧ ∃ base, l.declaredBase? last = some base ∧
      l.ancestor? name (steps + 1) = some base ∧ ∀ i ≤ steps, l.ancestor? name i ≠ some base := by
  have hdeclared : l.Declares last := by
    by_contra hnone
    exact hgo (.undeclared h hnone)
  rw [stops_iff h] at hgo
  push Not at hgo
  rcases hgo with ⟨base, hbase, hfresh⟩
  have hnext : l.ancestor? name (steps + 1) = some base := by
    rw [ancestor?_succ h, (declaredBase?_eq_some_iff.mp hbase).1]
  exact ⟨hdeclared, base, hbase, hnext, hfresh⟩

/-- As long as the walk does not have to stop, it gets somewhere. -/
theorem exists_ancestor? (hgo : ∀ i < steps, ¬l.Stops name i) :
    ∃ last, l.ancestor? name steps = some last := by
  induction steps with
  | zero => exact ⟨name, rfl⟩
  | succ steps ih =>
    have hsome := ih fun i hi => hgo i (Nat.lt_succ_of_lt hi)
    rcases hsome with ⟨last, hlast⟩
    have hnext := exists_of_not_stops hlast (hgo steps (Nat.lt_succ_self steps))
    rcases hnext with ⟨-, base, -, hbase, -⟩
    exact ⟨base, hbase⟩

/-- As long as the walk does not have to stop, it comes to declared names. -/
theorem exists_declared (hgo : ∀ i ≤ steps, ¬l.Stops name i) :
    ∃ last, l.ancestor? name steps = some last ∧ l.Declares last := by
  have hsome := exists_ancestor? fun i hi => hgo i (Nat.le_of_lt hi)
  rcases hsome with ⟨last, hlast⟩
  exact ⟨last, hlast, (exists_of_not_stops hlast (hgo steps (Nat.le_refl steps))).1⟩

/-- As long as the walk does not have to stop, it comes to no name again. -/
theorem ancestor?_ne (hgo : ∀ i < steps, ¬l.Stops name i) {earlier : Nat} (hlt : earlier < steps) :
    l.ancestor? name earlier ≠ l.ancestor? name steps := by
  obtain ⟨previous, rfl⟩ : ∃ previous, steps = previous + 1 := ⟨steps - 1, by omega⟩
  have hsome := exists_ancestor? fun i hi => hgo i (Nat.lt_succ_of_lt hi)
  rcases hsome with ⟨last, hlast⟩
  have hnext := exists_of_not_stops hlast (hgo previous (Nat.lt_succ_self previous))
  rcases hnext with ⟨-, base, -, hbase, hnew⟩
  rw [hbase]
  exact hnew earlier (Nat.le_of_lt_succ hlt)

/-- The walk has to stop after at most as many steps as there are structs: until then it comes to
declared names, and to a new one with each step. -/
theorem exists_stops (l : Layout) (name : String) :
    ∃ steps ≤ l.structs.length, l.Stops name steps := by
  by_contra hnever
  push Not at hnever
  let names := (l.structs.map fun s => some s.name).toFinset
  have hcard : names.card ≤ l.structs.length := by
    have hle := List.toFinset_card_le (l.structs.map fun s => some s.name)
    rwa [List.length_map] at hle
  have hgo : ∀ i < l.structs.length + 1, ∀ j ≤ i, ¬l.Stops name j := fun i hi j hj =>
    hnever j (Nat.le_trans hj (Nat.le_of_lt_succ hi))
  have hdeclared : ∀ i ∈ Finset.range (l.structs.length + 1), l.ancestor? name i ∈ names := by
    intro i hi
    have hstruct := exists_declared (hgo i (Finset.mem_range.mp hi))
    rcases hstruct with ⟨last, hlast, s, hs, rfl⟩
    rw [hlast]
    exact List.mem_toFinset.mpr (List.mem_map.mpr ⟨s, hs, rfl⟩)
  have hinjective : Set.InjOn (l.ancestor? name) (Finset.range (l.structs.length + 1)) := by
    intro i hi j hj heq
    have hi' := hgo i (Finset.mem_range.mp hi)
    have hj' := hgo j (Finset.mem_range.mp hj)
    rcases Nat.lt_trichotomy i j with hlt | hsame | hgt
    · exact absurd heq (ancestor?_ne (fun m hm => hj' m (Nat.le_of_lt hm)) hlt)
    · exact hsame
    · exact absurd heq.symm (ancestor?_ne (fun m hm => hi' m (Nat.le_of_lt hm)) hgt)
  have hmany := Finset.card_le_card_of_injOn _ hdeclared hinjective
  rw [Finset.card_range] at hmany
  omega

/-- There is a first time at which the walk has to stop. -/
theorem exists_isLeast_stops (l : Layout) (name : String) :
    ∃ steps ≤ l.structs.length, IsLeast {i | l.Stops name i} steps := by
  classical
  have hstops := exists_stops l name
  have hsome : ∃ steps, l.Stops name steps := by
    rcases hstops with ⟨steps, -, hsteps⟩
    exact ⟨steps, hsteps⟩
  rcases hstops with ⟨bound, hbound, hat⟩
  refine ⟨Nat.find hsome, Nat.le_trans (Nat.find_min' hsome hat) hbound, Nat.find_spec hsome, ?_⟩
  intro i hi
  exact Nat.find_min' hsome hi

/-- The names that the walk has seen are those of all steps so far. -/
def HasSeen (l : Layout) (name : String) (steps : Nat) (seen : List String) : Prop :=
  ∀ n, n ∈ seen ↔ ∃ i ≤ steps, l.ancestor? name i = some n

/-- At first the walk has seen the name from which it starts. -/
theorem hasSeen_start (l : Layout) (name : String) : l.HasSeen name 0 [name] := by
  intro n
  rw [List.mem_singleton]
  constructor
  · rintro rfl
    exact ⟨0, Nat.le_refl 0, rfl⟩
  · rintro ⟨i, hi, hn⟩
    obtain rfl : i = 0 := Nat.le_zero.mp hi
    exact (Option.some.inj hn).symm

/-- With each step the walk has seen one more name. -/
theorem HasSeen.step {seen : List String} (h : l.HasSeen name steps seen)
    (hstep : l.ancestor? name (steps + 1) = some base) :
    l.HasSeen name (steps + 1) (base :: seen) := by
  intro n
  rw [List.mem_cons, h n]
  constructor
  · rintro (rfl | ⟨i, hi, hn⟩)
    · exact ⟨steps + 1, Nat.le_refl _, hstep⟩
    · exact ⟨i, Nat.le_succ_of_le hi, hn⟩
  · rintro ⟨i, hi, hn⟩
    rcases Nat.le_succ_iff.mp hi with hi | rfl
    · exact .inr ⟨i, hi, hn⟩
    · rw [hstep, Option.some.injEq] at hn
      exact .inl hn.symm

/-- In front of names that it has seen the walk stays where it is. -/
theorem rootFrom_of_seen {seen : List String}
    (h : ∀ base, l.declaredBase? last = some base → base ∈ seen) : l.rootFrom seen last = last := by
  rw [rootFrom]
  split
  · rfl
  · next base hbase => rw [if_pos (List.contains_iff_mem.mpr (h base hbase))]

/-- In front of a declared name that it has not seen the walk goes on. -/
theorem rootFrom_of_new {seen : List String} (h : l.declaredBase? last = some base)
    (hnew : base ∉ seen) : l.rootFrom seen last = l.rootFrom (base :: seen) base := by
  rw [rootFrom]
  split
  · next hnone =>
    rw [hnone] at h
    cases h
  · next other hother =>
    rw [h, Option.some.injEq] at hother
    rw [← hother, if_neg (mt List.contains_iff_mem.mp hnew)]

/-- The walk goes from name to name as long as it does not have to stop. -/
theorem ancestor?_rootFrom {k : Nat} (hk : IsLeast {i | l.Stops name i} k) {seen : List String}
    (hsteps : steps ≤ k) (hlast : l.ancestor? name steps = some last)
    (hseen : l.HasSeen name steps seen) :
    l.ancestor? name k = some (l.rootFrom seen last) := by
  -- The steps that are left until the stop.
  obtain ⟨left, hleft⟩ : ∃ left, k = steps + left := ⟨k - steps, by omega⟩
  induction left generalizing steps last seen with
  | zero =>
    obtain rfl : k = steps := hleft
    have hstop := (stops_iff hlast).mp hk.1
    rw [rootFrom_of_seen fun base hbase => (hseen base).mpr (hstop base hbase)]
    exact hlast
  | succ left ih =>
    have hgo : ¬l.Stops name steps := fun hstop => by
      have hle := hk.2 hstop
      omega
    have hnext := exists_of_not_stops hlast hgo
    rcases hnext with ⟨-, base, hbase, hstep, hfresh⟩
    have hnew : base ∉ seen := by
      rw [hseen base]
      rintro ⟨i, hi, hback⟩
      exact hfresh i hi hback
    rw [rootFrom_of_new hbase hnew]
    exact ih (by omega) hstep (hseen.step hstep) (by omega)

/-- The root is the first name at which the walk has to stop. -/
theorem ancestor?_root {k : Nat} (hk : IsLeast {i | l.Stops name i} k) :
    l.ancestor? name k = some (l.root name) :=
  ancestor?_rootFrom hk (Nat.zero_le k) rfl (hasSeen_start l name)

/-- Where the walk from a name on the way has to stop, the whole walk has to stop too. -/
theorem Stops.of_ancestor? (h : l.ancestor? name steps = some last) {more : Nat}
    (hstops : l.Stops last more) : l.Stops name (steps + more) := by
  cases hstops with
  | undeclared hlast hnone => exact .undeclared ((ancestor?_add h more).trans hlast) hnone
  | baseless hlast hstruct hbase =>
    exact .baseless ((ancestor?_add h more).trans hlast) hstruct hbase
  | undeclaredBase hbase hnone =>
    exact .undeclaredBase ((ancestor?_add h (more + 1)).trans hbase) hnone
  | revisit hback =>
    rcases hback with ⟨base, hbase, i, hi, hseen⟩
    exact .revisit ⟨base, (ancestor?_add h (more + 1)).trans hbase, steps + i,
      Nat.add_le_add_left hi steps, (ancestor?_add h i).trans hseen⟩

/-- Where the whole walk has to stop and does not go round in a circle, the walk from a name on the
way has to stop too. -/
theorem Stops.from_ancestor? (h : l.ancestor? name steps = some last) {more : Nat}
    (hstops : l.Stops name (steps + more)) (hline : ¬l.Revisits name (steps + more)) :
    l.Stops last more := by
  cases hstops with
  | undeclared hlast hnone => exact .undeclared ((ancestor?_add h more).symm.trans hlast) hnone
  | baseless hlast hstruct hbase =>
    exact .baseless ((ancestor?_add h more).symm.trans hlast) hstruct hbase
  | undeclaredBase hbase hnone =>
    exact .undeclaredBase ((ancestor?_add h (more + 1)).symm.trans hbase) hnone
  | revisit hback => exact absurd hback hline

/-- Unless the walk would go round in a circle, a name on its way has the root of the whole walk. -/
theorem root_of_ancestor? {k : Nat} (hk : IsLeast {i | l.Stops name i} k)
    (hline : ¬l.Revisits name k) (hsteps : steps ≤ k) (h : l.ancestor? name steps = some last) :
    l.root last = l.root name := by
  obtain ⟨left, rfl⟩ : ∃ left, k = steps + left := ⟨k - steps, by omega⟩
  have hleast : IsLeast {i | l.Stops last i} left := by
    refine ⟨Stops.from_ancestor? h hk.1 hline, fun i hi => ?_⟩
    have hle := hk.2 (Stops.of_ancestor? h hi)
    omega
  have hroot := ancestor?_root hleast
  rw [← ancestor?_add h, ancestor?_root hk] at hroot
  exact (Option.some.inj hroot).symm

/-- The base of a struct is its root if it has no declared base itself. -/
theorem root_of_base (h : l.declaredBase? name = some base) (htop : l.declaredBase? base = none) :
    l.root name = base := by
  have hne : base ≠ name := by
    rintro rfl
    rw [htop] at h
    cases h
  have hstays : ∀ other, l.declaredBase? base = some other → other ∈ [base, name] := by
    rw [htop]
    exact fun other hother => nomatch hother
  rw [root, rootFrom_of_new h (mt List.mem_singleton.mp hne), rootFrom_of_seen hstays]

/-- The walk from any name has to stop after at most as many steps as there are structs, and the
root is the name at which it first has to. If it does not stop in front of a name where it has
been, all names on its way have this root, and the root has itself. -/
theorem root_endsWalk (l : Layout) (name : String) :
    ∃ k ≤ l.structs.length, IsLeast {i | l.Stops name i} k ∧
      l.ancestor? name k = some (l.root name) ∧
      (¬l.Revisits name k →
        (∀ i ≤ k, ∃ n, l.ancestor? name i = some n ∧ l.root n = l.root name) ∧
          l.root (l.root name) = l.root name) := by
  have hleast := exists_isLeast_stops l name
  rcases hleast with ⟨k, hbound, hk⟩
  have hroot := ancestor?_root hk
  refine ⟨k, hbound, hk, hroot, fun hline => ⟨fun i hi => ?_, ?_⟩⟩
  · have hgo : ∀ j < i, ¬l.Stops name j := fun j hj hstops => by
      have hle := hk.2 hstops
      omega
    have hsome := exists_ancestor? hgo
    rcases hsome with ⟨n, hn⟩
    exact ⟨n, hn, root_of_ancestor? hk hline hi hn⟩
  · exact root_of_ancestor? hk hline (Nat.le_refl k) hroot

/-- Three families: `Foo` leads over `Bar` to a base that nobody declares, and the second listing of
`Foo` is never asked; `A` and `B` are bases of each other; `Own` is its own base. -/
def tangled : Layout :=
  ⟨"1", none, [⟨"Foo", some "Bar", none, [], [], []⟩, ⟨"Bar", some "Gone", none, [], [], []⟩,
    ⟨"Foo", some "A", none, [], [], []⟩, ⟨"A", some "B", none, [], [], []⟩,
    ⟨"B", some "A", none, [], [], []⟩, ⟨"Own", some "Own", none, [], [], []⟩]⟩

/-- The walk from `Foo` stops at `Bar`, in front of the base that nobody declares, and `Bar` is the
root of both. -/
theorem root_endsWalk_tangled :
    IsLeast {i | tangled.Stops "Foo" i} 1 ∧ ¬tangled.Revisits "Foo" 1 ∧
      tangled.root "Foo" = "Bar" ∧ tangled.root "Bar" = "Bar" := by
  have hwalk := root_endsWalk tangled "Foo"
  rcases hwalk with ⟨k, -, hk, hroot, hshared⟩
  have hnone : ¬tangled.Declares "Gone" := by
    rw [← isSome_struct?_iff]
    decide
  have hstop : tangled.Stops "Foo" 1 := .undeclaredBase rfl hnone
  have hgo : ¬tangled.Stops "Foo" 0 := by
    intro hstops
    have hback := (stops_iff rfl).mp hstops "Bar" (by decide)
    rcases hback with ⟨i, hi, hseen⟩
    obtain rfl : i = 0 := Nat.le_zero.mp hi
    exact absurd hseen (by decide)
  have hle : k ≤ 1 := hk.2 hstop
  have hne : k ≠ 0 := fun hzero => hgo (hzero ▸ hk.1)
  obtain rfl : k = 1 := by omega
  have hline : ¬tangled.Revisits "Foo" 1 := by
    rintro ⟨base, hbase, i, hi, hseen⟩
    have hnew : ∀ i ≤ 1, tangled.ancestor? "Foo" i ≠ tangled.ancestor? "Foo" 2 := by decide
    exact hnew i hi (hseen.trans hbase.symm)
  have hbar : tangled.root "Foo" = "Bar" := (Option.some.inj hroot).symm
  have hfixed := (hshared hline).2
  rw [hbar] at hfixed
  exact ⟨hk, hline, hbar, hfixed⟩

end LayoutWatch.Layout
