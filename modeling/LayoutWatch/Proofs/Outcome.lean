import Mathlib.Data.List.Forall2

/-!
# Computations that may fail

A computation in steps succeeds exactly when each step does, and fails with the fault of the first
step that does not. So a list is worked off exactly when each of its elements is, and otherwise up
to the first element with a fault.
-/

namespace LayoutWatch

/-! ## Two steps -/

section Steps

variable {α β ε : Type}

/-- What goes well is gone on from. -/
@[simp] theorem ok_bind (a : α) (next : α → Except ε β) : (Except.ok a >>= next) = next a := rfl

/-- What fails is not gone on from. -/
@[simp] theorem error_bind (fault : ε) (next : α → Except ε β) :
    (Except.error fault >>= next) = .error fault := rfl

/-- A result that is there is a success. -/
@[simp] theorem pure_eq_ok (a : α) : (pure a : Except ε α) = .ok a := rfl

/-- A computation in two steps succeeds exactly when both steps do. -/
theorem bind_eq_ok_iff {first : Except ε α} {next : α → Except ε β} {result : β} :
    first >>= next = .ok result ↔ ∃ value, first = .ok value ∧ next value = .ok result := by
  cases first <;> simp

/-- Two branches that go on in the same way do so behind the choice. -/
theorem ite_bind_eq {condition : Prop} [Decidable condition] {yes no : Except ε α}
    {next : α → Except ε β} :
    (if condition then yes >>= next else no >>= next) =
      (if condition then yes else no) >>= next := by
  split <;> rfl

end Steps

/-! ## Lists without a fault -/

section Lists

variable {α β ε : Type} {f : α → Except ε β} {l : List α}

/-- A list is worked off without a fault exactly when each element is. -/
theorem mapM_eq_ok_iff {results : List β} :
    l.mapM f = .ok results ↔ List.Forall₂ (fun a b => f a = .ok b) l results := by
  induction l generalizing results with
  | nil => cases results <;> simp
  | cons a rest ih =>
    simp only [List.mapM_cons, bind_eq_ok_iff, ih, pure_eq_ok, Except.ok.injEq,
      List.forall₂_cons_left_iff, exists_and_left, eq_comm (a := results)]

/-- A list is worked off without a fault when each element is, and what holds of each result holds
of all. -/
theorem exists_mapM_eq_ok {R : α → β → Prop} (h : ∀ a ∈ l, ∃ b, f a = .ok b ∧ R a b) :
    ∃ results, l.mapM f = .ok results ∧ List.Forall₂ R l results := by
  simp only [mapM_eq_ok_iff]
  induction l with
  | nil => exact ⟨[], .nil, .nil⟩
  | cons a rest ih =>
    obtain ⟨b, hb, hrel⟩ := h a List.mem_cons_self
    obtain ⟨results, hresults, hrels⟩ := ih fun c hc => h c (List.mem_cons_of_mem a hc)
    exact ⟨b :: results, .cons hb hresults, .cons hrel hrels⟩

/-- Each result is that of an element of the list. -/
theorem exists_of_mem_mapM {results : List β} (h : l.mapM f = .ok results) {b : β}
    (hb : b ∈ results) : ∃ a ∈ l, f a = .ok b := by
  rw [mapM_eq_ok_iff] at h
  induction h with
  | nil => exact absurd hb List.not_mem_nil
  | cons hrel _ ih =>
    rcases List.mem_cons.mp hb with rfl | hb
    · exact ⟨_, List.mem_cons_self, hrel⟩
    · obtain ⟨a, ha, hrel⟩ := ih hb
      exact ⟨a, List.mem_cons_of_mem _ ha, hrel⟩

/-- What holds of the one side of each pair where something holds of the other holds of all where
that holds of all. -/
theorem forall_mem_iff_of_forall₂ {R : α → β → Prop} {P : α → Prop} {Q : β → Prop}
    {results : List β} (h : List.Forall₂ R l results)
    (hiff : ∀ a b, R a b → (P a ↔ Q b)) : (∀ a ∈ l, P a) ↔ ∀ b ∈ results, Q b := by
  induction h with
  | nil => simp
  | cons hrel _ ih => simp only [List.forall_mem_cons, ih, hiff _ _ hrel]

/-- Every element of a list is read exactly where each one can be. -/
theorem mapM_eq_some_iff {read? : α → Option β} {results : List β} :
    l.mapM read? = some results ↔
      (∀ a ∈ l, (read? a).isSome) ∧ l.filterMap read? = results := by
  induction l generalizing results with
  | nil => simp
  | cons a l ih =>
    cases ha : read? a with
    | none => simp [ha]
    | some b => simp [ha, ih, List.filterMap_cons_some ha, Option.bind_eq_some_iff, and_assoc]

end Lists

/-! ## The first fault -/

/-- The element is the first one of the list that has the property. -/
def IsFirstOf {α : Type} (P : α → Prop) (l : List α) (a : α) : Prop :=
  ∃ earlier later, l = earlier ++ a :: later ∧ (∀ x ∈ earlier, ¬P x) ∧ P a

section Faults

variable {α β ε : Type} {f : α → Except ε β} {a : α} {l : List α} {fault : ε}

/-- The first element with a property begins the list, or what begins the list does not have the
property and the element is the first one of those behind. -/
theorem isFirstOf_cons {P : α → Prop} {x : α} :
    IsFirstOf P (a :: l) x ↔ x = a ∧ P a ∨ ¬P a ∧ IsFirstOf P l x := by
  constructor
  · intro hfirst
    obtain ⟨earlier, later, hsplit, hearlier, hx⟩ := hfirst
    cases earlier with
    | nil =>
      obtain ⟨rfl, rfl⟩ := List.cons.inj hsplit
      exact .inl ⟨rfl, hx⟩
    | cons head rest =>
      obtain ⟨rfl, rfl⟩ := List.cons.inj hsplit
      obtain ⟨hhead, hrest⟩ := List.forall_mem_cons.mp hearlier
      exact .inr ⟨hhead, rest, later, rfl, hrest, hx⟩
  · intro hfirst
    rcases hfirst with ⟨rfl, hx⟩ | ⟨ha, earlier, later, rfl, hearlier, hx⟩
    · exact ⟨[], l, rfl, List.forall_mem_nil _, hx⟩
    · exact ⟨a :: earlier, later, rfl, List.forall_mem_cons.mpr ⟨ha, hearlier⟩, hx⟩

/-- A list has a first element with a property exactly when it has one with the property. -/
theorem exists_isFirstOf_iff {P : α → Prop} : (∃ a, IsFirstOf P l a) ↔ ∃ a ∈ l, P a := by
  constructor
  · intro hfirst
    obtain ⟨a, earlier, later, rfl, -, ha⟩ := hfirst
    exact ⟨a, List.mem_append_right _ List.mem_cons_self, ha⟩
  · intro hsome
    induction l with
    | nil =>
      obtain ⟨a, hmem, -⟩ := hsome
      exact absurd hmem List.not_mem_nil
    | cons head rest ih =>
      by_cases hhead : P head
      · exact ⟨head, isFirstOf_cons.mpr (.inl ⟨rfl, hhead⟩)⟩
      · obtain ⟨a, hmem, ha⟩ := hsome
        have hrest : a ∈ rest := (List.mem_cons.mp hmem).resolve_left fun heq => hhead (heq ▸ ha)
        obtain ⟨x, hx⟩ := ih ⟨a, hrest, ha⟩
        exact ⟨x, isFirstOf_cons.mpr (.inr ⟨hhead, hx⟩)⟩

/-- Where the first element has a fault, it is that of the list. -/
theorem mapM_cons_of_error (ha : f a = .error fault) : (a :: l).mapM f = .error fault := by
  simp [ha]

/-- Where the first element has none, the fault is that of the others. -/
theorem mapM_cons_eq_error_iff {b : β} (ha : f a = .ok b) :
    (a :: l).mapM f = .error fault ↔ l.mapM f = .error fault := by
  cases hrest : l.mapM f <;> simp [ha, hrest]

/-- A list is worked off up to its first element with a fault, and the fault is that of this
element. -/
theorem mapM_eq_error_iff : l.mapM f = .error fault ↔
    ∃ a, IsFirstOf (fun a => ∃ fault, f a = .error fault) l a ∧ f a = .error fault := by
  induction l with
  | nil => simp [IsFirstOf]
  | cons a rest ih =>
    simp only [isFirstOf_cons]
    cases ha : f a with
    | error own =>
      rw [mapM_cons_of_error ha]
      constructor
      · intro hfault
        obtain rfl := Except.error.inj hfault
        exact ⟨a, .inl ⟨rfl, own, rfl⟩, ha⟩
      · intro hfirst
        obtain ⟨x, ⟨rfl, -⟩ | ⟨hnone, -⟩, hx⟩ := hfirst
        · rw [ha] at hx
          obtain rfl := Except.error.inj hx
          rfl
        · exact absurd ⟨own, rfl⟩ hnone
    | ok b =>
      rw [mapM_cons_eq_error_iff ha, ih]
      simp

/-- A list is not worked off exactly when some element has a fault. -/
theorem exists_mapM_eq_error_iff :
    (∃ fault, l.mapM f = .error fault) ↔ ∃ a ∈ l, ∃ fault, f a = .error fault := by
  rw [← exists_isFirstOf_iff]
  simp only [mapM_eq_error_iff]
  constructor
  · intro hfault
    obtain ⟨fault, a, hfirst, -⟩ := hfault
    exact ⟨a, hfirst⟩
  · intro hfirst
    obtain ⟨a, earlier, later, hsplit, hearlier, fault, ha⟩ := hfirst
    exact ⟨fault, a, ⟨earlier, later, hsplit, hearlier, fault, ha⟩, ha⟩

end Faults

end LayoutWatch
