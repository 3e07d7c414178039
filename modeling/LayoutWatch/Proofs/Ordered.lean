import LayoutWatch.Ordered
import Mathlib.Algebra.BigOperators.Group.Finset.Basic
import Mathlib.Algebra.GroupWithZero.Nat
import Mathlib.Data.List.Forall2
import Mathlib.Data.List.Sort

/-!
# Laws of lists in order

The distinct elements of a list are its elements, the values collected under a key are those of
its pairs in their order, and the best element of a list beats every other one where no two of
them tie.
-/

namespace LayoutWatch.Ordered

section Best

variable {α : Type} {beats : α → α → Bool}

/-- Only the empty list has no best element. -/
@[simp] theorem best?_eq_none_iff {l : List α} : best? beats l = none ↔ l = [] := by
  cases l with
  | nil => simp [best?]
  | cons a rest =>
    rw [best?]
    cases best? beats rest <;> simp

/-- The best element is one of the list. -/
theorem mem_of_best? {l : List α} {a : α} (h : best? beats l = some a) : a ∈ l := by
  induction l generalizing a with
  | nil => simp [best?] at h
  | cons x rest ih =>
    rw [best?] at h
    cases hrest : best? beats rest with
    | none =>
      rw [hrest] at h
      simp_all
    | some b =>
      rw [hrest] at h
      simp only [Option.some.injEq] at h
      subst h
      split
      · exact List.mem_cons_self
      · exact List.mem_cons_of_mem x (ih hrest)

/-- Where no two elements tie, the best one beats every other. -/
theorem best?_beats (htrans : ∀ a b c, beats a b = true → beats b c = true → beats a c = true)
    {l : List α} (htotal : ∀ a ∈ l, ∀ b ∈ l, a ≠ b → beats a b = true ∨ beats b a = true)
    {a : α} (h : best? beats l = some a) : ∀ b ∈ l, b ≠ a → beats a b = true := by
  induction l generalizing a with
  | nil => simp
  | cons x rest ih =>
    rw [best?] at h
    cases hrest : best? beats rest with
    | none =>
      rw [hrest] at h
      obtain rfl : x = a := by simpa using h
      obtain rfl := best?_eq_none_iff.mp hrest
      intro b hb hne
      exact absurd (List.mem_singleton.mp hb) hne
    | some best =>
      rw [hrest] at h
      have hbest := mem_of_best? hrest
      have hahead := ih (fun c hc d hd => htotal c (List.mem_cons_of_mem x hc) d
        (List.mem_cons_of_mem x hd)) hrest
      simp only [Option.some.injEq] at h
      intro b hb hne
      split at h
      · next hx =>
        subst h
        rcases List.mem_cons.mp hb with rfl | hb
        · exact absurd rfl hne
        · by_cases hcb : b = best
          · exact hcb ▸ hx
          · exact htrans x best b hx (hahead b hb hcb)
      · next hx =>
        subst h
        rcases List.mem_cons.mp hb with rfl | hb
        · have hone := htotal b List.mem_cons_self best (List.mem_cons_of_mem b hbest) hne
          exact hone.resolve_left hx
        · exact hahead b hb hne

/-- The best element is the one that beats every other, where no two tie and none beats itself. -/
theorem best?_eq_some_iff
    (htrans : ∀ a b c, beats a b = true → beats b c = true → beats a c = true)
    (hirrefl : ∀ a, beats a a = false) {l : List α}
    (htotal : ∀ a ∈ l, ∀ b ∈ l, a ≠ b → beats a b = true ∨ beats b a = true) {a : α} :
    best? beats l = some a ↔ a ∈ l ∧ ∀ b ∈ l, b ≠ a → beats a b = true := by
  constructor
  · intro h
    exact ⟨mem_of_best? h, best?_beats htrans htotal h⟩
  · intro hbest
    rcases hbest with ⟨hmem, hahead⟩
    cases hbest : best? beats l with
    | none =>
      rw [best?_eq_none_iff.mp hbest] at hmem
      exact absurd hmem List.not_mem_nil
    | some c =>
      by_cases hca : c = a
      · rw [hca]
      · have hac := hahead c (mem_of_best? hbest) hca
        have hcc := htrans a c a hac (best?_beats htrans htotal hbest a hmem (Ne.symm hca))
        rw [hirrefl a] at hcc
        exact absurd hcc (by decide)

end Best

/-- Leaving out repetitions keeps the elements. -/
@[simp] theorem mem_dropRepeats {α : Type} [DecidableEq α] {l : List α} {a : α} :
    a ∈ dropRepeats l ↔ a ∈ l := by
  fun_induction dropRepeats l with
  | case1 => rfl
  | case2 => rfl
  | case3 b rest ih => simp [ih]
  | case4 b c rest hne ih => simp [ih]

/-- In a list in order the elements that are left without repetitions are in strict order. -/
theorem pairwise_dropRepeats {α : Type} [DecidableEq α] {r : α → α → Prop}
    (hantisymm : ∀ a b, r a b → r b a → a = b) {l : List α} (h : l.Pairwise r) :
    (dropRepeats l).Pairwise fun a b => r a b ∧ a ≠ b := by
  fun_induction dropRepeats l with
  | case1 => exact List.Pairwise.nil
  | case2 => exact List.pairwise_singleton _ _
  | case3 b rest ih => exact ih (List.pairwise_cons.mp h).2
  | case4 a b rest hne ih =>
    obtain ⟨hhead, htail⟩ := List.pairwise_cons.mp h
    refine List.pairwise_cons.mpr ⟨fun c hc => ?_, ih htail⟩
    have hmem : c ∈ b :: rest := mem_dropRepeats.mp hc
    refine ⟨hhead c hmem, ?_⟩
    rintro rfl
    rcases List.mem_cons.mp hmem with heq | hrest
    · exact hne heq
    · have hback := (List.pairwise_cons.mp htail).1 a hrest
      exact hne (hantisymm a b (hhead b List.mem_cons_self) hback)

/-- A list that is sorted by a linear order and left without repetitions is in strict order. -/
theorem pairwise_dropRepeats_mergeSort {α : Type} [DecidableEq α] {le : α → α → Bool}
    (htrans : ∀ a b c, le a b = true → le b c = true → le a c = true)
    (htotal : ∀ a b, (le a b || le b a) = true)
    (hantisymm : ∀ a b, le a b = true → le b a = true → a = b) (l : List α) :
    (dropRepeats (l.mergeSort le)).Pairwise fun a b => le a b = true ∧ a ≠ b :=
  pairwise_dropRepeats hantisymm (List.pairwise_mergeSort htrans htotal l)

/-- The distinct texts of a list are in strict order. -/
theorem pairwise_distinctTexts (texts : List String) :
    (distinctTexts texts).Pairwise (· < ·) := by
  have hle : ∀ a b : String, (!decide (b < a)) = true ↔ a ≤ b := by
    intro a b
    rw [Bool.not_eq_true', decide_eq_false_iff_not, String.not_lt]
  refine (pairwise_dropRepeats_mergeSort (fun a b c hab hbc => ?_) (fun a b => ?_)
    (fun a b hab hba => ?_) texts).imp fun hab => ?_
  · exact (hle a c).mpr (String.le_trans ((hle a b).mp hab) ((hle b c).mp hbc))
  · rw [Bool.or_eq_true, hle, hle]
    exact String.le_total a b
  · exact String.le_antisymm ((hle a b).mp hab) ((hle b a).mp hba)
  · rcases hab with ⟨hab, hne⟩
    exact Decidable.byContradiction fun hlt =>
      hne (String.le_antisymm ((hle _ _).mp hab) (String.not_lt.mp hlt))

/-- The distinct texts of a list are its texts. -/
@[simp] theorem mem_distinctTexts {texts : List String} {text : String} :
    text ∈ distinctTexts texts ↔ text ∈ texts := by
  simp [distinctTexts]

/-- No text is left twice. -/
@[simp] theorem nodup_distinctTexts (texts : List String) : (distinctTexts texts).Nodup := by
  refine (pairwise_distinctTexts texts).imp ?_
  rintro text _ hlt rfl
  exact String.lt_irrefl text hlt

/-- The distinct texts do not depend on the order of the list. -/
theorem distinctTexts_eq_of_perm {texts texts' : List String} (h : texts.Perm texts') :
    distinctTexts texts = distinctTexts texts' := by
  refine (pairwise_distinctTexts texts).eq_of_mem_iff (pairwise_distinctTexts texts') fun text => ?_
  simp [h.mem_iff]

/-- Numbers that were sorted are in order. -/
theorem pairwise_mergeSort_numbers (numbers : List Nat) :
    (numbers.mergeSort fun a b => decide (a ≤ b)).Pairwise (· ≤ ·) := by
  refine (List.pairwise_mergeSort (fun a b c hab hbc => ?_) (fun a b => ?_) numbers).imp
    of_decide_eq_true
  · simp only [decide_eq_true_eq] at hab hbc ⊢
    exact Nat.le_trans hab hbc
  · simp only [Bool.or_eq_true, decide_eq_true_eq]
    exact Nat.le_total a b

/-- The distinct numbers of a list are in strict order. -/
theorem pairwise_distinctNumbers (numbers : List Nat) :
    (distinctNumbers numbers).Pairwise (· < ·) :=
  (pairwise_dropRepeats (fun _ _ => Nat.le_antisymm) (pairwise_mergeSort_numbers numbers)).imp
    fun hab => Nat.lt_of_le_of_ne hab.1 hab.2

/-- The distinct numbers of a list are its numbers. -/
@[simp] theorem mem_distinctNumbers {numbers : List Nat} {n : Nat} :
    n ∈ distinctNumbers numbers ↔ n ∈ numbers := by
  simp [distinctNumbers]

/-- No number is left twice. -/
@[simp] theorem nodup_distinctNumbers (numbers : List Nat) : (distinctNumbers numbers).Nodup :=
  (pairwise_distinctNumbers numbers).imp Nat.ne_of_lt

/-- The first element is left first. -/
theorem exists_dropRepeats_cons {α : Type} [DecidableEq α] (a : α) (rest : List α) :
    ∃ others, dropRepeats (a :: rest) = a :: others := by
  induction rest with
  | nil => exact ⟨[], rfl⟩
  | cons b rest ih =>
    rw [dropRepeats]
    split
    · next hsame =>
      subst hsame
      exact ih
    · exact ⟨_, rfl⟩

/-- In a list in order each element has one run, which is as long as the element is frequent. -/
theorem runLengths_eq {l : List Nat} (h : l.Pairwise (· ≤ ·)) :
    runLengths l = (dropRepeats l).map fun n => (n, l.count n) := by
  fun_induction dropRepeats l with
  | case1 => rfl
  | case2 a => simp [runLengths]
  | case3 b rest ih =>
    have hrest := (List.pairwise_cons.mp h).2
    obtain ⟨others, hothers⟩ := exists_dropRepeats_cons b rest
    have hstrict := pairwise_dropRepeats (fun a b => Nat.le_antisymm) hrest
    rw [hothers] at hstrict
    have hcount : ∀ n ∈ others, (b :: b :: rest).count n = (b :: rest).count n := by
      intro n hn
      exact List.count_cons_of_ne ((List.pairwise_cons.mp hstrict).1 n hn).2
    rw [runLengths, ih hrest, hothers, List.map_cons, List.map_cons]
    dsimp only
    rw [if_pos rfl, List.count_cons_self (l := b :: rest)]
    exact congrArg _ (List.map_congr_left fun n hn => by rw [hcount n hn])
  | case4 a b rest hne ih =>
    obtain ⟨hhead, hrest⟩ := List.pairwise_cons.mp h
    have habove : ∀ n ∈ b :: rest, a < n := by
      intro n hn
      have hab : a < b := Nat.lt_of_le_of_ne (hhead b List.mem_cons_self) hne
      rcases List.mem_cons.mp hn with rfl | hn
      · exact hab
      · exact Nat.lt_of_lt_of_le hab ((List.pairwise_cons.mp hrest).1 n hn)
    have hcount : ∀ n ∈ dropRepeats (b :: rest),
        (a :: b :: rest).count n = (b :: rest).count n := by
      intro n hn
      exact List.count_cons_of_ne (Nat.ne_of_lt (habove n (mem_dropRepeats.mp hn)))
    have hone : (a :: b :: rest).count a = 1 := by
      rw [List.count_cons_self, List.count_eq_zero_of_not_mem fun ha => absurd (habove a ha)
        (Nat.lt_irrefl a)]
    have hmap : ((dropRepeats (b :: rest)).map fun n => (n, (a :: b :: rest).count n)) =
        (dropRepeats (b :: rest)).map fun n => (n, (b :: rest).count n) :=
      List.map_congr_left fun n hn => by rw [hcount n hn]
    obtain ⟨others, hothers⟩ := exists_dropRepeats_cons b rest
    rw [List.map_cons, hmap, hone, runLengths, ih hrest, hothers, List.map_cons]
    dsimp only
    rw [if_neg hne]

/-- The values of a key, in the order of the pairs. -/
def valuesOf {κ α : Type} [BEq κ] (pairs : List (κ × α)) (key : κ) : List α :=
  pairs.filterMap fun pair => if pair.1 == key then some pair.2 else none

/-- A value stands under its key. -/
@[simp] theorem mem_valuesOf {κ α : Type} [BEq κ] [LawfulBEq κ] {pairs : List (κ × α)} {key : κ}
    {value : α} : value ∈ valuesOf pairs key ↔ (key, value) ∈ pairs := by
  simp only [valuesOf, List.mem_filterMap]
  constructor
  · intro hvalue
    rcases hvalue with ⟨⟨k, v⟩, hmem, heq⟩
    split at heq
    · next hk =>
      simp only [Option.some.injEq] at heq
      rw [← heq, ← eq_of_beq hk]
      exact hmem
    · exact absurd heq (by simp)
  · intro hmem
    exact ⟨(key, value), hmem, if_pos (beq_self_eq_true key)⟩

/-- Leaving out everything that occurred before leaves no repetition. -/
@[simp] theorem nodup_eraseDups {α : Type} [BEq α] [LawfulBEq α] (l : List α) :
    l.eraseDups.Nodup := by
  match l with
  | [] => exact List.nodup_nil
  | a :: rest =>
    rw [List.eraseDups_cons, List.nodup_cons]
    exact ⟨by simp [List.mem_eraseDups], nodup_eraseDups _⟩
termination_by l.length
decreasing_by exact Nat.lt_succ_of_le (List.length_filter_le _ _)

/-- Lists of the same elements leave the same ones. -/
theorem eraseDups_perm {α : Type} [BEq α] [LawfulBEq α] {l l' : List α} (h : l.Perm l') :
    l.eraseDups.Perm l'.eraseDups := by
  refine (List.perm_ext_iff_of_nodup (nodup_eraseDups l) (nodup_eraseDups l')).mpr fun a => ?_
  rw [List.mem_eraseDups, List.mem_eraseDups, h.mem_iff]

/-- What is left are the distinct elements. -/
theorem length_eraseDups {α : Type} [DecidableEq α] (l : List α) :
    l.eraseDups.length = l.toFinset.card := by
  have hsame : l.eraseDups.toFinset = l.toFinset := by
    ext a
    rw [List.mem_toFinset, List.mem_toFinset, List.mem_eraseDups]
  rw [← hsame, List.toFinset_card_of_nodup (nodup_eraseDups l)]

/-- The numbers of all elements of a list add up to its length, where each is counted once. -/
theorem sum_count {α : Type} [DecidableEq α] {keys l : List α} (hnodup : keys.Nodup)
    (hall : ∀ a ∈ l, a ∈ keys) : (keys.map fun key => l.count key).sum = l.length := by
  have hcard : ∑ key ∈ keys.toFinset, (l : Multiset α).count key = (l : Multiset α).card :=
    Multiset.sum_count_eq_card fun a ha => List.mem_toFinset.mpr (hall a ha)
  simpa only [List.sum_toFinset _ hnodup, Multiset.coe_count, Multiset.coe_card] using hcard

/-- The elements with one of several keys are those of each key in turn, where each key is asked
once. -/
theorem flatMap_filter_perm {κ α : Type} [DecidableEq κ] {keys : List κ} (hnodup : keys.Nodup)
    (key : α → κ) (l : List α) :
    (keys.flatMap fun k => l.filter (key · = k)).Perm (l.filter (key · ∈ keys)) := by
  induction keys with
  | nil => simp
  | cons k rest ih =>
    obtain ⟨hk, hrest⟩ := List.nodup_cons.mp hnodup
    let some := l.filter (key · ∈ k :: rest)
    have hhead : some.filter (key · = k) = l.filter (key · = k) := by
      rw [List.filter_filter]
      refine List.filter_congr fun a _ => ?_
      by_cases ha : key a = k <;> simp [ha]
    have htail : some.filter (fun a => !decide (key a = k)) = l.filter (key · ∈ rest) := by
      rw [List.filter_filter]
      refine List.filter_congr fun a _ => ?_
      by_cases ha : key a = k
      · simp [ha, hk]
      · simp [ha]
    have hsplit := List.filter_append_perm (fun a => decide (key a = k)) some
    rw [hhead, htail] at hsplit
    rw [List.flatMap_cons]
    exact ((ih hrest).append_left _).trans hsplit

/-- A key has as many values as it occurs. -/
@[simp] theorem length_valuesOf {κ α : Type} [DecidableEq κ] (pairs : List (κ × α)) (key : κ) :
    (valuesOf pairs key).length = (pairs.map (·.1)).count key := by
  rw [valuesOf, List.length_filterMap_eq_countP, List.count, List.countP_map]
  refine List.countP_congr fun pair _ => ?_
  by_cases hkey : pair.1 = key <;> simp [hkey]

/-- The values of all keys are those of all pairs, where each key is asked once. -/
theorem sum_length_valuesOf {κ α : Type} [DecidableEq κ] {keys : List κ} {pairs : List (κ × α)}
    (hnodup : keys.Nodup) (hall : ∀ pair ∈ pairs, pair.1 ∈ keys) :
    (keys.map fun key => (valuesOf pairs key).length).sum = pairs.length := by
  have hkeys : ∀ key ∈ pairs.map (·.1), key ∈ keys := by
    intro key hkey
    obtain ⟨pair, hpair, rfl⟩ := List.mem_map.mp hkey
    exact hall pair hpair
  simp only [length_valuesOf]
  rw [sum_count hnodup hkeys, List.length_map]

/-- No key is collected twice. -/
@[simp] theorem nodup_collect {κ α : Type} [BEq κ] [LawfulBEq κ] (pairs : List (κ × α)) :
    ((collect pairs).map (·.1)).Nodup := by
  have hkeys : (collect pairs).map (·.1) = (pairs.map (·.1)).eraseDups := by
    simp [collect, Function.comp_def]
  rw [hkeys]
  exact nodup_eraseDups _

/-- The rows that are collected hold every pair once. -/
theorem sum_length_collect {κ α : Type} [DecidableEq κ] (pairs : List (κ × α)) :
    ((collect pairs).map fun row => row.2.length).sum = pairs.length := by
  rw [collect, List.map_map]
  exact sum_length_valuesOf (nodup_eraseDups _) fun pair hpair =>
    List.mem_eraseDups.mpr (List.mem_map_of_mem hpair)

/-- Each key that occurs is collected once with all of its values. -/
@[simp] theorem mem_collect {κ α : Type} [BEq κ] [LawfulBEq κ] {pairs : List (κ × α)} {key : κ}
    {values : List α} :
    (key, values) ∈ collect pairs ↔ key ∈ pairs.map (·.1) ∧ values = valuesOf pairs key := by
  simp only [collect, List.mem_map, List.mem_eraseDups, Prod.mk.injEq]
  constructor
  · intro hrow
    rcases hrow with ⟨k, hk, rfl, rfl⟩
    exact ⟨hk, rfl⟩
  · intro hrow
    rcases hrow with ⟨hk, rfl⟩
    exact ⟨key, hk, rfl, rfl⟩

/-- What is made of the keys that equal one key is made of this key, where each key is asked
once. -/
theorem flatMap_filter_key {κ α : Type} [DecidableEq κ] {keys : List κ} (hnodup : keys.Nodup)
    {make : κ → List α} {key : κ} (hmissing : key ∉ keys → make key = []) :
    (keys.filter (· = key)).flatMap make = make key := by
  induction keys with
  | nil => exact (hmissing List.not_mem_nil).symm
  | cons k rest ih =>
    obtain ⟨hk, hrest⟩ := List.nodup_cons.mp hnodup
    by_cases heq : k = key
    · subst heq
      have hothers : rest.filter (· = k) = [] := by
        refine List.filter_eq_nil_iff.mpr fun other hother hsame => hk ?_
        rw [← of_decide_eq_true hsame]
        exact hother
      rw [List.filter_cons, if_pos (decide_eq_true rfl), hothers, List.flatMap_cons,
        List.flatMap_nil, List.append_nil]
    · rw [List.filter_cons_of_neg (by simpa using heq)]
      refine ih hrest fun hnotin => hmissing fun hin => ?_
      exact (List.mem_cons.mp hin).elim (fun hsame => heq hsame.symm) hnotin

/-- The rows of a key hold its values. -/
theorem flatMap_collect {κ α : Type} [DecidableEq κ] (pairs : List (κ × α)) (key : κ) :
    ((collect pairs).filter (·.1 = key)).flatMap (·.2) = valuesOf pairs key := by
  have hmissing : key ∉ (pairs.map (·.1)).eraseDups → valuesOf pairs key = [] := by
    intro hnotin
    refine List.eq_nil_iff_forall_not_mem.mpr fun value hvalue => hnotin ?_
    exact List.mem_eraseDups.mpr (List.mem_map_of_mem (mem_valuesOf.mp hvalue))
  rw [collect, List.filter_map, List.flatMap_map]
  exact flatMap_filter_key (nodup_eraseDups _) hmissing

/-- A table has one row for each key, with its values. -/
theorem table_eq {α : Type} (pairs : List (String × α)) :
    table pairs = (distinctTexts (pairs.map (·.1))).map fun key => (key, valuesOf pairs key) := by
  simp [table, valuesOf]

/-- Each key that occurs stands in the table with all of its values. -/
@[simp] theorem mem_table {α : Type} {pairs : List (String × α)} {key : String} {values : List α} :
    (key, values) ∈ table pairs ↔ key ∈ pairs.map (·.1) ∧ values = valuesOf pairs key := by
  simp only [table_eq, List.mem_map, mem_distinctTexts, Prod.mk.injEq]
  constructor
  · intro hrow
    rcases hrow with ⟨k, hk, rfl, rfl⟩
    exact ⟨hk, rfl⟩
  · intro hrow
    rcases hrow with ⟨hk, rfl⟩
    exact ⟨key, hk, rfl, rfl⟩

/-- The rows of a table hold every pair once. -/
theorem sum_length_table {α : Type} (pairs : List (String × α)) :
    ((table pairs).map fun row => row.2.length).sum = pairs.length := by
  rw [table_eq, List.map_map]
  exact sum_length_valuesOf (nodup_distinctTexts _) fun pair hpair =>
    mem_distinctTexts.mpr (List.mem_map_of_mem hpair)

/-- What is made of the rows of a table is what is made of the values of a key, where it names the
key and nothing is made of no values. -/
theorem mem_filterMap_table {α β : Type} {pairs : List (String × α)}
    (make : String → List α → Option β) (name : β → String)
    (hname : ∀ key values b, make key values = some b → name b = key)
    (hnone : ∀ key, make key [] = none) {b : β} :
    b ∈ (table pairs).filterMap (fun (key, values) => make key values) ↔
      make (name b) (valuesOf pairs (name b)) = some b := by
  simp only [List.mem_filterMap, Prod.exists, mem_table]
  constructor
  · intro hmade
    rcases hmade with ⟨key, values, ⟨-, rfl⟩, hb⟩
    rw [hname key _ b hb]
    exact hb
  · intro hb
    refine ⟨name b, _, ⟨?_, rfl⟩, hb⟩
    cases hvalues : valuesOf pairs (name b) with
    | nil =>
      rw [hvalues, hnone] at hb
      exact absurd hb (by simp)
    | cons value rest =>
      have hvalue : value ∈ valuesOf pairs (name b) := hvalues ▸ List.mem_cons_self
      exact List.mem_map.mpr ⟨_, mem_valuesOf.mp hvalue, rfl⟩

/-- Two lists that are made from one list are related where what is made of each element is. -/
theorem forall₂_filterMap {α β γ : Type} {r : β → γ → Prop} {f : α → Option β} {g : α → Option γ}
    (h : ∀ a, Option.Rel r (f a) (g a)) (l : List α) :
    List.Forall₂ r (l.filterMap f) (l.filterMap g) :=
  List.rel_filterMap (R := Eq) (fun a _ heq => heq ▸ h a) (List.forall₂_same.mpr fun _ _ => rfl)

end LayoutWatch.Ordered
