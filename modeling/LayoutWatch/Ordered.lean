/-!
# Lists in order

Sorted lists without repetitions, run lengths of sorted lists, tables that collect the values of
each key, and the best element of a list.
-/

namespace LayoutWatch.Ordered

/-- Leave out each element that equals the one before it. -/
def dropRepeats {α : Type} [DecidableEq α] : List α → List α
  | [] => []
  | [a] => [a]
  | a :: b :: rest => if a = b then dropRepeats (b :: rest) else a :: dropRepeats (b :: rest)

/-- The distinct texts of a list, ascending by code points. -/
def distinctTexts (texts : List String) : List String :=
  dropRepeats (texts.mergeSort fun a b => !decide (b < a))

/-- The distinct numbers of a list, ascending. -/
def distinctNumbers (numbers : List Nat) : List Nat :=
  dropRepeats (numbers.mergeSort fun a b => decide (a ≤ b))

/-- The elements of a list with the lengths of their runs. -/
def runLengths : List Nat → List (Nat × Nat)
  | [] => []
  | n :: rest =>
    match runLengths rest with
    | (m, count) :: more => if n = m then (m, count + 1) :: more else (n, 1) :: (m, count) :: more
    | [] => [(n, 1)]

/-- The keys of a list of pairs, ascending, each with its values in the order of the list. -/
def table {α : Type} (pairs : List (String × α)) : List (String × List α) :=
  (distinctTexts (pairs.map (·.1))).map fun key =>
    (key, pairs.filterMap fun pair => if pair.1 = key then some pair.2 else none)

/-- The keys of a list of pairs in the order of their first use, each with its values in the order
of the list. -/
def collect {κ α : Type} [BEq κ] (pairs : List (κ × α)) : List (κ × List α) :=
  (pairs.map (·.1)).eraseDups.map fun key =>
    (key, pairs.filterMap fun pair => if pair.1 == key then some pair.2 else none)

/-- The element that beats the best of those behind it. With `beats` a strict order in which no two
elements tie, this is the greatest one; where elements tie and `beats` holds of them, the first. -/
def best? {α : Type} (beats : α → α → Bool) : List α → Option α
  | [] => none
  | a :: rest =>
    match best? beats rest with
    | some b => some (if beats a b then a else b)
    | none => some a

end LayoutWatch.Ordered
