/-!
# Trees of written values

What is read from a file before it is given a meaning: scalars as they are written, lists, and
records of members. A record may also be written as a list of its members in the order of their
declaration. Members with unknown names are passed over. Where nothing is written, an empty list or
record may be meant.
-/

namespace LayoutWatch

/-- A written value with scalars of type `σ`. -/
inductive Tree (σ : Type) where
  /-- A single scalar. -/
  | leaf (scalar : σ)
  /-- A list of values. -/
  | list (items : List (Tree σ))
  /-- Named values. -/
  | record (members : List (σ × Tree σ))

/-- Scalars of a notation, and the meanings that they can have. -/
class Scalar (σ : Type) where
  /-- The text that the scalar stands for. -/
  text? : σ → Option String
  /-- The scalar stands for nothing. -/
  isNull : σ → Bool
  /-- Nothing is written where the scalar stands. -/
  isUnwritten : σ → Bool
  /-- The whole number without a sign that the scalar stands for. -/
  natural? : σ → Option Nat

namespace Tree

variable {σ : Type}

mutual

/-- Number of lists and records around the innermost scalar. -/
def depth : Tree σ → Nat
  | .leaf _ => 0
  | .list items => depthOfItems items + 1
  | .record members => depthOfMembers members + 1

/-- Largest depth in a list. -/
def depthOfItems : List (Tree σ) → Nat
  | [] => 0
  | item :: rest => max (depth item) (depthOfItems rest)

/-- Largest depth in a record. -/
def depthOfMembers : List (σ × Tree σ) → Nat
  | [] => 0
  | (_, value) :: rest => max (depth value) (depthOfMembers rest)

end

mutual

/-- Every scalar satisfies a condition, names of members included. -/
def allScalars (condition : σ → Bool) : Tree σ → Bool
  | .leaf scalar => condition scalar
  | .list items => allScalarsOfItems condition items
  | .record members => allScalarsOfMembers condition members

/-- Every scalar in a list satisfies a condition. -/
def allScalarsOfItems (condition : σ → Bool) : List (Tree σ) → Bool
  | [] => true
  | item :: rest => allScalars condition item && allScalarsOfItems condition rest

/-- Every scalar in a record satisfies a condition. -/
def allScalarsOfMembers (condition : σ → Bool) : List (σ × Tree σ) → Bool
  | [] => true
  | (name, value) :: rest =>
    condition name && allScalars condition value && allScalarsOfMembers condition rest

end

/-- The scalar of a leaf. -/
def scalar? : Tree σ → Option σ
  | .leaf scalar => some scalar
  | .list _ | .record _ => none

variable [Scalar σ]

/-- The value is a scalar that stands for nothing. -/
def isNull : Tree σ → Bool
  | .leaf scalar => Scalar.isNull scalar
  | .list _ | .record _ => false

/-- The text that the value stands for. -/
def text? (t : Tree σ) : Option String := t.scalar?.bind Scalar.text?

/-- The whole number below a limit that the value stands for. -/
def below? (limit : Nat) (t : Tree σ) : Option Nat :=
  (t.scalar?.bind Scalar.natural?).filter (· < limit)

/-- The word of eight bits that the value stands for. -/
def word8? (t : Tree σ) : Option UInt8 := (t.below? UInt8.size).map UInt8.ofNat

/-- The word of sixteen bits that the value stands for. -/
def word16? (t : Tree σ) : Option UInt16 := (t.below? UInt16.size).map UInt16.ofNat

/-- The word of thirty-two bits that the value stands for. -/
def word32? (t : Tree σ) : Option UInt32 := (t.below? UInt32.size).map UInt32.ofNat

/-- The word of sixty-four bits that the value stands for. -/
def word64? (t : Tree σ) : Option UInt64 := (t.below? UInt64.size).map UInt64.ofNat

/-- The count that the value stands for. -/
def count? (t : Tree σ) : Option Nat := t.below? UInt64.size

/-- The list that the value stands for. -/
def list? {α : Type} (item : Tree σ → Option α) : Tree σ → Option (List α)
  | .list items => items.mapM item
  | .leaf scalar => if Scalar.isUnwritten scalar then some [] else none
  | .record _ => none

/-- The pair that the value stands for. -/
def pair? {α β : Type} (first : Tree σ → Option α) (second : Tree σ → Option β) :
    Tree σ → Option (α × β)
  | .list [a, b] => do return (← first a, ← second b)
  | _ => none

/-- Nothing, or what the value stands for. -/
def nullable? {α : Type} (value : Tree σ → Option α) (t : Tree σ) : Option (Option α) :=
  if t.isNull then some none else (value t).map some

end Tree

/-- The known members of a written record. -/
structure Record (σ : Type) where
  /-- The record was written as a list. -/
  positional : Bool
  /-- The members that are there, by name. -/
  members : List (String × Tree σ)

namespace Record

variable {σ α : Type} [Scalar σ]

/-- The members of a record that may have these names. Each known name may occur once, and a list
may not be longer than the names. -/
def ofTree? (names : List String) : Tree σ → Option (Record σ)
  | .leaf scalar => if Scalar.isUnwritten scalar then some ⟨false, []⟩ else none
  | .list items => if items.length ≤ names.length then some ⟨true, names.zip items⟩ else none
  | .record members => do
    let named ← members.mapM fun (name, value) => (Scalar.text? name).map (·, value)
    let known := named.filter fun member => names.contains member.1
    if (known.map (·.1)).Nodup then some ⟨false, known⟩ else none

/-- The member of this name. -/
def member? (r : Record σ) (name : String) : Option (Tree σ) := r.members.lookup name

/-- A member that has to be there. -/
def required (r : Record σ) (name : String) (value : Tree σ → Option α) : Option α :=
  (r.member? name).bind value

/-- A member that may be left out, which stands for this value then. -/
def defaulted (r : Record σ) (name : String) (absent : α) (value : Tree σ → Option α) :
    Option α :=
  match r.member? name with
  | some t => value t
  | none => some absent

/-- A member that may be null or left out. -/
def optional (r : Record σ) (name : String) (value : Tree σ → Option α) : Option (Option α) :=
  r.defaulted name none (Tree.nullable? value)

/-- A member that may be null, and left out except from a list. -/
def nullable (r : Record σ) (name : String) (value : Tree σ → Option α) : Option (Option α) :=
  if r.positional then r.required name (Tree.nullable? value) else r.optional name value

end Record

end LayoutWatch
