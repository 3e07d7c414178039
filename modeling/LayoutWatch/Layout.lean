import LayoutWatch.Text.Blank
import LayoutWatch.Text.Numeral

/-!
# Declared layouts

A layout lists structs with their base, size, fields, virtual functions and other functions. The
structs form families along their bases, and a family is known by its root.
-/

namespace LayoutWatch

/-- A field of a struct. -/
structure Field where
  /-- Declared name. -/
  name : Option String
  /-- Declared offset. -/
  offset : UInt64
  /-- Type in the words of the source. -/
  type : Option String
  /-- Size in bytes. -/
  size : Option UInt64
  deriving DecidableEq, Repr

namespace Field

/-- The key of a field without a name. -/
def keyOfOffset (offset : UInt64) : String := "field_" ++ Text.hex offset.toNat

/-- The name under which a field is found again. A blank name is no name. -/
def key (f : Field) : String :=
  match f.name with
  | some name => if Text.isBlankText name then keyOfOffset f.offset else name
  | none => keyOfOffset f.offset

end Field

/-- A virtual function in its slot of the virtual table. -/
structure VirtualFunction where
  /-- Name of the function. -/
  name : String
  /-- Slot in the table. -/
  slot : UInt32
  deriving DecidableEq, Repr

/-- A function of a struct that is not virtual. -/
structure MemberFunction where
  /-- Name of the function. -/
  name : String
  /-- Where the function stands, if that is known. -/
  address : Option UInt64
  deriving DecidableEq, Repr

/-- The declared layout of one struct. -/
structure StructLayout where
  /-- Name of the struct. -/
  name : String
  /-- Name of the struct that it extends. -/
  base : Option String
  /-- Size in bytes. -/
  size : Option UInt64
  /-- Fields in the order of declaration. -/
  fields : List Field
  /-- Virtual functions in the order of declaration. -/
  virtuals : List VirtualFunction
  /-- Other functions in the order of declaration. -/
  functions : List MemberFunction
  deriving DecidableEq, Repr

/-- The first field with this key. -/
def StructLayout.field? (s : StructLayout) (key : String) : Option Field :=
  s.fields.find? (·.key == key)

/-- A field that is looked for in a binary. -/
structure Declaration where
  /-- Struct of the field. -/
  structName : String
  /-- Key of the field. -/
  fieldName : String
  /-- Declared offset. -/
  offset : UInt64
  deriving DecidableEq, Repr

/-- The declared layouts of one version of a program. -/
structure Layout where
  /-- Version label. -/
  version : String
  /-- Digest of the binary that the layout was written for. -/
  binaryHash : Option String
  /-- Structs in the order of declaration. -/
  structs : List StructLayout
  deriving DecidableEq, Repr

namespace Layout

/-- The first struct of this name. -/
def struct? (l : Layout) (name : String) : Option StructLayout :=
  l.structs.find? (·.name == name)

/-- Every field of every struct, in the order of declaration. -/
def declarations (l : Layout) : List Declaration :=
  l.structs.flatMap fun s => s.fields.map fun f => ⟨s.name, f.key, f.offset⟩

/-- The declared base of a struct, if the layout declares that struct too. -/
def declaredBase? (l : Layout) (name : String) : Option String :=
  ((l.struct? name).bind (·.base)).filter fun base => (l.struct? base).isSome

/-- Declared structs whose names are not among these. -/
def unseen (l : Layout) (seen : List String) : List StructLayout :=
  l.structs.filter fun s => !seen.contains s.name

/-- A declared name that is seen for the first time leaves fewer unseen structs. -/
theorem length_unseen_lt {l : Layout} {seen : List String} {name : String}
    (declared : (l.struct? name).isSome) (fresh : seen.contains name = false) :
    (l.unseen (name :: seen)).length < (l.unseen seen).length := by
  obtain ⟨s, hs⟩ := Option.isSome_iff_exists.1 declared
  have hmem := List.mem_of_find?_eq_some hs
  have hname : s.name = name := by simpa using List.find?_some hs
  have hsub : (l.unseen (name :: seen)).Sublist (l.unseen seen) := by
    have : l.unseen (name :: seen) = (l.unseen seen).filter fun t => !(t.name == name) := by
      simp [unseen, List.filter_filter, Bool.beq_eq_decide_eq]
    rw [this]
    exact List.filter_sublist
  refine Nat.lt_of_le_of_ne hsub.length_le fun heq => ?_
  have hall := hsub.eq_of_length heq
  have hin : s ∈ l.unseen seen := by
    simp only [unseen, List.mem_filter]
    exact ⟨hmem, by rw [hname, fresh]; rfl⟩
  rw [← hall] at hin
  simp [unseen, hname] at hin

/-- Follow the bases from a struct as long as they are declared and not yet seen. -/
def rootFrom (l : Layout) (seen : List String) (name : String) : String :=
  match _h : l.declaredBase? name with
  | none => name
  | some base => if seen.contains base then name else rootFrom l (base :: seen) base
termination_by (l.unseen seen).length
decreasing_by
  rename_i fresh
  exact length_unseen_lt (Option.filter_eq_some_iff.1 _h).2 (Bool.eq_false_iff.2 fresh)

/-- The root of the family of a struct. The walk along the bases ends at a struct without a base,
in front of a base that is not declared, or in front of a struct that it has already passed. -/
def root (l : Layout) (name : String) : String := l.rootFrom [name] name

end Layout

end LayoutWatch
