import LayoutWatch.Layout
import LayoutWatch.Shift

/-!
# Comparing two layouts

Structs are paired by name, fields by key, virtual and other functions by name. Of the members
that both layouts declare, each family of structs may agree on one shift of its fields and on one
of its slots, and such a shift is proposed.
-/

namespace LayoutWatch

/-- What became of a declaration. -/
inductive Change where
  /-- Only the new layout has it. -/
  | added
  /-- Only the old layout has it. -/
  | removed
  /-- Both have it, in two forms. -/
  | modified
  /-- Both have it, in one form. -/
  | unchanged
  deriving DecidableEq, Repr

/-- Name of a change. -/
def Change.label : Change → String
  | .added => "added"
  | .removed => "removed"
  | .modified => "modified"
  | .unchanged => "unchanged"

/-- The change of what both layouts have. -/
def Change.ofSame (same : Bool) : Change := if same then .unchanged else .modified

/-- What became of a field. -/
structure FieldChange where
  /-- Key of the field. -/
  name : String
  /-- What became of it. -/
  change : Change
  /-- Offset in the old layout. -/
  oldOffset : Option UInt64
  /-- Offset in the new layout. -/
  newOffset : Option UInt64
  /-- How far the field moved, if both layouts have it. -/
  delta : Option Int
  /-- Type in the old layout. -/
  oldType : Option String
  /-- Type in the new layout. -/
  newType : Option String
  /-- Size in the old layout. -/
  oldSize : Option UInt64
  /-- Size in the new layout. -/
  newSize : Option UInt64
  deriving DecidableEq, Repr

/-- What became of a virtual function. -/
structure SlotChange where
  /-- Name of the function. -/
  name : String
  /-- What became of it. -/
  change : Change
  /-- Slot in the old layout. -/
  oldSlot : Option UInt32
  /-- Slot in the new layout. -/
  newSlot : Option UInt32
  /-- How far the function moved, if both layouts have it. -/
  delta : Option Int
  deriving DecidableEq, Repr

/-- What became of a function that is not virtual. -/
structure FunctionChange where
  /-- Name of the function. -/
  name : String
  /-- What became of it. -/
  change : Change
  /-- Address in the old layout. -/
  oldAddress : Option UInt64
  /-- Address in the new layout. -/
  newAddress : Option UInt64
  deriving DecidableEq, Repr

/-- What became of a struct. Its members are listed only if it was modified. -/
structure StructChange where
  /-- Name of the struct. -/
  name : String
  /-- What became of it. -/
  change : Change
  /-- Size in the old layout. -/
  oldSize : Option UInt64
  /-- Size in the new layout. -/
  newSize : Option UInt64
  /-- Base in the old layout. -/
  oldBase : Option String
  /-- Base in the new layout. -/
  newBase : Option String
  /-- What became of its fields. -/
  fields : List FieldChange
  /-- What became of its virtual functions. -/
  virtuals : List SlotChange
  /-- What became of its other functions. -/
  functions : List FunctionChange
  deriving DecidableEq, Repr

/-- The members that a shift is proposed for. -/
inductive ShiftProposal.Kind where
  /-- Fields. -/
  | field
  /-- Slots of the virtual table. -/
  | slot
  deriving DecidableEq, Repr

/-- A shift that the members of a family agree on. -/
structure ShiftProposal where
  /-- Root of the family. -/
  hierarchy : String
  /-- The members that it is about. -/
  kind : ShiftProposal.Kind
  /-- The proposal in words. -/
  label : String
  /-- The delta agreed on. -/
  delta : Int
  /-- Structs of the agreeing members, ascending. -/
  structs : List String
  /-- Qualified names of the agreeing members. -/
  members : List String
  /-- Number of agreeing members. -/
  matchCount : Nat
  /-- Number of members that both layouts declare. -/
  totalCandidates : Nat
  /-- Share of the agreeing members. -/
  confidence : Binary64
  /-- Members that moved otherwise. -/
  anomalies : List Shift
  /-- The proposal has not been turned off. -/
  enabled : Bool
  deriving DecidableEq, Repr

/-- The outcome of comparing two layouts. -/
structure Comparison where
  /-- Version of the old layout. -/
  oldVersion : String
  /-- Version of the new layout. -/
  newVersion : String
  /-- Structs of the old layout, then those that were added. -/
  structs : List StructChange
  /-- Proposed shifts: of fields by family, then of slots by family. -/
  proposals : List ShiftProposal
  deriving DecidableEq, Repr

namespace FieldChange

/-- A field that both layouts have. -/
def kept (old new : Field) : FieldChange where
  name := old.key
  change := .ofSame (old.offset == new.offset && old.type == new.type && old.size == new.size)
  oldOffset := some old.offset
  newOffset := some new.offset
  delta := some (Delta.between old.offset new.offset)
  oldType := old.type
  newType := new.type
  oldSize := old.size
  newSize := new.size

/-- A field that only the old layout has. -/
def removed (old : Field) : FieldChange :=
  ⟨old.key, .removed, some old.offset, none, none, old.type, none, old.size, none⟩

/-- A field that only the new layout has. -/
def added (new : Field) : FieldChange :=
  ⟨new.key, .added, none, some new.offset, none, none, new.type, none, new.size⟩

/-- Both layouts have the field, at different offsets. -/
def moved (f : FieldChange) : Bool := f.delta.any (· != 0)

/-- Pair the fields of a struct by key. Where new fields share a key, the last one counts. -/
def list (old new : List Field) : List FieldChange :=
  let paired := old.map fun before =>
    match (new.filter (·.key == before.key)).getLast? with
    | some after => kept before after
    | none => removed before
  paired ++ (new.filter fun after => !old.any (·.key == after.key)).map added

end FieldChange

namespace SlotChange

/-- A virtual function that both layouts have. -/
def kept (old new : VirtualFunction) : SlotChange :=
  ⟨old.name, .ofSame (old.slot == new.slot), some old.slot, some new.slot,
    some (Int.ofNat new.slot.toNat - Int.ofNat old.slot.toNat)⟩

/-- Pair the virtual functions of a struct by name. -/
def list (old new : List VirtualFunction) : List SlotChange :=
  let paired := old.map fun before =>
    match new.find? (·.name == before.name) with
    | some after => kept before after
    | none => ⟨before.name, .removed, some before.slot, none, none⟩
  paired ++ (new.filter fun after => !old.any (·.name == after.name)).map fun after =>
    ⟨after.name, .added, none, some after.slot, none⟩

end SlotChange

namespace FunctionChange

/-- Pair the functions of a struct by name. -/
def list (old new : List MemberFunction) : List FunctionChange :=
  let paired := old.map fun before =>
    match new.find? (·.name == before.name) with
    | some after =>
      ⟨before.name, .ofSame (after.address == before.address), before.address, after.address⟩
    | none => ⟨before.name, .removed, before.address, none⟩
  paired ++ (new.filter fun after => !old.any (·.name == after.name)).map fun after =>
    ⟨after.name, .added, none, after.address⟩

end FunctionChange

namespace StructChange

/-- A struct that both layouts have. -/
def kept (old new : StructLayout) : StructChange :=
  let fields := FieldChange.list old.fields new.fields
  let virtuals := SlotChange.list old.virtuals new.virtuals
  let functions := FunctionChange.list old.functions new.functions
  let same := fields.all (·.change == .unchanged) && virtuals.all (·.change == .unchanged)
    && functions.all (·.change == .unchanged) && old.size == new.size && old.base == new.base
  { name := old.name
    change := .ofSame same
    oldSize := old.size
    newSize := new.size
    oldBase := old.base
    newBase := new.base
    fields := if same then [] else fields
    virtuals := if same then [] else virtuals
    functions := if same then [] else functions }

/-- A struct that only the old layout has. -/
def removed (old : StructLayout) : StructChange :=
  ⟨old.name, .removed, old.size, none, old.base, none, [], [], []⟩

/-- A struct that only the new layout has. -/
def added (new : StructLayout) : StructChange :=
  ⟨new.name, .added, none, new.size, none, new.base, [], [], []⟩

/-- Pair the structs of two layouts by name. -/
def list (old new : Layout) : List StructChange :=
  let paired := old.structs.map fun before =>
    match new.struct? before.name with
    | some after => kept before after
    | none => removed before
  paired ++ (new.structs.filter fun after => (old.struct? after.name).isNone).map added

end StructChange

namespace ShiftProposal

/-- The members of a kind in words. -/
def Kind.noun : ShiftProposal.Kind → String
  | .field => "fields"
  | .slot => "vtable slots"

/-- The shift that the samples of a family agree on. -/
def ofSamples? (kind : ShiftProposal.Kind) (hierarchy : String) (samples : List Shift) :
    Option ShiftProposal :=
  (ShiftGroup.majority? samples).map fun group =>
    { hierarchy
      kind
      label := hierarchy ++ ": " ++ kind.noun ++ " " ++ Delta.text group.delta
      delta := group.delta
      structs := group.structs
      members := group.memberNames
      matchCount := group.members.length
      totalCandidates := group.totalCandidates
      confidence := group.confidence
      anomalies := group.anomalies
      enabled := true }

/-- The shifts that the families of a list of samples agree on, ascending by root. -/
def ofFamilies (kind : ShiftProposal.Kind) (samples : List (String × Shift)) :
    List ShiftProposal :=
  (Ordered.table samples).filterMap fun (hierarchy, samples) => ofSamples? kind hierarchy samples

end ShiftProposal

namespace Comparison

/-- The old structs that the new layout declares too, each with its family and its new form. -/
def pairs (old new : Layout) : List (String × StructLayout × StructLayout) :=
  old.structs.filterMap fun before =>
    (new.struct? before.name).map fun after => (old.root before.name, before, after)

/-- The fields that both layouts declare, by family. -/
def fieldSamples (old new : Layout) : List (String × Shift) :=
  (pairs old new).flatMap fun (root, before, after) =>
    before.fields.filterMap fun field =>
      (after.field? field.key).map fun moved =>
        (root, Shift.ofOffsets before.name field.key field.offset moved.offset)

/-- The virtual functions that both layouts declare, by family. -/
def slotSamples (old new : Layout) : List (String × Shift) :=
  (pairs old new).flatMap fun (root, before, after) =>
    before.virtuals.filterMap fun function =>
      (after.virtuals.find? (·.name == function.name)).map fun moved =>
        (root, Shift.ofSigned before.name function.name function.slot.toNat moved.slot.toNat)

/-- Compare two layouts. -/
def ofLayouts (old new : Layout) : Comparison where
  oldVersion := old.version
  newVersion := new.version
  structs := StructChange.list old new
  proposals :=
    ShiftProposal.ofFamilies .field (fieldSamples old new)
      ++ ShiftProposal.ofFamilies .slot (slotSamples old new)

/-- Number of structs with this change. -/
def count (c : Comparison) (change : Change) : Nat := c.structs.countP (·.change == change)

/-- The fields that moved, with their structs. -/
def movedFields (c : Comparison) : List (String × FieldChange) :=
  (c.structs.flatMap fun s => s.fields.map fun f => (s.name, f)).filter (·.2.moved)

/-- The proposals that are not turned off and reach a bound. -/
def actionable (c : Comparison) (bound : Binary64.Bound) : List ShiftProposal :=
  c.proposals.filter fun p => p.enabled && bound.reachedBy p.confidence

/-- Leave out the proposals that do not reach a bound. -/
def retain (c : Comparison) (bound : Binary64.Bound) : Comparison :=
  { c with proposals := c.proposals.filter fun p => bound.reachedBy p.confidence }

end Comparison

end LayoutWatch
