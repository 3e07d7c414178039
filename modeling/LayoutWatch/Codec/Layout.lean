import LayoutWatch.Json.Lexeme
import LayoutWatch.Layout

/-!
# Written layouts

Layouts are read from any notation and written as structured text. Lists may be left out when they
are read, and members that may be absent are written only when they are there.
-/

namespace LayoutWatch

open Json

variable {σ : Type} [Scalar σ]

/-- Read a field. -/
def Field.ofTree? (t : Tree σ) : Option Field := do
  let r ← Record.ofTree? ["name", "offset", "type", "size"] t
  return {
    name := ← r.optional "name" Tree.text?
    offset := ← r.required "offset" Tree.word64?
    type := ← r.optional "type" Tree.text?
    size := ← r.optional "size" Tree.word64? }

/-- Write a field. -/
def Field.toValue (f : Field) : Value :=
  ofMembers [
    presentMember "name" ofText f.name,
    member "offset" (ofNat f.offset.toNat),
    presentMember "type" ofText f.type,
    presentMember "size" (fun n => ofNat n.toNat) f.size]

/-- Read a virtual function. -/
def VirtualFunction.ofTree? (t : Tree σ) : Option VirtualFunction := do
  let r ← Record.ofTree? ["name", "slot"] t
  return { name := ← r.required "name" Tree.text?, slot := ← r.required "slot" Tree.word32? }

/-- Write a virtual function. -/
def VirtualFunction.toValue (f : VirtualFunction) : Value :=
  ofMembers [member "name" (ofText f.name), member "slot" (ofNat f.slot.toNat)]

/-- Read a function. -/
def MemberFunction.ofTree? (t : Tree σ) : Option MemberFunction := do
  let r ← Record.ofTree? ["name", "address"] t
  return {
    name := ← r.required "name" Tree.text?
    address := ← r.optional "address" Tree.word64? }

/-- Write a function. -/
def MemberFunction.toValue (f : MemberFunction) : Value :=
  ofMembers [
    member "name" (ofText f.name),
    presentMember "address" (fun n => ofNat n.toNat) f.address]

/-- Read a struct. -/
def StructLayout.ofTree? (t : Tree σ) : Option StructLayout := do
  let r ← Record.ofTree? ["name", "base", "size", "fields", "vfuncs", "functions"] t
  return {
    name := ← r.required "name" Tree.text?
    base := ← r.optional "base" Tree.text?
    size := ← r.optional "size" Tree.word64?
    fields := ← r.defaulted "fields" [] (Tree.list? Field.ofTree?)
    virtuals := ← r.defaulted "vfuncs" [] (Tree.list? VirtualFunction.ofTree?)
    functions := ← r.defaulted "functions" [] (Tree.list? MemberFunction.ofTree?) }

/-- Write a struct. -/
def StructLayout.toValue (s : StructLayout) : Value :=
  ofMembers [
    member "name" (ofText s.name),
    presentMember "base" ofText s.base,
    presentMember "size" (fun n => ofNat n.toNat) s.size,
    member "fields" (ofList Field.toValue s.fields),
    member "vfuncs" (ofList VirtualFunction.toValue s.virtuals),
    member "functions" (ofList MemberFunction.toValue s.functions)]

/-- Read a layout. -/
def Layout.ofTree? (t : Tree σ) : Option Layout := do
  let r ← Record.ofTree? ["version", "binary_hash", "structs"] t
  return {
    version := ← r.required "version" Tree.text?
    binaryHash := ← r.optional "binary_hash" Tree.text?
    structs := ← r.defaulted "structs" [] (Tree.list? StructLayout.ofTree?) }

/-- Write a layout. -/
def Layout.toValue (l : Layout) : Value :=
  ofMembers [
    member "version" (ofText l.version),
    presentMember "binary_hash" ofText l.binaryHash,
    member "structs" (ofList StructLayout.toValue l.structs)]

/-- Read a declaration. -/
def Declaration.ofTree? (t : Tree σ) : Option Declaration := do
  let r ← Record.ofTree? ["struct_name", "field_name", "offset"] t
  return {
    structName := ← r.required "struct_name" Tree.text?
    fieldName := ← r.required "field_name" Tree.text?
    offset := ← r.required "offset" Tree.word64? }

/-- Write a declaration. -/
def Declaration.toValue (d : Declaration) : Value :=
  ofMembers [
    member "struct_name" (ofText d.structName),
    member "field_name" (ofText d.fieldName),
    member "offset" (ofNat d.offset.toNat)]

end LayoutWatch
