import LayoutWatch.Binary
import LayoutWatch.Layout
import LayoutWatch.Text.Quoted

/-!
# Extracting signatures

A declared field gets a signature from the accesses with its offset as displacement: the first
access, with the displacement left open, and the bytes around it. A struct gets one from its type
name, where that begins a name and does not end a longer one.
-/

namespace LayoutWatch

/-- What an extraction accepts. -/
structure ExtractOptions where
  /-- Least score of a signature. -/
  minConfidence : UInt8
  /-- Largest number of accesses of a field. -/
  maxOccurrences : UInt64
  /-- Number of bytes of context on each side. -/
  contextBytes : UInt64
  /-- Type names are looked for. -/
  includeTypeNames : Bool
  /-- Version label of the binary. -/
  binaryVersion : Option String
  deriving DecidableEq, Repr

/-- What an extraction accepts unless told otherwise. -/
def ExtractOptions.standard : ExtractOptions := ⟨50, 10, 8, true, none⟩

namespace Extraction

/-- How many fields were tried and what became of them. -/
structure Tally where
  /-- Fields that were tried. -/
  attempted : Nat
  /-- Fields with a signature. -/
  covered : Nat
  /-- Fields without an access. -/
  absent : Nat
  /-- Fields with too many accesses. -/
  ambiguous : Nat
  /-- Fields whose signature scored too low. -/
  belowThreshold : Nat
  /-- Structs with a signature of their type name. -/
  typeNames : Nat
  deriving DecidableEq, Repr

/-- What became of one field. -/
inductive Attempt where
  /-- No access has its offset as displacement. -/
  | absent
  /-- Too many accesses have. -/
  | ambiguous
  /-- The signature would score too low. -/
  | weak
  /-- The field has a signature. -/
  | covered (signature : Signature)
  deriving DecidableEq, Repr

/-- The signature, if there is one. -/
def Attempt.signature? : Attempt → Option Signature
  | .covered signature => some signature
  | .absent | .ambiguous | .weak => none

/-- Bytes in the notation of patterns; nothing for no bytes. -/
def contextText? (bytes : List UInt8) : Option String :=
  if bytes.isEmpty then none else some (Pattern.textOfBytes bytes)

/-- The bytes in front of an instruction and behind it, up to `width` each, as far as they lie in
the first window that holds the instruction. -/
def contextAround (bytes : Bytes) (windows : List Window) (site length width : Nat) :
    Option String × Option String :=
  if width = 0 then (none, none)
  else
    match windows.find? (·.contains site) with
    | none => (none, none)
    | some w =>
      let afterStart := min (site + length) w.stop
      (contextText? (bytes.within ⟨max (site - width) w.start, site⟩),
        contextText? (bytes.within ⟨afterStart, min (afterStart + width) w.stop⟩))

/-- The remark on the signature of a field: the access that it was made from, and how many there
are. -/
def siteRemark (first : Access) (sites : Nat) : String :=
  first.kind.label ++ " at file offset " ++ Text.hex first.fileOffset ++ ", "
    ++ toString sites ++ " candidate site(s)"

/-- The signature of a field from its first access. -/
def fieldSignature (b : Binary) (options : ExtractOptions) (d : Declaration) (first : Access)
    (sites : Nat) : Signature :=
  let pattern := Pattern.ofBytesMasked first.bytes Access.displacementWindow
  let context := contextAround b.bytes b.executableWindows first.fileOffset pattern.length
    options.contextBytes.toNat
  { kind := .fieldAccess
    structName := d.structName
    fieldName := d.fieldName
    expectedOffset := d.offset
    pattern := pattern.text
    contextBefore := context.1
    contextAfter := context.2
    baseConfidence := Score.extracted .fieldAccess sites
    instruction := some first.kind
    notes := some (siteRemark first sites) }

/-- Try one field. -/
def attempt (b : Binary) (index : AccessIndex) (options : ExtractOptions) (d : Declaration) :
    Attempt :=
  match index.lookup d.offset.toNat with
  | [] => .absent
  | first :: rest =>
    let sites := rest.length + 1
    if options.maxOccurrences.toNat < sites then .ambiguous
    else if Score.extracted .fieldAccess sites < options.minConfidence then .weak
    else .covered (fieldSignature b options d first sites)

/-- Byte of an identifier. -/
def isIdentifierByte (b : UInt8) : Bool :=
  (0x30 ≤ b && b ≤ 0x39) || (0x41 ≤ b && b ≤ 0x5A) || (0x61 ≤ b && b ≤ 0x7A) || b == 0x5F

/-- A type name begins here: no identifier ends in front, or the mark of a class or a struct
stands there. -/
def beginsTypeName (bytes : Bytes) (site : Nat) : Bool :=
  match bytes.slice? (site - 1) 1 with
  | some [before] =>
    site = 0 || !isIdentifierByte before
      || (4 ≤ site && (bytes.within ⟨site - 4, site⟩ == [0x2E, 0x3F, 0x41, 0x56]
        || bytes.within ⟨site - 4, site⟩ == [0x2E, 0x3F, 0x41, 0x55]))
  | _ => true

/-- Leave out places that overlap a place kept before; `free` is the first one that is free. -/
def dropOverlaps (width free : Nat) : List Nat → List Nat
  | [] => []
  | site :: rest =>
    if free ≤ site then site :: dropOverlaps width (site + width) rest
    else dropOverlaps width free rest

/-- The type name of a struct as it stands in a binary. -/
def typeNameText (structName : String) : String := structName ++ "@@"

/-- Bytes of a text. -/
def textBytes (s : String) : List UInt8 := s.toUTF8.data.toList

/-- The places at which the type name of a struct begins. Overlapping occurrences count once. -/
def typeNameSites (bytes : Bytes) (structName : String) : List Nat :=
  let needle := textBytes (typeNameText structName)
  (dropOverlaps needle.length 0
    ((Pattern.ofBytes needle).findAll bytes ⟨0, bytes.size⟩)).filter (beginsTypeName bytes)

/-- The signature of a struct from its type name. -/
def typeNameSignature? (b : Binary) (options : ExtractOptions) (structName : String) :
    Option Signature :=
  let sites := (typeNameSites b.bytes structName).length
  if sites = 0 ∨ Score.extracted .typeName sites < options.minConfidence then none
  else
    some {
      kind := .typeName
      structName
      fieldName := Signature.anchorField
      expectedOffset := 0
      pattern := Pattern.textOfBytes (textBytes (typeNameText structName))
      contextBefore := none
      contextAfter := none
      baseConfidence := Score.extracted .typeName sites
      instruction := none
      notes := some ("RTTI type name " ++ Text.quoted (typeNameText structName) ++ ", "
        ++ toString sites ++ " occurrence(s)") }

/-- The signatures of the structs of a list of fields, each struct once. -/
def typeNameSignatures (b : Binary) (options : ExtractOptions) (fields : List Declaration) :
    List Signature :=
  if options.includeTypeNames then
    (fields.map (·.structName)).eraseDups.filterMap (typeNameSignature? b options)
  else []

/-- Signatures by struct, in the order in which the structs first appear. -/
def setsOf (b : Binary) (version : Option String) (extractedAt : String)
    (signatures : List Signature) : List SignatureSet :=
  let hash := b.hash
  (Ordered.collect (signatures.map fun s => (s.structName, s))).map fun (structName, own) =>
    { structName
      binaryHash := hash
      binaryVersion := version
      formatVersion := SignatureSet.currentFormat
      extractedAt
      signatures := own }

end Extraction

/-- The outcome of an extraction. -/
structure Extraction where
  /-- Signatures by struct. -/
  sets : List SignatureSet
  /-- How many fields were tried and what became of them. -/
  tally : Extraction.Tally
  deriving DecidableEq, Repr

/-- Number of signatures. -/
def Extraction.signatureCount (e : Extraction) : Nat :=
  (e.sets.flatMap (·.signatures)).length

open Extraction in
/-- Extract signatures for declared fields and for their structs. -/
def Binary.extract (b : Binary) (fields : List Declaration) (options : ExtractOptions)
    (extractedAt : String) : Except ScanFault Extraction :=
  b.index.map fun index =>
    let attempts := fields.map (attempt b index options)
    let fieldSignatures := attempts.filterMap Attempt.signature?
    let typeNames := typeNameSignatures b options fields
    { sets := setsOf b options.binaryVersion extractedAt (fieldSignatures ++ typeNames)
      tally :=
        { attempted := fields.length
          covered := fieldSignatures.length
          absent := attempts.countP (· == .absent)
          ambiguous := attempts.countP (· == .ambiguous)
          belowThreshold := attempts.countP (· == .weak)
          typeNames := typeNames.length } }

end LayoutWatch
