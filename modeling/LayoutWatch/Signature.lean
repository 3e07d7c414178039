import LayoutWatch.Access

/-!
# Signatures and their scores

A signature is a byte pattern that leads to one field of a struct, or to the type name of the
struct. It is scored twice: when it is extracted, where a single site earns a bonus, and when it
is found again, where every further site costs points and agreeing context earns some.
-/

namespace LayoutWatch

/-- What a signature looks for. -/
inductive Signature.Kind where
  /-- Name of a type in the run-time type information. -/
  | typeName
  /-- Reference to a virtual table. -/
  | vtableReference
  /-- Access to a field through a displacement. -/
  | fieldAccess
  /-- Beginning of a function. -/
  | functionPrologue
  /-- Reference to a string. -/
  | stringReference
  deriving DecidableEq, Repr

namespace Signature.Kind

/-- Name of a kind in files and reports. -/
def label : Signature.Kind → String
  | .typeName => "rtti"
  | .vtableReference => "vtable_ref"
  | .fieldAccess => "field_access"
  | .functionPrologue => "function_prologue"
  | .stringReference => "string_ref"

/-- Trust in a kind before anything is known about its sites. -/
def weight : Signature.Kind → Nat
  | .typeName => 99
  | .vtableReference => 95
  | .fieldAccess => 85
  | .functionPrologue => 80
  | .stringReference => 70

/-- Signatures of this kind stand in code and are looked for in executable sections only. -/
def isCode : Signature.Kind → Bool
  | .typeName | .stringReference => false
  | .vtableReference | .fieldAccess | .functionPrologue => true

end Signature.Kind

namespace Score

/-! Points are signed words of 32 bits. -/

/-- Bonus at extraction for a pattern with a single site. -/
def singleSiteBonus : Int32 := 10

/-- Points lost for each further site. -/
def furtherSitePenalty : Int32 := 10

/-- Most points that further sites can cost. -/
def penaltyLimit : Int32 := 30

/-- Bonus in a scan for agreeing context. -/
def contextBonus : Int32 := 5

/-- Sites beyond the first, as many as a word counts. -/
def furtherSites (sites : Nat) : Int32 := Int32.ofNat (min (sites - 1) 0x7FFFFFFF)

/-- The product of two words, or the end of the range behind which it lies. -/
def saturatedProduct (a b : Int32) : Int32 := Int32.ofIntClamp (a.toInt * b.toInt)

/-- Points lost at this number of sites. -/
def penalty (sites : Nat) : Int32 :=
  min (saturatedProduct (furtherSites sites) furtherSitePenalty) penaltyLimit

/-- Points of a kind that loses none and earns none. -/
def base (kind : Signature.Kind) : Int32 := Int32.ofNat kind.weight

/-- The nearest score from 0 to 100. -/
def clamp (points : Int32) : UInt8 := (max 0 (min 100 points)).toUInt32.toUInt8

/-- Points of a signature that was found at this number of sites. -/
def foundPoints (kind : Signature.Kind) (sites : Nat) (withContext : Bool) : Int32 :=
  base kind - penalty sites + if withContext then contextBonus else 0

/-- Score of a signature that was found at this number of sites. -/
def found (kind : Signature.Kind) (sites : Nat) (withContext : Bool) : UInt8 :=
  clamp (foundPoints kind sites withContext)

/-- Score of a signature that was extracted from this number of sites. -/
def extracted (kind : Signature.Kind) (sites : Nat) : UInt8 :=
  if sites = 1 then clamp (base kind + singleSiteBonus) else clamp (base kind - penalty sites)

end Score

/-- A byte pattern that leads to a field or to the type name of a struct. -/
structure Signature where
  /-- What the pattern looks for. -/
  kind : Signature.Kind
  /-- Struct that the signature belongs to. -/
  structName : String
  /-- Field that the signature leads to. -/
  fieldName : String
  /-- Offset of the field when the signature was extracted. -/
  expectedOffset : UInt64
  /-- Text of the pattern; the displacement is its first run of wildcards. -/
  pattern : String
  /-- Text of the bytes in front. -/
  contextBefore : Option String
  /-- Text of the bytes behind. -/
  contextAfter : Option String
  /-- Score at extraction. -/
  baseConfidence : UInt8
  /-- The access that the pattern was made from. -/
  instruction : Option Access.Kind
  /-- Remarks for the reader. -/
  notes : Option String
  deriving DecidableEq, Repr

/-- Field name of signatures that stand for the struct as a whole. -/
def Signature.anchorField : String := "__vftable"

/-- The signature stands for the struct as a whole. -/
def Signature.isAnchor (s : Signature) : Bool := s.fieldName == anchorField

/-- Signatures of one struct from one binary. -/
structure SignatureSet where
  /-- The struct. -/
  structName : String
  /-- Digest of the binary. -/
  binaryHash : String
  /-- Version label of the binary. -/
  binaryVersion : Option String
  /-- Version of the file format. -/
  formatVersion : UInt32
  /-- When the signatures were extracted. -/
  extractedAt : String
  /-- The signatures. -/
  signatures : List Signature
  deriving DecidableEq, Repr

/-- Version of the format that is written. -/
def SignatureSet.currentFormat : UInt32 := 1

/-- Struct and digest tell sets apart. -/
def SignatureSet.identity (s : SignatureSet) : String × String := (s.structName, s.binaryHash)

/-- What became of one signature in a scan. -/
structure Sighting where
  /-- Struct of the signature. -/
  structName : String
  /-- Field of the signature. -/
  fieldName : String
  /-- Kind of the signature. -/
  kind : Signature.Kind
  /-- Offset that the signature was extracted with. -/
  expectedOffset : UInt64
  /-- The pattern occurs. -/
  found : Bool
  /-- Where it occurs. -/
  fileOffset : Option Nat
  /-- Offset of the field that was read there. -/
  observedOffset : Option UInt64
  /-- Score of the sighting. -/
  confidence : UInt8
  /-- Number of sites. -/
  occurrences : Nat
  /-- The context agrees at the sites. -/
  contextMatched : Bool
  deriving DecidableEq, Repr

namespace Sighting

/-- The sighting of a signature that occurs nowhere. -/
def missing (s : Signature) : Sighting where
  structName := s.structName
  fieldName := s.fieldName
  kind := s.kind
  expectedOffset := s.expectedOffset
  found := false
  fileOffset := none
  observedOffset := none
  confidence := 0
  occurrences := 0
  contextMatched := false

/-- The field was seen at another offset than expected. -/
def isChanged (s : Sighting) : Bool :=
  s.found && s.observedOffset.any (· != s.expectedOffset)

end Sighting

end LayoutWatch
