import LayoutWatch.Binary
import LayoutWatch.Shift

/-!
# Scanning a binary for signatures

A signature is looked for with its context first and without it if that fails. Of several sites
the displacement that most of them carry is taken, a tie going to the earliest site. Fields that
were seen at other offsets are reported as changes, and changes that share a delta as a shift.
-/

namespace LayoutWatch

/-- A field was seen at another offset than expected. -/
structure OffsetChange where
  /-- Struct of the field. -/
  structName : String
  /-- Key of the field. -/
  fieldName : String
  /-- Expected offset. -/
  declaredOffset : UInt64
  /-- Offset at which the field was seen. -/
  observedOffset : UInt64
  /-- How far the two are apart. -/
  delta : Int
  /-- Score of the sighting. -/
  confidence : UInt8
  /-- The shared shift that the change belongs to. -/
  label : Option String
  /-- Other offsets at which signatures of the field saw it, ascending. -/
  conflicts : List UInt64
  deriving DecidableEq, Repr

/-- A delta that several changes share. -/
structure SharedShift where
  /-- The delta in words. -/
  label : String
  /-- The delta. -/
  delta : Int
  /-- Structs of the changes, ascending. -/
  structs : List String
  /-- Qualified names of the changed fields. -/
  fields : List String
  /-- Number of changes with the delta. -/
  matchCount : Nat
  /-- Number of changes in those structs. -/
  totalCandidates : Nat
  /-- Share of the changes with the delta. -/
  confidence : Binary64
  /-- What probably happened. -/
  likelyCause : String
  /-- Qualified names of fields that speak against the shift. -/
  anomalies : List String
  deriving DecidableEq, Repr

/-- The outcome of a scan. -/
structure ScanReport where
  /-- Name of the binary. -/
  binaryIdentifier : String
  /-- Digest of the binary. -/
  binaryHash : String
  /-- When the scan took place. -/
  scannedAt : String
  /-- Number of signatures that were found. -/
  matched : Nat
  /-- Number of signatures that were not found. -/
  missing : Nat
  /-- Number of signatures. -/
  total : Nat
  /-- What became of each signature. -/
  sightings : List Sighting
  /-- Fields at other offsets than expected. -/
  changes : List OffsetChange
  /-- Deltas that several changes share. -/
  shifts : List SharedShift
  deriving DecidableEq, Repr

namespace ScanReport

/-- Every signature was found. -/
def isComplete (r : ScanReport) : Bool := r.missing == 0

/-- The signatures that were not found. -/
def missingSightings (r : ScanReport) : List Sighting := r.sightings.filter (!·.found)

end ScanReport

namespace Signature

/-- The patterns of a signature. -/
structure Patterns where
  /-- The pattern itself. -/
  main : Pattern
  /-- The bytes in front. -/
  before : Option Pattern
  /-- The bytes behind. -/
  behind : Option Pattern

/-- Read a text that may be absent. -/
def parseOptional : Option String → Except Pattern.Malformed (Option Pattern)
  | none => .ok none
  | some text => (Pattern.parse text).map some

/-- Read the texts of a signature; the first malformed one is the fault. -/
def patterns (s : Signature) : Except Pattern.Malformed Patterns := do
  let main ← Pattern.parse s.pattern
  let before ← parseOptional s.contextBefore
  let behind ← parseOptional s.contextAfter
  return ⟨main, before, behind⟩

namespace Patterns

/-- Some context is known. -/
def hasContext (p : Patterns) : Bool := p.before.isSome || p.behind.isSome

/-- Cells in front of the pattern. -/
def lead (p : Patterns) : Pattern := p.before.getD []

/-- The pattern with its context. -/
def whole (p : Patterns) : Pattern := p.lead ++ p.main ++ p.behind.getD []

end Patterns

end Signature

namespace Sighting

/-- An offset with the sites that carry it. -/
structure Tally where
  /-- The offset. -/
  value : UInt64
  /-- Number of sites. -/
  count : Nat
  /-- The first of the sites. -/
  first : Nat
  deriving DecidableEq, Repr

/-- More sites win, then the earlier first site. -/
def Tally.beats (a b : Tally) : Bool :=
  decide (b.count < a.count ∨ a.count = b.count ∧ a.first < b.first)

/-- The offsets that sites carry, with their counts. -/
def tallies (sites : List Nat) (observe : Nat → Option UInt64) : List Tally :=
  (Ordered.collect (sites.filterMap fun site => (observe site).map (·, site))).map
    fun (value, own) => ⟨value, own.length, own.headD 0⟩

/-- The site that is reported and the offset seen there. Where no site carries an offset, the
first site is reported. -/
def chooseSite (first : Nat) (sites : List Nat) (observe : Nat → Option UInt64) :
    Nat × Option UInt64 :=
  match Ordered.best? Tally.beats (tallies sites observe) with
  | some best => (best.first, some best.value)
  | none => (first, none)

/-- The offset that a match carries: the displacement, unless that is negative, or the expected
offset where the pattern leaves nothing open. -/
def observe (b : Binary) (s : Signature) (p : Pattern) (site : Nat) : Option UInt64 :=
  if p.wildcardRun?.isNone then some s.expectedOffset
  else
    match p.displacement? b.bytes site with
    | some (.ofNat n) => some (UInt64.ofNat n)
    | _ => none

end Sighting

namespace Binary

/-- The sites of a signature with its context, at the pattern itself. -/
def contextSites (b : Binary) (kind : Signature.Kind) (p : Signature.Patterns) : List Nat :=
  if p.hasContext then (b.sites (b.searchWindows kind) p.whole).map (· + p.lead.length) else []

/-- The sighting of a signature whose patterns have been read. -/
def sightPatterns (b : Binary) (s : Signature) (p : Signature.Patterns) : Sighting :=
  let withContext := b.contextSites s.kind p
  let sites :=
    if withContext.isEmpty then b.sites (b.searchWindows s.kind) p.main else withContext
  match sites with
  | [] => Sighting.missing s
  | first :: _ =>
    let (fileOffset, observedOffset) :=
      Sighting.chooseSite first sites (Sighting.observe b s p.main)
    { structName := s.structName
      fieldName := s.fieldName
      kind := s.kind
      expectedOffset := s.expectedOffset
      found := true
      fileOffset := some fileOffset
      observedOffset
      confidence := Score.found s.kind sites.length (!withContext.isEmpty)
      occurrences := sites.length
      contextMatched := !withContext.isEmpty }

/-- The sighting of a signature, in a binary that is known to be valid. -/
def sightValid (b : Binary) (s : Signature) : Except ScanFault Sighting :=
  match s.patterns with
  | .ok p => .ok (b.sightPatterns s p)
  | .error cause => .error (.malformedPattern s.structName s.fieldName cause)

/-- Look for a signature. -/
def sight (b : Binary) (s : Signature) : Except ScanFault Sighting := do
  let _ ← b.validImage
  b.sightValid s

end Binary

namespace OffsetChange

/-- Sightings that saw an offset, by struct and field in the order of their first one. -/
def byField (sightings : List Sighting) : List ((String × String) × List Sighting) :=
  Ordered.collect <| (sightings.filter fun s => s.found && s.observedOffset.isSome).map
    fun s => ((s.structName, s.fieldName), s)

/-- The change that the sightings of one field amount to: the first of those with the best score
that saw another offset than expected. -/
def ofField? (sightings : List Sighting) : Option OffsetChange := do
  let best ← Ordered.best? (fun a b => b.confidence ≤ a.confidence)
    (sightings.filter Sighting.isChanged)
  let observed ← best.observedOffset
  let others := (sightings.filterMap (·.observedOffset)).filter (· != observed)
  return {
    structName := best.structName
    fieldName := best.fieldName
    declaredOffset := best.expectedOffset
    observedOffset := observed
    delta := Delta.between best.expectedOffset observed
    confidence := best.confidence
    label := none
    conflicts := Ordered.dropRepeats (others.mergeSort fun a b => decide (a ≤ b)) }

/-- The changes that a list of sightings amounts to, at most one for a field. -/
def ofSightings (sightings : List Sighting) : List OffsetChange :=
  (byField sightings).filterMap fun (_, own) => ofField? own

/-- The sample of a shift that a change gives. -/
def shift (c : OffsetChange) : Shift :=
  Shift.ofOffsets c.structName c.fieldName c.declaredOffset c.observedOffset

end OffsetChange

namespace SharedShift

/-- The likely cause of a shift in one struct. -/
def singleCause : String := "single struct: fields shifted"

/-- The likely cause of a shift in several structs. -/
def multipleCause : String := "multiple structs: possible base-class size change"

/-- The text that labels a delta. -/
def labelOf (delta : Int) : String := "delta " ++ Delta.text delta

/-- Signatures of the field of a sample disagree. -/
def isDisputed (changes : List OffsetChange) (s : Shift) : Bool :=
  changes.any fun c =>
    c.structName == s.structName && c.fieldName == s.member && !c.conflicts.isEmpty

/-- The shared shift of a group of changes. -/
def ofGroup (changes : List OffsetChange) (g : ShiftGroup) : SharedShift where
  label := labelOf g.delta
  delta := g.delta
  structs := g.structs
  fields := g.memberNames
  matchCount := g.members.length
  totalCandidates := g.totalCandidates
  confidence := g.confidence
  likelyCause := if 1 < g.structs.length then multipleCause else singleCause
  anomalies :=
    (g.anomalies ++ g.members.filter (isDisputed changes)).map Shift.qualified

/-- The labels of groups, under the struct and the name of each member. -/
def memberLabels (groups : List ShiftGroup) : List ((String × String) × String) :=
  groups.flatMap fun g => g.members.map fun s => ((s.structName, s.member), labelOf g.delta)

end SharedShift

/-- The change with the label that was given to its field last, if there is one. -/
def OffsetChange.labelled (labels : List ((String × String) × String)) (c : OffsetChange) :
    OffsetChange :=
  { c with label := labels.reverse.lookup (c.structName, c.fieldName) }

/-- The report on a list of sightings. -/
def ScanReport.ofSightings (identifier hash scannedAt : String) (sightings : List Sighting) :
    ScanReport :=
  let changes := OffsetChange.ofSightings sightings
  let groups := ShiftGroup.ofSamples (changes.map OffsetChange.shift)
  let matched := sightings.countP (·.found)
  { binaryIdentifier := identifier
    binaryHash := hash
    scannedAt
    matched
    missing := sightings.length - matched
    total := sightings.length
    sightings
    changes := changes.map (OffsetChange.labelled (SharedShift.memberLabels groups))
    shifts := groups.map (SharedShift.ofGroup changes) }

/-- Look for the signatures of all sets in a binary. -/
def Binary.scan (b : Binary) (sets : List SignatureSet) (scannedAt : String) :
    Except ScanFault ScanReport := do
  let _ ← b.validImage
  let sightings ← (sets.flatMap (·.signatures)).mapM b.sightValid
  return ScanReport.ofSightings b.identifier b.hash scannedAt sightings

end LayoutWatch
