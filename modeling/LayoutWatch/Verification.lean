import LayoutWatch.Layout
import LayoutWatch.Shift
import LayoutWatch.Signature

/-!
# Verifying a layout against observations

Each observation of a field in a binary either agrees with the declared offset or is a finding:
an unknown struct, an unknown field, or another offset. Declared fields that nothing was observed
of are reported too, and families whose observations agree on a shift get a proposal.
-/

namespace LayoutWatch

/-- A field was seen at an offset. -/
structure Observation where
  /-- Struct of the field. -/
  structName : String
  /-- Key of the field. -/
  fieldName : String
  /-- Where it was seen. -/
  observedOffset : UInt64
  /-- Score of the evidence. -/
  confidence : UInt8
  deriving DecidableEq, Repr

namespace Observation

/-- What signatures saw when they were extracted. -/
def ofSignatures (sets : List SignatureSet) : List Observation :=
  (sets.flatMap (·.signatures)).map fun s =>
    ⟨s.structName, s.fieldName, s.expectedOffset, s.baseConfidence⟩

/-- What the sightings of a scan saw. -/
def ofSightings (sightings : List Sighting) : List Observation :=
  (sightings.filter (·.found)).filterMap fun s =>
    s.observedOffset.map fun offset => ⟨s.structName, s.fieldName, offset, s.confidence⟩

end Observation

/-- How much a finding matters. -/
inductive Severity where
  /-- For the record. -/
  | info
  /-- To be looked at. -/
  | warning
  /-- The layout is wrong. -/
  | error
  deriving DecidableEq, Repr

/-- Name of a severity. -/
def Severity.label : Severity → String
  | .info => "info"
  | .warning => "warning"
  | .error => "error"

/-- What a finding says. -/
inductive Issue.Kind where
  /-- A field was seen at another offset. -/
  | offsetMismatch
  /-- A struct is not declared. -/
  | structNotFound
  /-- A field is not declared. -/
  | missingField
  /-- Nothing was seen of a field. -/
  | uncoveredField
  deriving DecidableEq, Repr

/-- A finding. -/
structure Issue where
  /-- What it says. -/
  kind : Issue.Kind
  /-- How much it matters. -/
  severity : Severity
  /-- Struct that it is about. -/
  structName : String
  /-- Field that it is about. -/
  fieldName : Option String
  /-- Declared offset of the field. -/
  declaredOffset : Option UInt64
  /-- Offset at which the field was seen. -/
  observedOffset : Option UInt64
  /-- How far the two are apart. -/
  delta : Option Int
  /-- Score of the evidence. -/
  confidence : Option UInt8
  /-- The finding in words. -/
  message : String
  deriving DecidableEq, Repr

/-- A new offset for a field. -/
structure Patch where
  /-- Struct of the field. -/
  structName : String
  /-- Key of the field. -/
  fieldName : String
  /-- Declared offset. -/
  currentOffset : UInt64
  /-- Offset at which the field was seen. -/
  suggestedOffset : UInt64
  /-- How far the two are apart. -/
  delta : Int
  /-- Score of the evidence. -/
  confidence : UInt8
  deriving DecidableEq, Repr

/-- A shift that the observations of a family agree on. -/
structure BulkShift where
  /-- Root of the family. -/
  hierarchy : String
  /-- The shift in words. -/
  label : String
  /-- The delta agreed on. -/
  delta : Int
  /-- Qualified names of the agreeing fields. -/
  fields : List String
  /-- Number of agreeing observations. -/
  matchCount : Nat
  /-- Number of observations that differ from the layout. -/
  totalCandidates : Nat
  /-- Share of the agreeing ones. -/
  confidence : Binary64
  /-- Qualified names of the fields that moved otherwise. -/
  anomalies : List String
  deriving DecidableEq, Repr

/-- How much of the layout was seen. -/
structure Coverage where
  /-- Number of declared fields. -/
  declared : Nat
  /-- Number of declared fields that were seen. -/
  observed : Nat
  /-- Share of those that were seen. -/
  ratio : Binary64
  deriving DecidableEq, Repr

/-- The outcome of a verification. -/
structure Verification where
  /-- Version of the layout. -/
  layoutVersion : String
  /-- Number of observations. -/
  checked : Nat
  /-- Number of observations that agree with the layout. -/
  matched : Nat
  /-- Findings. -/
  issues : List Issue
  /-- New offsets with enough evidence. -/
  patches : List Patch
  /-- New offsets to be looked at first. -/
  manualReview : List Patch
  /-- Shifts that families agree on. -/
  bulkShifts : List BulkShift
  /-- How much of the layout was seen. -/
  coverage : Coverage
  deriving DecidableEq, Repr

namespace Verification

/-- Least score of evidence for a patch. -/
def patchThreshold : UInt8 := 70

/-- Largest distance that is not an error. -/
def severeDelta : Nat := 0x100

/-- What an observation says about a layout. -/
inductive Verdict where
  /-- The struct is not declared. -/
  | unknownStruct
  /-- The struct as a whole was seen. -/
  | anchor
  /-- The field is not declared. -/
  | unknownField
  /-- The field was seen where it is declared. -/
  | agrees
  /-- The field is declared at another offset. -/
  | differs (declared : UInt64)
  deriving DecidableEq, Repr

/-- Judge an observation. -/
def judge (layout : Layout) (o : Observation) : Verdict :=
  match layout.struct? o.structName with
  | none => .unknownStruct
  | some s =>
    if o.fieldName == Signature.anchorField then .anchor
    else
      match s.field? o.fieldName with
      | none => .unknownField
      | some field =>
        if field.offset == o.observedOffset then .agrees else .differs field.offset

/-- The observation supports the layout. -/
def Verdict.isMatch : Verdict → Bool
  | .anchor | .agrees => true
  | .unknownStruct | .unknownField | .differs _ => false

/-- The observation is one of a declared field. -/
def Verdict.covers : Verdict → Bool
  | .agrees | .differs _ => true
  | .unknownStruct | .anchor | .unknownField => false

/-- The finding that a struct is not declared. -/
def structNotFound (o : Observation) : Issue where
  kind := .structNotFound
  severity := .error
  structName := o.structName
  fieldName := none
  declaredOffset := none
  observedOffset := none
  delta := none
  confidence := none
  message := "struct " ++ o.structName ++ " is not declared in the layout"

/-- The finding that a field is not declared. -/
def missingField (o : Observation) : Issue where
  kind := .missingField
  severity := .warning
  structName := o.structName
  fieldName := some o.fieldName
  declaredOffset := none
  observedOffset := some o.observedOffset
  delta := none
  confidence := some o.confidence
  message := o.structName ++ "::" ++ o.fieldName ++ " is not declared in the layout"

/-- Severity of a distance. -/
def severityOf (delta : Int) : Severity := if severeDelta < delta.natAbs then .error else .warning

/-- The finding that a field was seen at another offset. -/
def offsetMismatch (o : Observation) (declared : UInt64) : Issue :=
  let delta := Delta.between declared o.observedOffset
  { kind := .offsetMismatch
    severity := severityOf delta
    structName := o.structName
    fieldName := some o.fieldName
    declaredOffset := some declared
    observedOffset := some o.observedOffset
    delta := some delta
    confidence := some o.confidence
    message := o.structName ++ "::" ++ o.fieldName ++ " declared at " ++ Text.hex declared.toNat
      ++ " but observed at " ++ Text.hex o.observedOffset.toNat
      ++ " (" ++ Delta.text delta ++ ")" }

/-- The finding that nothing was seen of a field. -/
def uncoveredField (d : Declaration) : Issue where
  kind := .uncoveredField
  severity := .info
  structName := d.structName
  fieldName := some d.fieldName
  declaredOffset := some d.offset
  observedOffset := none
  delta := none
  confidence := none
  message := d.structName ++ "::" ++ d.fieldName ++ " has no binary evidence"

/-- The findings of the observations, in their order. A struct that is not declared is reported
once; `reported` holds those that have been. -/
def findings (layout : Layout) (reported : List String) : List Observation → List Issue
  | [] => []
  | o :: rest =>
    match judge layout o with
    | .unknownStruct =>
      if reported.contains o.structName then findings layout reported rest
      else structNotFound o :: findings layout (o.structName :: reported) rest
    | .unknownField => missingField o :: findings layout reported rest
    | .differs declared => offsetMismatch o declared :: findings layout reported rest
    | .anchor | .agrees => findings layout reported rest

/-- The new offset that an observation suggests. -/
def patch? (layout : Layout) (o : Observation) : Option Patch :=
  match judge layout o with
  | .differs declared =>
    some ⟨o.structName, o.fieldName, declared, o.observedOffset,
      Delta.between declared o.observedOffset, o.confidence⟩
  | _ => none

/-- The sample of a shift that an observation gives, with its family. -/
def sample? (layout : Layout) (o : Observation) : Option (String × Shift) :=
  match judge layout o with
  | .differs declared =>
    some (layout.root o.structName,
      Shift.ofOffsets o.structName o.fieldName declared o.observedOffset)
  | _ => none

/-- Some observation is one of this field. -/
def isCovered (layout : Layout) (observations : List Observation) (d : Declaration) : Bool :=
  observations.any fun o =>
    (judge layout o).covers && o.structName == d.structName && o.fieldName == d.fieldName

/-- The shift that the samples of a family agree on. -/
def bulkShift? (hierarchy : String) (samples : List Shift) : Option BulkShift :=
  (ShiftGroup.majority? samples).map fun group =>
    { hierarchy
      label := hierarchy ++ ": shift " ++ Delta.text group.delta
      delta := group.delta
      fields := group.memberNames
      matchCount := group.members.length
      totalCandidates := group.totalCandidates
      confidence := group.confidence
      anomalies := group.anomalies.map Shift.qualified }

/-- Check observations against a layout. -/
def ofObservations (layout : Layout) (observations : List Observation) : Verification :=
  let declarations := layout.declarations
  let covered := declarations.filter (isCovered layout observations)
  let uncovered := declarations.filter fun d => !isCovered layout observations d
  let patches := observations.filterMap (patch? layout)
  { layoutVersion := layout.version
    checked := observations.length
    matched := observations.countP fun o => (judge layout o).isMatch
    issues := findings layout [] observations ++ uncovered.map uncoveredField
    patches := patches.filter fun p => patchThreshold ≤ p.confidence
    manualReview := patches.filter fun p => !decide (patchThreshold ≤ p.confidence)
    bulkShifts := (Ordered.table (observations.filterMap (sample? layout))).filterMap
      fun (hierarchy, samples) => bulkShift? hierarchy samples
    coverage := ⟨declarations.length, covered.length,
      Binary64.share covered.length declarations.length⟩ }

/-- Number of findings of this severity. -/
def count (v : Verification) (severity : Severity) : Nat :=
  v.issues.countP (·.severity == severity)

/-- Some finding is an error. -/
def hasErrors (v : Verification) : Bool := 0 < v.count .error

end Verification

end LayoutWatch
