import LayoutWatch.Codec.Image
import LayoutWatch.Command.Sources

/-!
# Looking into a binary

The headers of a binary and the index of its accesses can be looked at outside of any project.
-/

namespace LayoutWatch.Command

open Json

variable {m : Type → Type} [Monad m] [FileSystem m]

/-- The line about a section. -/
def sectionLine (s : Section) : String :=
  "  - " ++ Text.padRight 8 s.name ++ " va=" ++ Text.hexPadded 8 s.virtualAddress.toNat
    ++ " vsize=" ++ Text.hex s.virtualSize.toNat ++ " raw=" ++ Text.hex s.rawAddress.toNat
    ++ " rsize=" ++ Text.hex s.rawSize.toNat
    ++ " flags=" ++ Text.hexPadded 8 s.characteristics.toNat
    ++ if s.isExecutable then " [exec]" else ""

/-- The lines about a valid image. -/
def imageLines (image : Image) : List String := [
  "  Format: " ++ (if image.wide then "PE32+" else "PE32"),
  "  Machine: " ++ Text.hexPadded 4 image.machine.toNat ++ " ("
    ++ image.architecture?.getD "unknown" ++ ")",
  "  Image base: " ++ Text.hex image.imageBase.toNat,
  "  Entry point RVA: " ++ Text.hex image.entryPoint.toNat,
  "  Sections (" ++ toString image.sections.length ++ "):"]
  ++ image.sections.map sectionLine

/-- The lines about a binary. -/
def summaryLines (s : BinarySummary) : List String := [
  "PE Info: " ++ s.identifier,
  "  Size: " ++ toString s.size ++ " bytes",
  "  SHA-256: " ++ s.binaryHash,
  "  Valid: " ++ (if s.image.valid then "true" else "false")]
  ++ if s.image.valid then imageLines s.image else []

/-- Show the headers of a binary. A fault in them is reported after what could be read. -/
def peInfo (path : String) (json : Bool) : Work m Report := do
  let summary := (← loadBinary path).summary
  let verdict : Verdict :=
    match summary.image.fault with
    | some fault => .failed (.of (.scan (.invalidImage summary.identifier fault.message)))
    | none => .clean
  return ⟨if json then valueLines summary.toValue else summaryLines summary, verdict⟩

/-- The lines about the accesses of a binary. -/
def statsLines (identifier : String) (stats : AccessIndex.Stats) : List String := [
  "Displacement index: " ++ identifier,
  "  Unique offsets: " ++ toString stats.uniqueOffsets,
  "  Total entries: " ++ toString stats.totalEntries]
  ++ if stats.topOffsets.isEmpty then []
    else
      "  Most referenced:" :: stats.topOffsets.map fun (displacement, count) =>
        "  - " ++ Text.hex displacement ++ ": " ++ toString count

/-- Show how often the displacements of a binary are used. -/
def indexStats (path : String) (top : Nat) (json : Bool) : Work m Report := do
  let binary ← loadBinary path
  let index ← Work.ofResult .scan binary.index
  let stats := index.stats top
  return .clean (if json then valueLines stats.toValue else statsLines binary.identifier stats)

end LayoutWatch.Command
