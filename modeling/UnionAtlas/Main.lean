import Std.Time.DateTime.Timestamp
import UnionAtlas.Cli.Lookups

/-!
# The program

Reads what a run may look at, runs it, prints what it printed, and writes the files it wrote.
-/

namespace UnionAtlas
namespace Cli

/-- Prints bytes as they are. -/
def printBytes (stream : IO.FS.Stream) (bs : Bytes) : IO Unit := do
  stream.write (ByteArray.mk bs.toArray)
  stream.flush

/-- The written form of a place. -/
def placeName (place : Place) : String :=
  (String.fromUTF8? (ByteArray.mk (Path.slash :: Bytes.join [Path.slash] place).toArray)).getD ""

/-- What stands at a place; nothing, if it cannot be read. -/
def nodeAt (place : Place) : IO (Option Node) := do
  let path := (← IO.currentDir) / placeName place
  try
    if ← path.isDir then return some .directory
    else if ← path.pathExists then
      return some (.file (← IO.FS.readBinFile path).toList)
    else return none
  catch _ => return none

/-- The disk with everything that stands on the way to a path. -/
def look (disk : Disk) (path : Bytes) : IO Disk := do
  let clean := Path.absolute disk.currentPath path
  let place := (Bytes.split Path.slash clean).filter (!·.isEmpty)
  (Disk.above place ++ [place]).foldlM
    (fun disk place => do
      match ← nodeAt place with
      | some node => return disk.put place node
      | none => return disk)
    disk

/-- The disk with everything that a run may look at. -/
def lookAround (disk : Disk) (args : List Bytes) : IO Disk := do
  let disk ← (lookups disk args).foldlM look disk
  (lookups disk args).foldlM look disk

/-- The present, on a clock without a zone. -/
def present : IO Stamp := do
  let t ← Std.Time.Timestamp.now
  return ⟨t.val.second.val, t.val.nano.val, 0⟩

end Cli
end UnionAtlas

open UnionAtlas

/-- Runs the program. The first phase is the one that looks around; the time of the others is
measured on the run itself. -/
def main (words : List String) : IO UInt32 := do
  let args := words.map text
  let here := (← IO.currentDir).toString
  let current := (Bytes.split Path.slash (text here)).filter (!·.isEmpty)
  let begun ← IO.monoNanosNow
  let disk ← Cli.lookAround (.empty current) args
  let looked ← IO.monoNanosNow
  let around (elapsed : Nat → Nanos) : IO Cli.Surroundings := do
    return ⟨disk, ⟨[], []⟩, ← Cli.present, elapsed⟩
  let rehearsal := Cli.run (← around fun _ => 0) args
  let rehearsed ← if rehearsal.ok then IO.monoNanosNow else pure looked
  let loading := Int64.ofNat (looked - begun)
  let working := Int64.ofNat (rehearsed - looked)
  let report := Cli.run (← around fun n => if n = 0 then loading else working) args
  Cli.printBytes (← IO.getStdout) report.out
  Cli.printBytes (← IO.getStderr) (report.traced ++ report.err)
  for (place, content) in report.written disk do
    IO.FS.writeBinFile (Cli.placeName place) (ByteArray.mk content.toArray)
  return if report.ok then 0 else 1
