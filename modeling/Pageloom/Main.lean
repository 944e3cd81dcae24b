import Pageloom.CommandLine

/-!
# The program

Reads the current directory, and what the command line names outside of it, into a disk, runs the
command line on it, carries out what has changed on the disk, and prints what there is to print.
-/

namespace Pageloom.Main

/-- The entries of a directory with everything below it, parents first. -/
partial def readTree (place : Place) (path : String) : IO (List (Place × Entry)) := do
  let mut entries := [(place, Entry.directory)]
  for item in (← (← IO.FS.realPath path).readDir) do
    let place := place ++ [item.fileName.toList]
    let path := path ++ "/" ++ item.fileName
    if ← (← IO.FS.realPath path).isDir then
      entries := entries ++ (← readTree place path)
    else
      entries := entries ++ [(place, Entry.file (← IO.FS.readBinFile path).toList)]
  return entries

/-- The directories above a place, from the root on. -/
def above (place : Place) : List (Place × Entry) :=
  (List.range place.length).tail.map fun n => (place.take n, Entry.directory)

/-- The entries at and above a path, if it exists. -/
def readPath (path : String) : IO (List (Place × Entry)) :=
  try
    let real ← IO.FS.realPath path
    let place := (Path.parse (toString real).toList).components
    if ← real.isDir then
      return above place ++ (← readTree place (toString real))
    else
      return above place ++ [(place, Entry.file (← IO.FS.readBinFile real).toList)]
  catch _ => return []

/-- The current directory, and what the words of the command line name outside of it. -/
def readDisk (args : List String) : IO Disk := do
  let path := toString (← IO.currentDir)
  let here := (Path.parse path.toList).components
  let named ← args.mapM readPath
  let outside := named.flatten.filter fun (place, _) =>
    !here.isPrefixOf place && !place.isPrefixOf here
  return ⟨here, above here ++ (← readTree here path) ++ outside.eraseDups⟩

/-- The spelling of a place. -/
def spell (place : Place) : String := String.ofList (Path.print ⟨1, place⟩)

/-- Carries out a change. -/
def carryOut : Disk.Change → IO Unit
  | .removeFile place => IO.FS.removeFile (spell place)
  | .removeDirectory place => IO.FS.removeDir (spell place)
  | .makeDirectory place => IO.FS.createDirAll (spell place)
  | .writeFile place bytes => IO.FS.writeBinFile (spell place) ⟨bytes.toArray⟩

/-- The wording of a crash. -/
def crashText : CommandLine.Crash → Text
  | .page f => f.kind ++ ": " ++ f.message
  | .site f => f.kind ++ ": " ++ f.message

end Pageloom.Main

open Pageloom in
/-- Runs the command line that the program was called with. -/
def main (args : List String) : IO UInt32 := do
  let d ← Main.readDisk args
  let r := CommandLine.run d (args.map String.toList)
  for change in Disk.changes d r.disk do
    Main.carryOut change
  IO.print (String.ofList r.output)
  IO.eprint (String.ofList r.errors)
  match r.crash with
  | some crash =>
    IO.eprintln (String.ofList (Main.crashText crash))
    return 1
  | none => return UInt32.ofNat r.exit
