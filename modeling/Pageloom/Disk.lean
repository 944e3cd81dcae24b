import Pageloom.Path

/-!
# Disks

What a build reads and writes: files and directories, each at a place of its own. A disk is the list
of what stands at which place, and not a tree inside a tree, so that a change says which place it
changes and leaves all others alone.

Paths are followed component by component. Every component but the last has to lead to a directory,
and `..` leads from a directory to the one that holds it, so a path through a missing directory
fails even if its components cancel out.

Two things are left out. There are no links, so that every place has one way to it without dots, and
nobody is refused for want of a permission. The limits of a disk are there: names have a greatest
length, and so have paths, as they are spelled.

## Main definitions

* `Disk`: what stands where, and the directory in which relative paths begin.
* `Disk.locate`, `Disk.status`: where a path leads, and what stands there.
* `Disk.read`, `Disk.write`, `Disk.removeFile`: files.
* `Disk.makeDirectories`, `Disk.removeTree`, `Disk.under`: directories.
* `Disk.Fault`: what went wrong with which path.
* `Disk.changes`: the steps from one disk to another.
-/

namespace Pageloom

/-- A place: the names on the way to it from the root of the disk. -/
abbrev Place := List Text

/-- What can stand at a place. -/
inductive Entry where
  | directory
  | file (bytes : List UInt8)
deriving Repr, DecidableEq

/-- A disk. Relative paths begin at `here`. -/
structure Disk where
  here : Place
  entries : List (Place × Entry)
deriving Repr

namespace Disk

/-! ### Faults -/

/-- What the disk has against a path. -/
inductive Cause where
  | notFound
  | notDirectory
  | isDirectory
  | alreadyThere
  | invalid
  | notEmpty
  | nameTooLong
  /-- What was to be removed with everything below it is no directory. -/
  | notTree
  /-- A component holds the character zero. -/
  | zeroCharacter
deriving Repr, DecidableEq

/-- A fault with the path it is about. -/
structure Fault where
  cause : Cause
  path : Path
deriving Repr, DecidableEq

/-- The report with number, wording, and the form of the path. -/
def report (number words shown : Text) : Text :=
  "[Errno " ++ number ++ "] " ++ words ++ ": " ++ shown

/-- The wording of a fault. -/
def Fault.message (f : Fault) : Text :=
  let path := f.path.print.quoted
  match f.cause with
  | .notFound => report "2" "No such file or directory" path
  | .notDirectory => report "20" "Not a directory" path
  | .isDirectory => report "21" "Is a directory" path
  | .alreadyThere => report "17" "File exists" path
  | .invalid => report "22" "Invalid argument" path
  | .notEmpty => report "39" "Directory not empty" path
  | .nameTooLong => report "36" "File name too long" path
  | .notTree => report "20" "Not a directory" ("PosixPath(" ++ path ++ ")")
  | .zeroCharacter => "embedded null byte"

/-- The name of the kind of a fault. -/
def Fault.kind (f : Fault) : Text :=
  match f.cause with
  | .notFound => "FileNotFoundError"
  | .notDirectory => "NotADirectoryError"
  | .isDirectory => "IsADirectoryError"
  | .alreadyThere => "FileExistsError"
  | .invalid => "OSError"
  | .notEmpty => "OSError"
  | .nameTooLong => "OSError"
  | .notTree => "NotADirectoryError"
  | .zeroCharacter => "ValueError"

/-! ### Following paths -/

/-- What stands at a place. The root is always a directory. -/
def entry? (d : Disk) (place : Place) : Option Entry :=
  if place = [] then some .directory else d.entries.lookup place

/-- The length of the longest name, in bytes. -/
def maxNameLength : Nat := 255

/-- The length of the longest path that is followed, in bytes. -/
def maxPathLength : Nat := 4095

/-- The length of a text in bytes. -/
def byteLength (t : Text) : Nat := (t.flatMap String.utf8EncodeChar).length

/-- Whether a name is longer than any name on a disk. -/
def isTooLong (name : Text) : Bool := maxNameLength < byteLength name

/-- Whether a path, as it is spelled, is longer than any path that is followed. -/
def isLongPath (p : Path) : Bool := maxPathLength < byteLength p.print

/-- Follows components from a place. -/
def walk (d : Disk) : Place → List Text → Except Cause Place
  | place, [] => .ok place
  | place, part :: rest =>
    match d.entry? place with
    | some .directory =>
      if isTooLong part then .error .nameTooLong
      else if part = "..".toList then walk d place.dropLast rest
      else walk d (place ++ [part]) rest
    | some (.file _) => .error .notDirectory
    | none => .error .notFound

/-- The place that a path leads to. Nothing needs to stand there, but it is in a directory. -/
def locate (d : Disk) (p : Path) : Except Cause Place :=
  if p.components.any fun part => part.elem '\x00' then .error .zeroCharacter
  else if isLongPath p then .error .nameTooLong
  else d.walk (if p.slashes = 0 then d.here else []) p.components

/-- What stands where a path leads. -/
def status (d : Disk) (p : Path) : Except Cause Entry :=
  match d.locate p with
  | .error cause => .error cause
  | .ok place =>
    match d.entry? place with
    | some e => .ok e
    | none => .error .notFound

/-- Whether a path leads to a directory. -/
def isDirectory (d : Disk) (p : Path) : Bool :=
  match d.status p with
  | .ok .directory => true
  | _ => false

/-- Whether a path leads to anything. A path that is too long, or has a name that is, is a fault all
the same. -/
def exists? (d : Disk) (p : Path) : Except Fault Bool :=
  match d.status p with
  | .ok _ => .ok true
  | .error .nameTooLong => .error ⟨.nameTooLong, p⟩
  | .error _ => .ok false

/-! ### Changes of one place -/

/-- The entries with `e` at `place`. -/
def putEntry (place : Place) (e : Entry) : List (Place × Entry) → List (Place × Entry)
  | [] => [(place, e)]
  | (p, old) :: rest => if p = place then (p, e) :: rest else (p, old) :: putEntry place e rest

/-- The disk with `e` at `place`. -/
def put (d : Disk) (place : Place) (e : Entry) : Disk :=
  { d with entries := putEntry place e d.entries }

/-- The disk with nothing at `place`. -/
def drop (d : Disk) (place : Place) : Disk :=
  { d with entries := d.entries.filter fun (p, _) => p ≠ place }

/-! ### Files -/

/-- The bytes of the file that a path leads to. -/
def read (d : Disk) (p : Path) : Except Fault (List UInt8) :=
  match d.status p with
  | .ok (.file bytes) => .ok bytes
  | .ok .directory => .error ⟨.isDirectory, p⟩
  | .error cause => .error ⟨cause, p⟩

/-- Writes a file in a directory that exists, in place of a file that is there. -/
def write (d : Disk) (p : Path) (bytes : List UInt8) : Except Fault Disk :=
  match d.locate p with
  | .error cause => .error ⟨cause, p⟩
  | .ok place =>
    match d.entry? place with
    | some .directory => .error ⟨.isDirectory, p⟩
    | _ => .ok (d.put place (.file bytes))

/-- Removes a file. -/
def removeFile (d : Disk) (p : Path) : Except Fault Disk :=
  match d.locate p with
  | .error cause => .error ⟨cause, p⟩
  | .ok place =>
    match d.entry? place with
    | some .directory => .error ⟨.isDirectory, p⟩
    | some (.file _) => .ok (d.drop place)
    | none => .error ⟨.notFound, p⟩

/-! ### Directories -/

/-- Makes one directory in a directory that exists. -/
def makeDirectory (d : Disk) (p : Path) : Except Cause Disk :=
  match d.locate p with
  | .error cause => .error cause
  | .ok place =>
    match d.entry? place with
    | some _ => .error .alreadyThere
    | none => .ok (d.put place .directory)

/-- Makes a directory unless it is there; any other refusal is a fault. -/
def ensureDirectory (d : Disk) (p : Path) : Except Fault Disk :=
  match d.makeDirectory p with
  | .ok d => .ok d
  | .error cause => if d.isDirectory p then .ok d else .error ⟨cause, p⟩

/-- Makes a directory, after those above it if it cannot be made without. The components are given
from the last to the first. Directories that were made stay, whatever happens then. -/
def makeDirectoriesFrom (slashes : Nat) : (reversed : List Text) → Disk → Except Fault Unit × Disk
  | [], d =>
    match d.ensureDirectory ⟨slashes, []⟩ with
    | .ok d => (.ok (), d)
    | .error fault => (.error fault, d)
  | part :: above, d =>
    let p : Path := ⟨slashes, (part :: above).reverse⟩
    match d.ensureDirectory p with
    | .ok d => (.ok (), d)
    | .error fault =>
      if fault.cause = .notFound then
        match makeDirectoriesFrom slashes above d with
        | (.error fault, d) => (.error fault, d)
        | (.ok (), d) =>
          match d.ensureDirectory p with
          | .ok d => (.ok (), d)
          | .error fault => (.error fault, d)
      else (.error fault, d)

/-- Makes a directory with all directories above it. One that is there already is left as it is. -/
def makeDirectories (d : Disk) (p : Path) : Except Fault Unit × Disk :=
  makeDirectoriesFrom p.slashes p.components.reverse d

/-- Whether a place lies below another one. -/
def isBelow (base place : Place) : Bool :=
  match Path.dropComponents? base place with
  | some (_ :: _) => true
  | _ => false

/-- The disk with nothing below a place. -/
def clear (d : Disk) (base : Place) : Disk :=
  { d with entries := d.entries.filter fun (p, _) => !isBelow base p }

/-- Removes a directory with everything below it. What is below goes first, and the directory itself
goes only if its path can still be followed then; one that is named by its dots only cannot go. -/
def removeTree (d : Disk) (p : Path) : Except Fault Unit × Disk :=
  match d.locate p with
  | .error cause => (.error ⟨cause, p⟩, d)
  | .ok place =>
    match d.entry? place with
    | none => (.error ⟨.notFound, p⟩, d)
    | some (.file _) => (.error ⟨.notTree, p⟩, d)
    | some .directory =>
      let cleared := d.clear place
      match cleared.locate p with
      | .error cause => (.error ⟨cause, p⟩, cleared)
      | .ok _ =>
        match p.components.getLast? with
        | none => (.error ⟨.invalid, p⟩, cleared)
        | some part =>
          if part = "..".toList then (.error ⟨.notEmpty, p⟩, cleared)
          else (.ok (), cleared.drop place)

/-- The paths of everything below the directory that a path leads to, with what stands there, in no
special order. -/
def under (d : Disk) (p : Path) : List (Path × Entry) :=
  match d.locate p with
  | .error _ => []
  | .ok place =>
    match d.entry? place with
    | some .directory =>
      d.entries.filterMap fun (q, e) =>
        match Path.dropComponents? place q with
        | some (part :: rest) => some ({ p with components := p.components ++ part :: rest }, e)
        | _ => none
    | _ => []

/-! ### From one disk to another -/

/-- A step on the way from one disk to another. -/
inductive Change where
  | removeFile (place : Place)
  | removeDirectory (place : Place)
  | makeDirectory (place : Place)
  | writeFile (place : Place) (bytes : List UInt8)
deriving Repr, DecidableEq

/-- The removals of what another disk does not have, from the last entry to the first. -/
def removals (old new : Disk) : List Change :=
  old.entries.reverse.filterMap fun (place, e) =>
    match e, new.entry? place with
    | .file _, some (.file _) => none
    | .file _, _ => some (.removeFile place)
    | .directory, some .directory => none
    | .directory, _ => some (.removeDirectory place)

/-- What another disk has and this one has not. -/
def additions (old new : Disk) : List Change :=
  new.entries.filterMap fun (place, e) =>
    if old.entry? place = some e then none
    else
      match e with
      | .directory => some (.makeDirectory place)
      | .file bytes => some (.writeFile place bytes)

/-- The steps from one disk to another: first what goes, then what comes. -/
def changes (old new : Disk) : List Change := removals old new ++ additions old new

end Disk

end Pageloom
