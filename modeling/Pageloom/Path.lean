import Pageloom.Text.Quoted

/-!
# Paths

A path is a list of components behind at most two slashes. Reading a path drops empty components and
single dots and keeps `..` as a component, so that two spellings of one path become equal without a
look at the disk.

## Main definitions

* `Pageloom.Path`, with `Path.parse` and `Path.print`.
* `Path.append`: a path below or instead of another one.
* `Path.name`, `Path.stem`, `Path.suffix`, `Path.parent`: the last component and its parts.
* `Path.relativeTo`: what is left below an ancestor, or `Path.NotBelow`.
* `Path.before`: the order in which pages are listed.
-/

namespace Pageloom

/-- The components of a path behind `slashes` leading slashes: none for a relative path, one for an
absolute path, two for a path that was spelled with exactly two. -/
structure Path where
  slashes : Nat
  components : List Text
deriving Repr, DecidableEq, Inhabited

namespace Path

/-- The path that a text spells. -/
def parse (t : Text) : Path :=
  let leading := (t.takeWhile (· == '/')).length
  { slashes := if leading = 2 then 2 else min leading 1
    components := (Text.split '/' t).filter fun part => part ≠ [] && part ≠ ['.'] }

instance : Coe String Path := ⟨fun s => parse s⟩

/-- The canonical spelling; the empty relative path is a single dot. -/
def print (p : Path) : Text :=
  if p.slashes = 0 && p.components = [] then "."
  else List.replicate p.slashes '/' ++ Text.join "/" p.components

/-- The path `q` seen from `p`: below it, or `q` itself if it is absolute. -/
def append (p q : Path) : Path :=
  if q.slashes = 0 then { p with components := p.components ++ q.components } else q

/-- The last component, empty when there is none. -/
def name (p : Path) : Text := p.components.getLastD []

/-- The part of a file name before its last dot and the part from that dot on. A dot at either end
of the name begins no suffix. -/
def splitSuffix (name : Text) : Text × Text :=
  let tail := name.reverse.takeWhile (· ≠ '.')
  let stem := name.take (name.length - tail.length - 1)
  if tail ≠ [] && stem ≠ [] && tail.length < name.length then (stem, '.' :: tail.reverse)
  else (name, [])

/-- The name without its suffix. -/
def stem (p : Path) : Text := (splitSuffix p.name).1

/-- The suffix of the name, with its dot. -/
def suffix (p : Path) : Text := (splitSuffix p.name).2

/-- The path without its last component. -/
def parent (p : Path) : Path := { p with components := p.components.dropLast }

/-- All components, led by the slashes of an absolute path as a component of their own. -/
def parts (p : Path) : List Text :=
  if p.slashes = 0 then p.components else List.replicate p.slashes '/' :: p.components

/-- A path that was asked to be shown below another one and is not. -/
structure NotBelow where
  path : Path
  base : Path
deriving Repr, DecidableEq

/-- The wording of the failure. -/
def NotBelow.message (e : NotBelow) : Text :=
  e.path.print.quoted ++ " is not in the subpath of " ++ e.base.print.quoted ++
    " OR one path is relative and the other is absolute."

/-- What is left of a list of components below a list that it begins with. -/
def dropComponents? : (base path : List Text) → Option (List Text)
  | [], path => some path
  | _ :: _, [] => none
  | b :: bs, c :: cs => if b = c then dropComponents? bs cs else none

/-- The path seen from one of its ancestors. -/
def relativeTo (p base : Path) : Except NotBelow Path :=
  if p.slashes = base.slashes then
    match dropComponents? base.components p.components with
    | some rest => .ok ⟨0, rest⟩
    | none => .error ⟨p, base⟩
  else .error ⟨p, base⟩

/-- Lexicographic order of component lists. -/
def componentsBefore : List Text → List Text → Bool
  | _, [] => false
  | [], _ :: _ => true
  | a :: as, b :: bs => if a = b then componentsBefore as bs else Text.before a b

/-- The order of paths, component by component. -/
def before (p q : Path) : Bool := componentsBefore p.parts q.parts

end Path

end Pageloom
