import Pageloom.Disk
import Pageloom.Text.Utf8

/-!
# Page sources

How the file of a page becomes text. The bytes are decoded strictly, a byte order mark at the start
is dropped, and every line break becomes a line feed, so that the text is the same whichever editor
saved the file.

## Main definitions

* `Encoding`, `Encoding.decode`: ways to read bytes as text.
* `Source.read`: the text of a file.
* `SourceError`: a source that is missing or unreadable.
-/

namespace Pageloom

/-- A way to read bytes as text. -/
inductive Encoding where
  | utf8
  /-- UTF-8 behind an optional byte order mark. -/
  | utf8Marked
  | latin1
  | ascii
deriving Repr, DecidableEq

namespace Encoding

/-- The byte order mark in UTF-8. -/
def mark : List UInt8 := [0xEF, 0xBB, 0xBF]

/-- The bytes behind a byte order mark, if there is one. A file that ends inside the mark is
empty. -/
def dropMark (bytes : List UInt8) : List UInt8 :=
  if bytes.isPrefixOf mark then []
  else if mark.isPrefixOf bytes then bytes.drop mark.length
  else bytes

/-- The text that bytes stand for, or the report on the first of them that stand for none. -/
def decode : Encoding → List UInt8 → Except Text Text
  | .utf8, bytes => (Utf8.decode bytes).mapError (Utf8.Malformed.message "utf-8")
  | .utf8Marked, bytes => (Utf8.decode (dropMark bytes)).mapError (Utf8.Malformed.message "utf-8")
  | .latin1, bytes => .ok (bytes.map fun b => Char.ofNat b.toNat)
  | .ascii, bytes => (Utf8.decodeAscii 0 bytes).mapError (Utf8.Malformed.message "ascii")

end Encoding

/-- A page source that is missing or unreadable, and why, if that is known. -/
structure SourceError where
  path : Path
  reason : Option Text
deriving Repr, DecidableEq

/-- The reason of the error, unless it is empty. -/
def SourceError.knownReason (e : SourceError) : Option Text :=
  match e.reason with
  | some [] => none
  | r => r

/-- The wording of the error. -/
def SourceError.message (e : SourceError) : Text :=
  let message := "Page source not found: " ++ e.path.print
  match e.knownReason with
  | some reason => message ++ " (" ++ reason ++ ")"
  | none => message

namespace Source

/-- Why a source gives no text. -/
inductive Fault where
  | unreadable (e : SourceError)
  /-- No disk could hold the path. -/
  | impossible (f : Disk.Fault)
deriving Repr, DecidableEq

/-- The fault of a path that cannot be read. -/
def Fault.ofDisk (f : Disk.Fault) : Fault :=
  if f.cause = .zeroCharacter then .impossible f else .unreadable ⟨f.path, some f.message⟩

/-- The text of a file, with line feeds for all its line breaks. -/
def read (e : Encoding) (d : Disk) (p : Path) : Except Fault Text :=
  match d.read p with
  | .error f => .error (.ofDisk f)
  | .ok bytes =>
    match e.decode bytes with
    | .ok t => .ok (Text.unifyBreaks t)
    | .error report => .error (.unreadable ⟨p, some report⟩)

end Source

end Pageloom
