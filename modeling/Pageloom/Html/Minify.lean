import Pageloom.Text.Blank
import Pageloom.Text.Category
import Pageloom.Text.Case
import Pageloom.Text.Integer

/-!
# Minifying HTML

Comments go, runs of blanks shrink to one space, and a space alone between two tags goes as well.
Elements whose blanks carry meaning (`pre`, `textarea`, `script`, `style`) are kept to the letter.

The text is first cut into pieces: single characters, and kept elements as a whole. Everything else
is a change of the list of pieces, so a kept element cannot be touched. A kept element also has a
written form, `<folio-keep N>` for the `N`-th one; text that spells this form in the end stands for
that element, and one that names an element that does not exist is an error.

## Main definitions

* `Html.Piece`, `Html.pieces`: the cut into characters and kept elements.
* `Html.dropComments`, `Html.squeezeBlanks`, `Html.joinTags`, `Html.trimBlanks`, `Html.restore`: the
  steps.
* `Html.minify`: all of them; `Html.MinifyError` is its only failure.
-/

namespace Pageloom.Html

/-- A character, or an element that is kept as it stands. -/
inductive Piece where
  | char (c : Char)
  | kept (element : Text)
deriving Repr, DecidableEq

/-- The names of the elements that are kept. -/
def keptNames : List Text := ["pre", "textarea", "script", "style"]

/-! ### Finding the kept elements -/

/-- What follows `name`, in any case, at the start of a text. -/
def sameName? : (name t : Text) → Option Text
  | [], t => some t
  | _ :: _, [] => none
  | n :: ns, c :: cs => if lowerChar n = lowerChar c then sameName? ns cs else none

/-- The length of a closing tag of the given name at the start of a text. -/
def closingTag? (name : Text) (t : Text) : Option Nat :=
  match t with
  | '<' :: '/' :: rest =>
    (sameName? name rest).bind fun rest =>
      let blanks := (rest.takeWhile isBlank).length
      if (rest.drop blanks).head? = some '>' then some (name.length + blanks + 3) else none
  | _ => none

/-- The length of a text up to and with its first closing tag of the given name. -/
def lengthToClosing? (name : Text) : Text → Option Nat
  | [] => none
  | c :: cs =>
    match closingTag? name (c :: cs) with
    | some n => some n
    | none => (lengthToClosing? name cs).map (· + 1)

/-- The length of a kept element at the start of a text: its name ends at a word border, and it
extends to the first closing tag of the same name. -/
def elementLength? (t : Text) : Option Nat :=
  match t with
  | '<' :: rest =>
    keptNames.findSome? fun word =>
      (Text.dropWord? word rest).bind fun (name, rest) =>
        if rest.head?.any isWordChar then none
        else (lengthToClosing? name rest).map (· + 1 + name.length)
  | _ => none

/-- The pieces of a text whose first `skip` characters belong to a kept element. -/
def piecesFrom : (skip : Nat) → Text → List Piece
  | _, [] => []
  | n + 1, _ :: cs => piecesFrom n cs
  | 0, c :: cs =>
    match elementLength? (c :: cs) with
    | some n => .kept ((c :: cs).take n) :: piecesFrom (n - 1) cs
    | none => .char c :: piecesFrom 0 cs

/-- The characters and kept elements of a text, in order. -/
def pieces (t : Text) : List Piece := piecesFrom 0 t

/-- The kept elements among some pieces, in order. -/
def keptElements (ps : List Piece) : List Text :=
  ps.filterMap fun
    | .char _ => none
    | .kept element => some element

/-! ### Comments -/

/-- What is left behind the given characters at the start. -/
def dropLiteral? : (start : Text) → List Piece → Option (List Piece)
  | [], ps => some ps
  | s :: ss, .char c :: ps => if s = c then dropLiteral? ss ps else none
  | _ :: _, _ => none

/-- The number of pieces up to and with the first occurrence of the given characters. -/
def lengthThrough? (needle : Text) : List Piece → Option Nat
  | [] => none
  | p :: ps =>
    if (dropLiteral? needle (p :: ps)).isSome then some needle.length
    else (lengthThrough? needle ps).map (· + 1)

/-- The number of pieces of a comment at the start. A conditional comment, which begins with `[if`,
is none. -/
def commentLength? (ps : List Piece) : Option Nat :=
  (dropLiteral? "<!--" ps).bind fun rest =>
    if (dropLiteral? "[if" rest).isSome then none
    else (lengthThrough? "-->" rest).map (· + 4)

/-- The pieces without comments; the first `skip` of them belong to a comment. -/
def dropCommentsFrom : (skip : Nat) → List Piece → List Piece
  | _, [] => []
  | n + 1, _ :: ps => dropCommentsFrom n ps
  | 0, p :: ps =>
    match commentLength? (p :: ps) with
    | some n => dropCommentsFrom (n - 1) ps
    | none => p :: dropCommentsFrom 0 ps

/-- The pieces without comments. -/
def dropComments (ps : List Piece) : List Piece := dropCommentsFrom 0 ps

/-! ### Blanks -/

/-- Whether a piece is a blank character. -/
def Piece.isBlank : Piece → Bool
  | .char c => Pageloom.isBlank c
  | .kept _ => false

/-- Whether a piece ends in a `>`. -/
def Piece.endsTag : Piece → Bool
  | .char c => c == '>'
  | .kept _ => true

/-- Whether a piece begins with a `<`. -/
def Piece.opensTag : Piece → Bool
  | .char c => c == '<'
  | .kept _ => true

/-- One space for each run of blanks; with `inside`, a run that already has its space goes on. -/
def squeezeBlanksFrom : (inside : Bool) → List Piece → List Piece
  | _, [] => []
  | inside, p :: ps =>
    if p.isBlank then
      if inside then squeezeBlanksFrom true ps else .char ' ' :: squeezeBlanksFrom true ps
    else p :: squeezeBlanksFrom false ps

/-- One space for each run of blanks. -/
def squeezeBlanks (ps : List Piece) : List Piece := squeezeBlanksFrom false ps

/-- Drops each space between two tags; `afterTag` tells whether a tag ends right before. -/
def joinTagsFrom : (afterTag : Bool) → List Piece → List Piece
  | _, [] => []
  | afterTag, p :: ps =>
    if afterTag && p.isBlank && ps.head?.any Piece.opensTag then joinTagsFrom false ps
    else p :: joinTagsFrom p.endsTag ps

/-- Drops each space that stands alone between two tags. -/
def joinTags (ps : List Piece) : List Piece := joinTagsFrom false ps

/-- Drops blanks at both ends. -/
def trimBlanks (ps : List Piece) : List Piece :=
  ((ps.dropWhile Piece.isBlank).reverse.dropWhile Piece.isBlank).reverse

/-! ### The written form of kept elements -/

/-- Why a text cannot be minified. -/
inductive MinifyError where
  /-- The text names a kept element by a number that no element has. -/
  | noSuchElement (index : Nat)
  /-- The text names a kept element by a number with more digits than are read. -/
  | numberTooLong (digits : Nat)
deriving Repr, DecidableEq

/-- The wording of the failure. -/
def MinifyError.message : MinifyError → Text
  | .noSuchElement _ => "list index out of range"
  | .numberTooLong n => (Integer.Fault.tooLong n).message

/-- The decimal digits at the start. -/
def leadingDigits : List Piece → Text
  | .char c :: ps => if isDecimal c then c :: leadingDigits ps else []
  | _ => []

/-- The digits of the written form of a kept element at the start. -/
def writtenForm? (ps : List Piece) : Option Text :=
  (dropLiteral? "<folio-keep " ps).bind fun rest =>
    let digits := leadingDigits rest
    if digits ≠ [] && (rest.drop digits.length).head? = some (.char '>') then some digits else none

/-- The text of the pieces, with the written forms among them standing for `elements`; the first
`skip` pieces belong to a written form. -/
def restoreFrom (elements : List Text) : (skip : Nat) → List Piece → Except MinifyError Text
  | _, [] => .ok []
  | n + 1, _ :: ps => restoreFrom elements n ps
  | 0, p :: ps =>
    match writtenForm? (p :: ps) with
    | some digits =>
      if Integer.maxDigits < digits.length then .error (.numberTooLong digits.length)
      else
        let index := Text.valueOf 10 (digits.map decimalValue)
        match elements[index]? with
        | none => .error (.noSuchElement index)
        | some element => (restoreFrom elements (digits.length + 12) ps).map (element ++ ·)
    | none =>
      (restoreFrom elements 0 ps).map fun t =>
        match p with
        | .char c => c :: t
        | .kept element => element ++ t

/-- The text of the pieces, with the written forms among them standing for `elements`. -/
def restore (elements : List Text) (ps : List Piece) : Except MinifyError Text :=
  restoreFrom elements 0 ps

/-- The pieces that are left of a text. -/
def minifiedPieces (html : Text) : List Piece :=
  trimBlanks (joinTags (squeezeBlanks (dropComments (pieces html))))

/-- The text without comments and without insignificant blanks. -/
def minify (html : Text) : Except MinifyError Text :=
  restore (keptElements (pieces html)) (minifiedPieces html)

end Pageloom.Html
