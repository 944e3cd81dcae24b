import Pageloom.Helper

/-!
# Placeholders

A token between braces is a placeholder: one or more capital letters and underscores. A text is cut
into placeholders and single characters first; then each placeholder is filled, from left to right,
by what the helpers answer to its token. A text that is filled in is not looked at again. A
placeholder without an answer stays.

## Main definitions

* `Template.Piece`, `Template.pieces`, `Template.print`: the cut of a text, and the text of a cut.
* `Template.value`: what is put in place of a token.
* `Template.fill`: the text with its placeholders filled.
-/

namespace Pageloom.Template

/-- A piece of a text: a character or a placeholder. -/
inductive Piece where
  | char (c : Char)
  | token (name : Text)
deriving Repr, DecidableEq

/-- Characters of tokens. -/
def isTokenChar (c : Char) : Bool := c.isUpper || c == '_'

/-- The token that ends at a closing brace, read from behind its opening brace. -/
def token? (t : Text) : Option Text :=
  let name := t.takeWhile isTokenChar
  if name ≠ [] && (t.drop name.length).head? = some '\x7d' then some name else none

/-- The pieces of a text; its first `skip` characters belong to a placeholder. -/
def piecesFrom : (skip : Nat) → Text → List Piece
  | _, [] => []
  | n + 1, _ :: cs => piecesFrom n cs
  | 0, c :: cs =>
    match if c = '\x7b' then token? cs else none with
    | some name => .token name :: piecesFrom (name.length + 1) cs
    | none => .char c :: piecesFrom 0 cs

/-- The pieces of a text. -/
def pieces (t : Text) : List Piece := piecesFrom 0 t

/-- The placeholder of a token. -/
def placeholder (token : Text) : Text := '\x7b' :: token ++ ['\x7d']

/-- The text of a piece. -/
def Piece.print : Piece → Text
  | .char c => [c]
  | .token name => placeholder name

/-- The text of some pieces. -/
def print (ps : List Piece) : Text := ps.flatMap Piece.print

/-- What stands for a token: the answer of the helpers, or else the page's name if that is what is
asked for, or else the placeholder. -/
def value (token : Text) (page : Page) (helpers : List Helper) :
    Except Failure Text × List Helper :=
  match Helper.ask token page helpers with
  | (.error e, helpers) => (.error e, helpers)
  | (.ok (some text), helpers) => (.ok text, helpers)
  | (.ok none, helpers) =>
    let name := if token = Helper.nameToken then page.name else none
    (.ok (name.getD (placeholder token)), helpers)

/-- The text of pieces with their placeholders filled from left to right, up to the first
failure. -/
def fillPieces (page : Page) : List Piece → List Helper → Except Failure Text × List Helper
  | [], helpers => (.ok [], helpers)
  | .char c :: ps, helpers =>
    let (text, helpers) := fillPieces page ps helpers
    (text.map (c :: ·), helpers)
  | .token token :: ps, helpers =>
    match value token page helpers with
    | (.error e, helpers) => (.error e, helpers)
    | (.ok filled, helpers) =>
      let (text, helpers) := fillPieces page ps helpers
      (text.map (filled ++ ·), helpers)

/-- The text with its placeholders filled, and the helpers afterwards. -/
def fill (t : Text) (page : Page) (helpers : List Helper) : Except Failure Text × List Helper :=
  fillPieces page (pieces t) helpers

end Pageloom.Template
