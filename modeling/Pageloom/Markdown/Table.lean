import Pageloom.Markdown.Block
import Pageloom.Markdown.Line

/-!
# Tables

A table is a head, a line of dashes below it, and rows. Its lines are either framed by pipes or
merely hold some. All of them have to have equally many cells; when one has not, the lines are no
table.

## Main definitions

* `Table.cells`: the cells of a line, between pipes that no backslash escapes.
* `Table.Run`, `Table.take?`: lines that have the form of a table, and the table they make.
-/

namespace Pageloom.Markdown.Table

/-! ### Cells -/

/-- The parts between pipes. A pipe right behind a backslash does not separate; `previous` is the
character before the text. -/
def splitPipes : (previous : Char) → Text → List Text
  | _, [] => [[]]
  | previous, c :: cs =>
    if c = '|' && previous ≠ '\\' then [] :: splitPipes c cs
    else
      match splitPipes c cs with
      | [] => [[c]]
      | part :: parts => (c :: part) :: parts

/-- The cells of a line. -/
def cells (t : Text) : List Text := (splitPipes ' ' (Text.strip t)).map Text.strip

/-- The alignment that a cell of the line of dashes gives to its column: a colon at one end or at
both ends of the dashes. -/
def align? (t : Text) : Option Block.Align :=
  let dashes := Text.trim (· == ':') t
  if t = [] then some .unset
  else if dashes = [] || !dashes.all (· == '-') then none
  else
    match t with
    | ':' :: cs =>
      if cs = dashes then some .left else if cs = dashes ++ [':'] then some .center else none
    | _ => if t = dashes then some .unset else if t = dashes ++ [':'] then some .right else none

/-- Texts as the cells of columns with the given alignments, if there are equally many. -/
def row? (aligns : List Block.Align) (texts : List Text) : Option (List Block.Cell) :=
  if aligns.length = texts.length then some (List.zipWith Block.Cell.mk aligns texts) else none

/-- The table with the given head, line of dashes and rows, all given by their cells. -/
def make? (head dashes : List Text) (rows : List (List Text)) : Option Block :=
  (dashes.mapM align?).bind fun aligns =>
    (row? aligns head).bind fun head => (rows.mapM (row? aligns)).map fun rows => .table head rows

/-! ### Lines -/

/-- The characters of a line of dashes. -/
def isRuleChar (c : Char) : Bool := c == '-' || c == ':' || c == ' ' || c == '|'

/-- Dashes and colons. -/
def isDash (c : Char) : Bool := c == '-' || c == ':'

/-- What stands between a pipe at the start and a pipe at the end. -/
def unframed? (t : Text) : Option Text :=
  match t with
  | '|' :: cs => if cs.getLast? = some '|' then some cs.dropLast else none
  | _ => none

/-- A head line between pipes. -/
def framedHead? (t : Text) : Option Text :=
  ((Line.outdented? 3 (Text.trimEnd Line.isSpace t)).bind unframed?).filter (· ≠ [])

/-- A line of dashes between pipes. -/
def framedRule? (t : Text) : Option Text :=
  (framedHead? t).filter fun inside =>
    inside.all isRuleChar && (inside.dropWhile (· == ' ')).head?.any isDash

/-- A row between pipes. -/
def framedRow? (t : Text) : Option Text := unframed? (Text.strip t)

/-- A head line without a frame: it holds a pipe behind its first character. -/
def openHead? (t : Text) : Option Text :=
  (Line.outdented? 3 t).filter fun inside =>
    match inside with
    | c :: cs => !isBlank c && cs.elem '|'
    | [] => false

/-- A line of dashes without a frame: a pipe follows the first dashes. -/
def openRule? (t : Text) : Option Text :=
  (Line.outdented? 3 t).filter fun inside =>
    inside.all isRuleChar && inside.head?.any isDash &&
      ((inside.dropWhile isDash).dropWhile (· == ' ')).head? = some '|'

/-- A row without a frame. -/
def openRow? (t : Text) : Option Text := if t.elem '|' then some t else none

/-! ### Runs of lines -/

/-- Lines of the form of a table, the table if their cells match, and the lines behind. -/
structure Run where
  lines : List Line
  table : Option Block
  rest : List Line
deriving Repr

/-- The rows at the start of some lines: the lines and their contents, and the lines behind. -/
def rows (row? : Text → Option Text) : List Line → List (Line × Text) × List Line
  | [] => ([], [])
  | l :: ls =>
    match row? l.text with
    | none => ([], l :: ls)
    | some t =>
      let (found, rest) := rows row? ls
      ((l, t) :: found, rest)

/-- The run that `l` begins, when head, line of dashes and rows have the given forms. -/
def run? (head? rule? row? : Text → Option Text) (l : Line) (ls : List Line) : Option Run :=
  match head? l.text, ls with
  | some head, m :: ls =>
    (rule? m.text).map fun rule =>
      let (found, rest) := rows row? ls
      let table := make? (cells head) (cells rule) (found.map fun (_, t) => cells t)
      ⟨l :: m :: found.map Prod.fst, table, rest⟩
  | _, _ => none

/-- The run that `l` begins, framed by pipes or not. -/
def take? (l : Line) (ls : List Line) : Option Run :=
  match run? framedHead? framedRule? framedRow? l ls with
  | some run => some run
  | none => run? openHead? openRule? openRow? l ls

end Pageloom.Markdown.Table
