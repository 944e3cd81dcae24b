import Pageloom.Yaml.Cursor
import Pageloom.Yaml.Fault

/-!
# Scalars of a YAML text

The three ways to write a text: plain, between quotes, and as a block of indented lines. Each
scanner starts at the first character of the scalar and returns its text and the place behind it.

Where a line ends inside a plain or quoted scalar, the line feed becomes a space, and each empty
line that follows becomes a line feed instead. Blocks keep their lines, or fold them in the same
way.

## Main definitions

* `Scalar.quoted`: a scalar between quotes.
* `Scalar.plain`: a plain scalar, and whether a line ends behind it.
* `Scalar.block`: a block scalar.
-/

namespace Pageloom.Yaml.Scalar

/-- Spaces and tabs. -/
def isBlank (c : Char) : Bool := c == ' ' || c == '\t'

/-- A text and the place behind it. -/
abbrev Scan := Except Fault (Text × Cursor)

/-- What the end of a line inside a scalar stands for: `first` is the character it counts as, `more`
are the ends of the empty lines that follow. -/
def fold (first : Char) (more : Text) : Text :=
  if first ≠ '\n' then first :: more else if more = [] then [' '] else more

/-! ### Quotes -/

/-- The empty lines that follow the end of a line inside quotes, and the first other place.
Documents are not set apart there. -/
def emptyLines : (bound : Nat) → Cursor → Scan
  | 0, c => .ok ([], c)
  | n + 1, c =>
    if c.atSeparator then .error .malformed
    else
      let c := c.skipWhile isBlank
      match c.lineBreak? with
      | some (b, c) => (emptyLines n c).map fun (bs, c) => (b :: bs, c)
      | none => .ok ([], c)

/-- The characters that a letter behind a backslash stands for. -/
def escapes : List (Char × Nat) :=
  [('0', 0), ('a', 7), ('b', 8), ('t', 9), ('\t', 9), ('n', 10), ('v', 11), ('f', 12), ('r', 13),
    ('e', 27), (' ', 32), ('"', 34), ('\\', 92), ('/', 47), ('N', 0x85), ('_', 0xA0), ('L', 0x2028),
    ('P', 0x2029)]

/-- How many hexadecimal digits follow a letter behind a backslash. -/
def codeLength? (c : Char) : Option Nat :=
  if c = 'x' then some 2 else if c = 'u' then some 4 else if c = 'U' then some 8 else none

/-- The character with the given code. A surrogate is no character, and the null character stands
for it. -/
def ofCode (code : Nat) : Except Fault Char :=
  if 0x7FFFFFFF < code then .error .hugeCharacter
  else if 0x10FFFF < code then .error .noCharacter
  else .ok (Char.ofNat code)

/-- An escape from behind its backslash. At the end of a line the line is continued. -/
def escape (c : Cursor) : Scan :=
  match c.rest with
  | [] => .error .malformed
  | ch :: rest =>
    match escapes.lookup ch, codeLength? ch with
    | some code, _ => .ok ([Char.ofNat code], c.next)
    | none, some length =>
      let digits := rest.take length
      if digits.length = length && digits.all (fun d => (Text.hexValue? d).isSome) then
        (ofCode (Text.valueOf 16 (digits.filterMap Text.hexValue?))).map fun image =>
          ([image], c.advance (length + 1))
      else .error .malformed
    | none, none =>
      match c.lineBreak? with
      | some (_, c) => emptyLines c.rest.length c
      | none => .error .malformed

/-- One step inside quotes: what the next characters stand for, or nothing at the closing quote. -/
def quotedStep (quote : Char) (c : Cursor) : Except Fault (Option (Text × Cursor)) :=
  match c.rest with
  | [] => .error .malformed
  | ch :: rest =>
    if ch = quote then
      if quote = '\'' && rest.head? = some quote then .ok (some ([quote], c.advance 2))
      else .ok none
    else if quote = '"' && ch = '\\' then (escape c.next).map some
    else if isBlank ch || isBreak ch then
      let blanks := c.run isBlank
      let c := c.skipWhile isBlank
      match c.lineBreak? with
      | some (b, c) => (emptyLines c.rest.length c).map fun (bs, c) => some (fold b bs, c)
      | none => if c.atEnd then .error .malformed else .ok (some (blanks, c))
    else .ok (some ([ch], c.next))

/-- What follows up to the closing quote. Each step takes a character. -/
def quotedFrom (quote : Char) : (bound : Nat) → Cursor → Scan
  | 0, _ => .error .malformed
  | n + 1, c =>
    (quotedStep quote c).bind fun
      | none => .ok ([], c.next)
      | some (t, c) => (quotedFrom quote n c).map fun (rest, c) => (t ++ rest, c)

/-- A scalar between quotes of the given kind. -/
def quoted (quote : Char) (c : Cursor) : Scan := quotedFrom quote (c.rest.length + 1) c.next

/-! ### Plain scalars -/

/-- Brackets and the comma, which have a meaning inside brackets. -/
def isFlowMark (c : Char) : Bool := c == ',' || c == '[' || c == ']' || c == '\x7b' || c == '\x7d'

/-- Whether a plain scalar stops before the text, which may be inside brackets: at a blank, at a
colon that is set apart, and at the marks of brackets. -/
def stopsPlain (inFlow : Bool) (t : Text) : Bool :=
  match t with
  | [] => true
  | c :: cs =>
    isBlank c || isBreak c ||
      (c = ':' && (isApart cs.head? || (inFlow && cs.head?.any isFlowMark))) ||
      (inFlow && (isFlowMark c || c = '?'))

/-- The characters of a plain scalar up to the next place where it may stop. -/
def word (inFlow : Bool) : Text → Text
  | [] => []
  | c :: cs => if stopsPlain inFlow (c :: cs) then [] else c :: word inFlow cs

/-- The ends of empty lines, and the first other place, unless documents are set apart on the
way. -/
def plainLines : (bound : Nat) → Cursor → Option (Text × Cursor)
  | 0, c => some ([], c)
  | n + 1, c =>
    match c.skipSpaces.lineBreak? with
    | some (b, c) =>
      if c.atSeparator then none else (plainLines n c).map fun (bs, c) => (b :: bs, c)
    | none => some ([], c.skipSpaces)

/-- What stands between two words of a plain scalar. -/
structure Gap where
  /-- What it stands for; without it the scalar ends. -/
  text : Option Text
  newLine : Bool
  cursor : Cursor

/-- The gap behind a word. -/
def gap (c : Cursor) : Gap :=
  let spaces := c.run (· == ' ')
  let c := c.skipSpaces
  match c.lineBreak? with
  | some (b, c) =>
    if c.atSeparator then ⟨none, true, c⟩
    else
      match plainLines c.rest.length c with
      | some (bs, c) => ⟨some (fold b bs), true, c⟩
      | none => ⟨none, true, c⟩
  | none => ⟨if spaces = [] then none else some spaces, false, c⟩

/-- A plain scalar from a word on; `indent` is the least column of its further lines, `before`
stands before the word. Also tells whether a line ends behind its last word. -/
def plainFrom (inFlow : Bool) (indent : Int) : (bound : Nat) → (before : Text) → (newLine : Bool) →
    Cursor → Text × Bool × Cursor
  | 0, _, newLine, c => ([], newLine, c)
  | n + 1, before, newLine, c =>
    let w := word inFlow c.rest
    if c.head? = some '#' || w = [] then ([], newLine, c)
    else
      let g := gap (c.advance w.length)
      let stops := g.cursor.head? = some '#' || (!inFlow && g.cursor.column < indent)
      match if stops then none else g.text with
      | none => (before ++ w, g.newLine, g.cursor)
      | some between =>
        let (t, newLine, c) := plainFrom inFlow indent n between g.newLine g.cursor
        (before ++ w ++ t, newLine, c)

/-- A plain scalar, whether a line ends behind it, and the place behind it. -/
def plain (inFlow : Bool) (indent : Int) (c : Cursor) : Text × Bool × Cursor :=
  plainFrom inFlow indent (c.rest.length + 1) [] false c

/-! ### Blocks -/

/-- What happens to the line feeds at the end of a block: without an indicator one is kept. -/
inductive Chomping where
  | strip
  | clip
  | keep
deriving Repr, DecidableEq

/-- The chomping indicator that a character is. -/
def chomping? (c : Option Char) : Option Chomping :=
  if c = some '-' then some .strip else if c = some '+' then some .keep else none

/-- The indentation indicator that a character is. -/
def increment? (c : Option Char) : Option Nat :=
  c.bind fun d => if d.isDigit then some (d.toNat - '0'.toNat) else none

/-- What stands on the first line of a block: the indicators, in either order. -/
structure Header where
  chomping : Chomping
  increment : Option Nat
  cursor : Cursor

/-- The indicators of a block. An indentation of zero is refused. -/
def header (c : Cursor) : Except Fault Header :=
  let h : Header :=
    match chomping? c.head? with
    | some chomping =>
      match increment? (c.peek? 1) with
      | some n => ⟨chomping, some n, c.advance 2⟩
      | none => ⟨chomping, none, c.next⟩
    | none =>
      match increment? c.head? with
      | some n => ⟨(chomping? (c.peek? 1)).getD .clip, some n,
          c.advance (if (chomping? (c.peek? 1)).isSome then 2 else 1)⟩
      | none => ⟨.clip, none, c⟩
  if h.increment = some 0 || !isSpaceOrEnd h.cursor.head? then .error .malformed else .ok h

/-- The place behind the end of a line that holds nothing more than a comment. -/
def restOfLine (c : Cursor) : Except Fault Cursor :=
  let c := c.skipSpaces
  let c := if c.head? = some '#' then c.skipLine else c
  match c.lineBreak? with
  | some (_, c) => .ok c
  | none => if c.atEnd then .ok c else .error .malformed

/-- The ends of the empty lines before a block's content, its first other place, and the greatest
column reached by spaces on the way. -/
def leadingLines : (bound : Nat) → (deepest : Nat) → Cursor → Text × Nat × Cursor
  | 0, deepest, c => ([], deepest, c)
  | n + 1, deepest, c =>
    let c := c.skipSpaces
    let deepest := max deepest c.column
    match c.lineBreak? with
    | some (b, c) =>
      let (bs, deepest, c) := leadingLines n deepest c
      (b :: bs, deepest, c)
    | none => ([], deepest, c)

/-- The place behind spaces, but not beyond the given column. -/
def skipTo (column : Nat) (c : Cursor) : Cursor :=
  c.advance (min (c.run (· == ' ')).length (column - c.column))

/-- The ends of the lines that are empty up to the given column, and the first other place. -/
def shortLines (column : Nat) : (bound : Nat) → Cursor → Text × Cursor
  | 0, c => ([], c)
  | n + 1, c =>
    let c := skipTo column c
    match c.lineBreak? with
    | some (b, c) =>
      let (bs, c) := shortLines column n c
      (b :: bs, c)
    | none => ([], c)

/-- The line feeds at the end of a block. -/
def tail (chomping : Chomping) (last : Text) (breaks : Text) : Text :=
  match chomping with
  | .strip => []
  | .clip => last
  | .keep => last ++ breaks

/-- What a block holds from a place on, before which `breaks` ended empty lines and `last` the last
line with content. Folded lines are joined unless one of them begins with a blank. -/
def blockFrom (folded : Bool) (chomping : Chomping) (column : Nat) :
    (bound : Nat) → (last breaks : Text) → Cursor → Text × Cursor
  | 0, last, breaks, c => (tail chomping last breaks, c)
  | n + 1, last, breaks, c =>
    if c.column ≠ column || c.atEnd then (tail chomping last breaks, c)
    else
      let line := c.run fun ch => !isBreak ch
      let behind := c.advance line.length
      let (last, next) :=
        match behind.lineBreak? with
        | some (b, next) => ([b], next)
        | none => ([], behind)
      let (more, next) := shortLines column next.rest.length.succ next
      let goesOn := next.column = column && !next.atEnd
      let joins := folded && last = ['\n'] && !c.head?.any isBlank && !next.head?.any isBlank
      let between :=
        if !goesOn then [] else if !joins then last else if more = [] then [' '] else []
      let (t, c) := blockFrom folded chomping column n last more next
      (breaks ++ line ++ between ++ t, c)

/-- A block scalar from its indicator on; `indent` is the column of the surrounding block. -/
def block (folded : Bool) (indent : Int) (c : Cursor) : Scan := do
  let h ← header c.next
  let c ← restOfLine h.cursor
  let least := max 1 (indent + 1).toNat
  match h.increment with
  | some n =>
    let column := least + n - 1
    let (breaks, c) := shortLines column c.rest.length.succ c
    return blockFrom folded h.chomping column c.rest.length.succ [] breaks c
  | none =>
    let (breaks, deepest, c) := leadingLines c.rest.length.succ 0 c
    return blockFrom folded h.chomping (max least deepest) c.rest.length.succ [] breaks c

end Pageloom.Yaml.Scalar
