import Pageloom.Text.Utf8
import Pageloom.Yaml.Scalar

/-!
# Tokens of a YAML text

A text is cut into tokens before its structure is looked at. Indentation shows in tokens of its own,
which open and close blocks. That a token is the key of an entry is known only when the colon behind
it is met; then the tokens that say so are put in front of it. Such a key has to stand on one line,
and the colon within 1024 characters of its start.

Where the text cannot be cut any further, the tokens end with the fault. A token that may still turn
out to be a key is not handed out before that is decided, so a fault comes before such a token.

## Main definitions

* `Yaml.Token`: the tokens.
* `Lexing`: what is read so far; `Lexing.step` reads one more token.
* `Token.ofText`: the tokens of a text.
-/

namespace Pageloom.Yaml

/-- A token. -/
inductive Token where
  /-- The version of the format that a document asks for. -/
  | version (major : Nat)
  /-- A handle that stands for the start of tags. -/
  | handle (name start : Text)
  | otherDirective
  | documentStart
  | documentEnd
  | streamEnd
  | blockSequenceStart
  | blockMappingStart
  | blockEnd
  | flowSequenceStart
  | flowSequenceEnd
  | flowMappingStart
  | flowMappingEnd
  | blockEntry
  | flowEntry
  | key
  | value
  | reference (name : Text)
  | anchor (name : Text)
  /-- A tag, spelled with a handle or in full. -/
  | tag (handle : Option Text) (suffix : Text)
  | scalar (isPlain : Bool) (t : Text)
  /-- The text cannot be read any further. -/
  | fault (f : Fault)
deriving Repr, DecidableEq

/-- A token that may turn out to be a key: how many tokens come before it, whether it has to be one,
and where it stands. -/
structure KeyMark where
  number : Nat
  required : Bool
  index : Nat
  line : Nat
  column : Nat
deriving Repr, DecidableEq

/-- What is read so far: the place, the tokens, newest first, and their number; the possible keys,
one for each level of open brackets, innermost first; the columns of the open blocks, innermost
first; and whether a key may begin here. -/
structure Lexing where
  cursor : Cursor
  tokens : List Token := []
  count : Nat := 0
  keys : List (Option KeyMark) := [none]
  indents : List Nat := []
  allowKey : Bool := true
deriving Repr

namespace Lexing

/-- Whether brackets are open. -/
def inFlow (s : Lexing) : Bool := 1 < s.keys.length

/-- The column of the innermost open block, or -1 outside of all blocks. -/
def indent (s : Lexing) : Int :=
  match s.indents with
  | [] => -1
  | i :: _ => i

/-- Adds a token. -/
def push (t : Token) (s : Lexing) : Lexing :=
  { s with tokens := t :: s.tokens, count := s.count + 1 }

/-- Puts a token before the one that has the given number. -/
def insert (number : Nat) (t : Token) (s : Lexing) : Lexing :=
  let later := s.count - number
  { s with tokens := s.tokens.take later ++ t :: s.tokens.drop later, count := s.count + 1 }

/-- Moves on. -/
def moveTo (c : Cursor) (s : Lexing) : Lexing := { s with cursor := c }

/-- Says whether a key may begin here. -/
def allow (b : Bool) (s : Lexing) : Lexing := { s with allowKey := b }

/-! ### Possible keys -/

/-- The most characters from the start of a key to its colon. -/
def maxKey : Nat := 1024

/-- Whether a possible key can still be followed by its colon at the place. -/
def isFresh (c : Cursor) (k : KeyMark) : Bool := k.line = c.line && c.index ≤ k.index + maxKey

/-- Gives up the possible keys whose colon is overdue. A required one must not be given up. -/
def dropStale (s : Lexing) : Except Fault Lexing :=
  if s.keys.any fun k => k.any fun k => k.required && !isFresh s.cursor k then .error .malformed
  else .ok { s with keys := s.keys.map fun k => k.filter (isFresh s.cursor) }

/-- Gives up the possible key of the innermost level. -/
def dropKey (s : Lexing) : Except Fault Lexing :=
  match s.keys with
  | some k :: ks => if k.required then .error .malformed else .ok { s with keys := none :: ks }
  | _ => .ok s

/-- Notes that the next token may be a key. It has to be one where a block's lines begin. -/
def markKey (s : Lexing) : Except Fault Lexing :=
  if !s.allowKey then .ok s
  else
    s.dropKey.map fun s =>
      let c := s.cursor
      let required := !s.inFlow && s.indent = c.column
      { s with keys := some ⟨s.count, required, c.index, c.line, c.column⟩ :: s.keys.tail }

/-- The tokens that are decided, in order, with a fault behind them. -/
def failing (f : Fault) (s : Lexing) : List Token :=
  let decided := (s.keys.filterMap fun k => k.map (·.number)).foldl min s.count
  s.tokens.reverse.take decided ++ [.fault f]

/-! ### Indentation -/

/-- Closes the blocks that are indented deeper than the given column. -/
def unwindFrom (column : Int) : List Nat → Lexing → Lexing
  | [], s => { s with indents := [] }
  | i :: is, s =>
    if column < i then unwindFrom column is (s.push .blockEnd) else { s with indents := i :: is }

/-- Closes the blocks that are indented deeper than the given column, unless brackets are open. -/
def unwind (column : Int) (s : Lexing) : Lexing :=
  if s.inFlow then s else unwindFrom column s.indents s

/-- Opens a block at a column, if it is deeper than the innermost one, with the token that says so
in front of the one with the given number. -/
def openBlock (number column : Nat) (t : Token) (s : Lexing) : Lexing :=
  if s.indent < column then { s.insert number t with indents := column :: s.indents } else s

/-! ### Directives, tags and labels -/

/-- Letters, digits, dashes and underscores. -/
def isWordChar (c : Char) : Bool := c.isAlphanum || c == '-' || c == '_'

/-- The place behind the end of a directive's line. -/
def number? (c : Cursor) : Option (Nat × Cursor) :=
  let digits := c.run Char.isDigit
  if digits = [] then none else some (Text.natValue digits, c.advance digits.length)

/-- The bytes of percent escapes, and the place behind them. -/
def escapedBytes : (bound : Nat) → Cursor → Except Fault (List UInt8 × Cursor)
  | 0, c => .ok ([], c)
  | n + 1, c =>
    match c.rest with
    | '%' :: a :: b :: _ =>
      match Text.hexValue? a, Text.hexValue? b with
      | some x, some y =>
        (escapedBytes n (c.advance 3)).map fun (bs, c) => (UInt8.ofNat (x * 16 + y) :: bs, c)
      | _, _ => .error .malformed
    | '%' :: _ => .error .malformed
    | _ => .ok ([], c)

/-- Characters of a tag. -/
def isTagChar (c : Char) : Bool := c.isAlphanum || "-;/?:@&=+$,_.!~*'()[]%".toList.elem c

/-- The characters of a tag with percent escapes read. -/
def tagText : (bound : Nat) → Cursor → Scalar.Scan
  | 0, c => .ok ([], c)
  | n + 1, c =>
    match c.head? with
    | some '%' => do
      let (bytes, c) ← escapedBytes c.rest.length c
      match Utf8.decode bytes with
      | .error _ => .error .malformed
      | .ok t =>
        let (rest, c) ← tagText n c
        return (t ++ rest, c)
    | some ch =>
      if isTagChar ch then (tagText n c.next).map fun (rest, c) => (ch :: rest, c) else .ok ([], c)
    | none => .ok ([], c)

/-- A tag, or the start of one; it is not empty. -/
def uri (c : Cursor) : Scalar.Scan := do
  let (t, behind) ← tagText c.rest.length c
  if behind.index = c.index then .error .malformed else return (t, behind)

/-- A handle between exclamation marks, or the mark alone before a space. -/
def handle (c : Cursor) : Scalar.Scan :=
  match c.rest with
  | '!' :: ' ' :: _ => .ok (['!'], c.next)
  | '!' :: rest =>
    let name := rest.takeWhile isWordChar
    if (rest.drop name.length).head? = some '!' then
      .ok ('!' :: name ++ ['!'], c.advance (name.length + 2))
    else .error .malformed
  | _ => .error .malformed

/-- The version that a directive asks for, from behind its name. -/
def versionDirective (c : Cursor) : Except Fault (Token × Cursor) :=
  match number? c.skipSpaces with
  | some (major, c) =>
    match if c.head? = some '.' then number? c.next else none with
    | some (_, c) => if isSpaceOrEnd c.head? then .ok (.version major, c) else .error .malformed
    | none => .error .malformed
  | none => .error .malformed

/-- The handle that a directive declares, from behind its name. -/
def handleDirective (c : Cursor) : Except Fault (Token × Cursor) :=
  (handle c.skipSpaces).bind fun (name, c) =>
    if c.head? ≠ some ' ' then .error .malformed
    else
      (uri c.skipSpaces).bind fun (start, c) =>
        if isSpaceOrEnd c.head? then .ok (.handle name start, c) else .error .malformed

/-- A directive from its percent sign on, and the place behind its line. Of unknown ones only the
name is looked at. -/
def directive (c : Cursor) : Except Fault (Token × Cursor) :=
  let name := c.next.run isWordChar
  let c := c.next.advance name.length
  if name = [] || !isSpaceOrEnd c.head? then .error .malformed
  else
    let token : Except Fault (Token × Cursor) :=
      if name = "YAML".toList then versionDirective c
      else if name = "TAG".toList then handleDirective c
      else .ok (.otherDirective, c.skipLine)
    token.bind fun (t, c) => (Scalar.restOfLine c).map fun c => (t, c)

/-- Characters that may stand right behind a label. -/
def endsLabel (c : Char) : Bool :=
  c == ' ' || c == '\t' || isBreak c || "?:,]\x7d%@\x60".toList.elem c

/-- A label behind its mark. -/
def label (c : Cursor) : Scalar.Scan :=
  let name := c.next.run isWordChar
  let behind := c.next.advance name.length
  if name ≠ [] && behind.head?.all endsLabel then .ok (name, behind) else .error .malformed

/-- Whether a tag that begins here has a handle: another exclamation mark comes before the next
space. -/
def hasHandle (t : Text) : Bool := (t.takeWhile fun c => c ≠ ' ' && !isBreak c).elem '!'

/-- A tag, whatever follows it: in full between angle brackets, the mark alone, or with a handle. -/
def openTag (c : Cursor) : Except Fault (Token × Cursor) :=
  let next := c.peek? 1
  if next = some '<' then
    (uri (c.advance 2)).bind fun (t, c) =>
      if c.head? = some '>' then .ok (.tag none t, c.next) else .error .malformed
  else if isApart next then .ok (.tag none ['!'], c.next)
  else if hasHandle c.rest.tail then
    (handle c).bind fun (name, c) => (uri c).map fun (t, c) => (.tag (some name) t, c)
  else (uri c.next).map fun (t, c) => (.tag (some ['!']) t, c)

/-- A tag. It ends at a space or at the end of its line. -/
def tag (c : Cursor) : Except Fault (Token × Cursor) :=
  (openTag c).bind fun (t, c) => if isSpaceOrEnd c.head? then .ok (t, c) else .error .malformed

/-! ### Steps -/

/-- Skips blanks, comments and ends of lines. A key may begin on a new line. -/
def skipBlanks : (bound : Nat) → Lexing → Lexing
  | 0, s => s
  | n + 1, s =>
    let c := s.cursor.skipSpaces
    let c := if c.head? = some '#' then c.skipLine else c
    match c.lineBreak? with
    | some (_, c) => skipBlanks n { s with cursor := c, allowKey := s.allowKey || !s.inFlow }
    | none => s.moveTo c

/-- Skips a mark at the start of the text, blanks, comments and ends of lines. -/
def skip (s : Lexing) : Lexing :=
  let marked := s.cursor.index = 0 && s.cursor.head? = some byteOrderMark
  let s := if marked then s.moveTo s.cursor.next else s
  skipBlanks (s.cursor.rest.length + 1) s

/-- Adds a token of `length` characters. -/
def take (length : Nat) (t : Token) (s : Lexing) : Lexing :=
  (s.push t).moveTo (s.cursor.advance length)

/-- Adds a token that stands between documents. -/
def takeSeparator (length : Nat) (t : Token) (s : Lexing) : Except Fault Lexing :=
  (s.unwind (-1)).dropKey.map fun s => (s.allow false).take length t

/-- Adds an opening bracket. -/
def openFlow (t : Token) (s : Lexing) : Except Fault Lexing :=
  s.markKey.map fun s => { (s.allow true).take 1 t with keys := none :: s.keys }

/-- Adds a closing bracket. One that closes nothing ends the text. -/
def closeFlow (t : Token) (s : Lexing) : Except Fault Lexing :=
  s.dropKey.map fun s =>
    let s := (s.allow false).take 1 t
    if s.inFlow then { s with keys := s.keys.tail }
    else (s.push (.fault .malformed)).moveTo ⟨[], 0, 0, 0⟩

/-- Adds the mark of an entry of a block sequence. -/
def blockEntry (s : Lexing) : Except Fault Lexing :=
  if !s.inFlow && !s.allowKey then .error .malformed
  else
    let s := if s.inFlow then s else s.openBlock s.count s.cursor.column .blockSequenceStart
    (s.allow true).dropKey.map (take 1 .blockEntry)

/-- Adds the mark of a key that is no simple one. -/
def explicitKey (s : Lexing) : Except Fault Lexing :=
  if !s.inFlow && !s.allowKey then .error .malformed
  else
    let s := if s.inFlow then s else s.openBlock s.count s.cursor.column .blockMappingStart
    (s.allow (!s.inFlow)).dropKey.map (take 1 .key)

/-- Adds a colon, and makes the possible key before it one. -/
def colon (s : Lexing) : Except Fault Lexing :=
  match s.keys with
  | some k :: ks =>
    let s := { s with keys := none :: ks }.insert k.number .key
    let s := if s.inFlow then s else s.openBlock k.number k.column .blockMappingStart
    .ok ((s.allow false).take 1 .value)
  | _ =>
    if !s.inFlow && !s.allowKey then .error .malformed
    else
      let s := if s.inFlow then s else s.openBlock s.count s.cursor.column .blockMappingStart
      (s.allow (!s.inFlow)).dropKey.map (take 1 .value)

/-- Adds a token that may be a key, given with the place behind it. -/
def node (scan : Cursor → Except Fault (Token × Cursor)) (s : Lexing) : Except Fault Lexing := do
  let s ← s.markKey
  let (t, c) ← scan s.cursor
  return ((s.allow false).push t).moveTo c

/-- Adds a block scalar. -/
def blockScalar (folded : Bool) (s : Lexing) : Except Fault Lexing := do
  let s ← (s.allow true).dropKey
  let (t, c) ← Scalar.block folded s.indent s.cursor
  return (s.push (.scalar false t)).moveTo c

/-- Adds a plain scalar. When a line ends behind it, a key may come next. -/
def plain (s : Lexing) : Except Fault Lexing :=
  s.markKey.map fun s =>
    let (t, newLine, c) := Scalar.plain s.inFlow (s.indent + 1) s.cursor
    ((s.allow newLine).push (.scalar true t)).moveTo c

/-- Characters with a meaning of their own, which cannot begin a plain scalar. -/
def isIndicator (c : Char) : Bool := "-?:,[]\x7b\x7d#&*!|>'\"%@\x60".toList.elem c

/-- Whether a plain scalar begins with `c` before `next`. Dashes, question marks and colons may
begin one when they are not set apart, the latter two only outside brackets. -/
def startsPlain (inFlow : Bool) (c : Char) (next : Option Char) : Bool :=
  !(Scalar.isBlank c || isBreak c || isIndicator c) ||
    (!isApart next && (c = '-' || (!inFlow && (c = '?' || c = ':'))))

/-- Reads the token that begins with `c`. -/
def dispatch (c : Char) (s : Lexing) : Except Fault Lexing :=
  let next := s.cursor.peek? 1
  let atStart := s.cursor.column = 0
  if c = '%' && atStart then do
    let s ← (s.unwind (-1)).dropKey
    let (t, c) ← directive s.cursor
    return ((s.allow false).push t).moveTo c
  else if atStart && s.cursor.atMarks '-' then s.takeSeparator 3 .documentStart
  else if atStart && s.cursor.atMarks '.' then s.takeSeparator 3 .documentEnd
  else if c = '[' then s.openFlow .flowSequenceStart
  else if c = '\x7b' then s.openFlow .flowMappingStart
  else if c = ']' then s.closeFlow .flowSequenceEnd
  else if c = '\x7d' then s.closeFlow .flowMappingEnd
  else if c = ',' then (s.allow true).dropKey.map (take 1 .flowEntry)
  else if c = '-' && isApart next then s.blockEntry
  else if c = '?' && (s.inFlow || isApart next) then s.explicitKey
  else if c = ':' && (s.inFlow || isApart next) then s.colon
  else if c = '*' then s.node fun c => (label c).map fun (t, c) => (.reference t, c)
  else if c = '&' then s.node fun c => (label c).map fun (t, c) => (.anchor t, c)
  else if c = '!' then s.node tag
  else if c = '|' && !s.inFlow then s.blockScalar false
  else if c = '>' && !s.inFlow then s.blockScalar true
  else if c = '\'' || c = '"' then
    s.node fun p => (Scalar.quoted c p).map fun (t, p) => (.scalar false t, p)
  else if startsPlain s.inFlow c next then s.plain
  else .error .malformed

/-- Ends the tokens. -/
def finish (s : Lexing) : Except Fault (List Token) :=
  (s.unwind (-1)).dropKey.map fun s => (s.push .streamEnd).tokens.reverse

/-- Reads one more token, or ends the tokens. -/
def step (s : Lexing) : Except Fault (Lexing ⊕ List Token) :=
  s.skip.dropStale.bind fun s =>
    match s.cursor.head? with
    | none => s.finish.map .inr
    | some c => (dispatch c (s.unwind s.cursor.column)).map .inl

/-- Reads all tokens. Each step takes a character, which bounds their number. -/
def run : (bound : Nat) → Lexing → List Token
  | 0, s => s.failing .malformed
  | n + 1, s =>
    match s.dropStale with
    | .error f => s.failing f
    | .ok s =>
      match s.step with
      | .error f => s.failing f
      | .ok (.inl s) => run n s
      | .ok (.inr tokens) => tokens

end Lexing

/-- Whether a character may occur in a YAML text at all. -/
def isAllowed (c : Char) : Bool :=
  let n := c.toNat
  n == 9 || n == 10 || n == 13 || (0x20 ≤ n && n ≤ 0x7E) || n == 0x85 || (0xA0 ≤ n && n ≤ 0xD7FF) ||
    (0xE000 ≤ n && n ≤ 0xFFFD) || 0x10000 ≤ n

/-- The tokens of a text. The last one is its end or a fault. -/
def Token.ofText (t : Text) : List Token :=
  if t.all isAllowed then Lexing.run (t.length + 2) { cursor := { rest := t } }
  else [.fault .malformed]

end Pageloom.Yaml
