import Pageloom.Markdown.Inline
import Pageloom.Text.Blank
import Pageloom.Text.Category

/-!
# Emphasis

Which runs of `*` and `_` open and close emphasis. A run may open what follows it and close what
comes before it, depending on the characters around it. A closing run meets the nearest run of the
same mark that may open; two marks on each side make strong emphasis, one makes plain emphasis, and
what is left of a run goes on looking for a partner. Runs without a partner are text.

## Main definitions

* `Emphasis.Run`, `Emphasis.Item`: runs of marks among finished pieces.
* `Emphasis.flanks`: whether a run may open and close.
* `Emphasis.resolve`: runs paired up, the rest turned into text.
-/

namespace Pageloom.Markdown.Emphasis

/-- A run of `count` equal marks, of which there were `total` in the source. -/
structure Run where
  mark : Char
  count : Nat
  total : Nat
  canOpen : Bool
  canClose : Bool
deriving Repr

/-- The marks of a run as text. -/
def Run.text (r : Run) : Inline := .text (List.replicate r.count r.mark)

/-- A finished piece, or a run of marks whose sides are not looked at yet. -/
inductive Item where
  | piece (i : Inline)
  | marks (mark : Char) (count : Nat)
deriving Repr

/-! ### What stands beside a run -/

/-- Stands for a piece other than text when the sides of a run are looked at. It is punctuation. -/
def objectChar : Char := Char.ofNat 0xFFFC

/-- The first character of an item. -/
def Item.first : Item → Char
  | .piece (.text (c :: _)) => c
  | .piece .hardBreak => '\n'
  | .piece .softBreak => '\n'
  | .piece _ => objectChar
  | .marks c _ => c

/-- The last character of an item. -/
def Item.last : Item → Char
  | .piece (.text t) => t.getLastD objectChar
  | .piece .hardBreak => '\n'
  | .piece .softBreak => '\n'
  | .piece _ => objectChar
  | .marks c _ => c

/-- Characters that are neither alphanumeric nor blank. -/
def isPunctuation (c : Char) : Bool := !isAlphanumeric c && !isBlank c

/-- Whether a run of `mark` between two characters may open and may close emphasis. An underscore
inside a word does neither. -/
def flanks (mark before after : Char) : Bool × Bool :=
  let left := !isBlank after && (!isPunctuation after || isBlank before || isPunctuation before)
  let right := !isBlank before && (!isPunctuation before || isBlank after || isPunctuation after)
  let inWord := mark == '_' && isAlphanumeric before && isAlphanumeric after
  (left && !inWord, right && !inWord)

/-! ### Pairing -/

/-- An entry of the stack of what is read so far, newest first. -/
inductive Entry where
  | piece (i : Inline)
  | run (r : Run)
deriving Repr

/-- The entry as a finished piece. -/
def Entry.finish : Entry → Inline
  | .piece i => i
  | .run r => r.text

/-- Whether `opener` and `closer` make a pair. Where one of them could play both parts, lengths that
add up to a multiple of three do not, unless both are multiples. -/
def pairs (opener closer : Run) : Bool :=
  opener.canOpen && opener.mark == closer.mark &&
    !((opener.canClose || closer.canOpen) && closer.total % 3 != 0 &&
      (opener.total + closer.total) % 3 == 0)

/-- The nearest opener for `closer`: the pieces above it, oldest first, the opener, and the stack
below it. -/
def opener? (closer : Run) : (above : List Inline) → List Entry →
    Option (List Inline × Run × List Entry)
  | _, [] => none
  | above, .piece i :: below => opener? closer (i :: above) below
  | above, .run r :: below =>
    if pairs r closer then some (above, r, below) else opener? closer (r.text :: above) below

/-- Puts a run that found no partner on the stack. -/
def settle (r : Run) (stack : List Entry) : List Entry :=
  if r.count = 0 then stack else (if r.canOpen then .run r else .piece r.text) :: stack

/-- Pairs a run with openers on the stack as long as there are any. Each pair uses up at least one
of its marks. -/
def close : (bound : Nat) → Run → List Entry → List Entry
  | 0, r, stack => settle r stack
  | n + 1, r, stack =>
    if r.canClose && r.count ≠ 0 then
      match opener? r [] stack with
      | none => settle r stack
      | some (inner, opener, below) =>
        if Inline.maxHeight ≤ Inline.heights inner then settle r stack
        else
          let used := if 2 ≤ opener.count && 2 ≤ r.count then 2 else 1
          let wrapped := if used = 2 then Inline.strong inner else Inline.emphasis inner
          let opener := { opener with count := opener.count - used }
          let below := if opener.count = 0 then below else .run opener :: below
          close n { r with count := r.count - used } (.piece wrapped :: below)
    else settle r stack

/-- Reads items onto the stack; `before` is the character before them and `after` the one behind. -/
def resolveFrom (after : Char) : (before : Char) → List Item → List Entry → List Entry
  | _, [], stack => stack
  | _, .piece i :: items, stack =>
    resolveFrom after (Item.piece i).last items (.piece i :: stack)
  | before, .marks mark count :: items, stack =>
    let next := (items.head?.map Item.first).getD after
    let (canOpen, canClose) := flanks mark before next
    resolveFrom after mark items (close count ⟨mark, count, count, canOpen, canClose⟩ stack)

/-- The pieces that items between two characters stand for. -/
def resolve (before after : Char) (items : List Item) : List Inline :=
  (resolveFrom after before items []).reverse.map Entry.finish

end Pageloom.Markdown.Emphasis
