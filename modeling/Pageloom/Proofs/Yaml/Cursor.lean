import Mathlib.Data.List.Infix
import Pageloom.Yaml.Cursor

/-!
# Places inside a text

A cursor that starts in a text stays in it: what follows the place is an end of the text, however
the cursor moves on.

## Main definitions

* `Cursor.IsIn`: the cursor stands in a text.

## Main results

* `Cursor.IsIn.advance`, `Cursor.IsIn.skipWhile`, `Cursor.IsIn.lineBreak?`: it stays there.
-/

namespace Pageloom.Yaml.Cursor

variable {t : Text} {c c' : Cursor} {b : Char}

/-- What follows the place is an end of the text. -/
def IsIn (t : Text) (c : Cursor) : Prop := c.rest <:+ t

theorem rest_next (c : Cursor) : c.next.rest = c.rest.tail := by
  rw [next]
  split
  · next h => rw [h, List.tail_nil]
  · next h =>
    rw [h]
    split <;> rfl

theorem rest_advance (n : ℕ) (c : Cursor) : (advance n c).rest = c.rest.drop n := by
  induction n generalizing c with
  | zero => rfl
  | succ n ih => rw [advance, ih, rest_next, ← List.drop_one, List.drop_drop, Nat.add_comm]

namespace IsIn

theorem next (h : c.IsIn t) : c.next.IsIn t := by
  rw [IsIn, rest_next]
  exact (List.tail_suffix c.rest).trans h

theorem advance (h : c.IsIn t) (n : ℕ) : (Cursor.advance n c).IsIn t := by
  rw [IsIn, rest_advance]
  exact (List.drop_suffix n c.rest).trans h

theorem skipWhile (h : c.IsIn t) (p : Char → Bool) : (c.skipWhile p).IsIn t := h.advance _

theorem skipSpaces (h : c.IsIn t) : c.skipSpaces.IsIn t := h.skipWhile _

theorem skipLine (h : c.IsIn t) : c.skipLine.IsIn t := h.skipWhile _

theorem lineBreak? (h : c.IsIn t) (hbreak : c.lineBreak? = some (b, c')) : c'.IsIn t := by
  rw [Cursor.lineBreak?] at hbreak
  split at hbreak
  · cases hbreak
    exact h.advance 2
  · split at hbreak
    · cases hbreak
      exact h.next
    · cases hbreak
  · cases hbreak

end IsIn

end Pageloom.Yaml.Cursor
