import Mathlib.Data.Bool.AllAny
import Mathlib.Data.Nat.Notation
import Pageloom.Text.Blank
import Pageloom.Text.Category

/-!
# Blank characters, one by one

There are not many blanks, so what holds of all of them can be checked, one after the other.

## Main definitions

* `blankCodes`: the codes of the blanks.

## Main results

* `forall_blank`: from a check of all blanks to each of them.
* `isWordChar_of_isBlank`: a blank belongs to no word.
-/

namespace Pageloom

variable {c : Char}

/-- The codes of the blanks. -/
def blankCodes : List ℕ :=
  [9, 10, 11, 12, 13, 28, 29, 30, 31, 32, 0x85, 0xA0, 0x1680, 0x2000, 0x2001, 0x2002, 0x2003,
    0x2004, 0x2005, 0x2006, 0x2007, 0x2008, 0x2009, 0x200A, 0x2028, 0x2029, 0x202F, 0x205F, 0x3000]

theorem toNat_mem_blankCodes (h : isBlank c) : c.toNat ∈ blankCodes := by
  simp only [isBlank, Bool.or_eq_true, Bool.and_eq_true, decide_eq_true_eq, beq_iff_eq] at h
  simp only [blankCodes, List.mem_cons, List.not_mem_nil, or_false]
  omega

/-- What is to be shown of a blank, shown of all of them. -/
theorem forall_blank {P : Char → Prop} [DecidablePred P]
    (hall : blankCodes.all fun n => P (Char.ofNat n)) (h : isBlank c) : P c := by
  rw [← Char.ofNat_toNat c]
  exact List.all_iff_forall_prop.mp hall c.toNat (toNat_mem_blankCodes h)

theorem isWordChar_of_isBlank (h : isBlank c) : isWordChar c = false :=
  forall_blank (P := fun c => isWordChar c = false) (by decide +kernel) h

end Pageloom
