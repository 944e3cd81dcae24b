import Mathlib.Data.List.Infix
import Pageloom.Text.Basic

/-!
# Line breaks

A text may break its lines with a line feed, with a carriage return, or with both. Said as a
relation, a text with line feeds only comes from another one by turning each break into a line
feed, and a carriage return is a break of its own unless a line feed follows it.

## Main definitions

* `Text.Unifies`: a text comes from another one in this way.

## Main results

* `Text.unifies_iff`: it is the one that `Text.unifyBreaks` makes.
* `Text.return_notMem_unifyBreaks`: no carriage return is left.
* `Text.unifyBreaks_append`: texts may be read apart where no break is split.
-/

namespace Pageloom.Text

variable {s t u : Text} {c : Char}

/-- The second text is the first with a line feed for each of its line breaks. -/
inductive Unifies : Text → Text → Prop where
  | nil : Unifies [] []
  | pair {s t : Text} (h : Unifies s t) : Unifies ('\r' :: '\n' :: s) ('\n' :: t)
  | alone {s t : Text} (hs : s.head? ≠ some '\n') (h : Unifies s t) :
      Unifies ('\r' :: s) ('\n' :: t)
  | other {c : Char} {s t : Text} (hc : c ≠ '\r') (h : Unifies s t) : Unifies (c :: s) (c :: t)

theorem unifyBreaks_cons_of_ne (hc : c ≠ '\r') (s : Text) :
    unifyBreaks (c :: s) = c :: unifyBreaks s := by
  rw [unifyBreaks, if_neg hc]
  rintro _ rfl
  exact absurd rfl hc

theorem unifyBreaks_return (hs : s.head? ≠ some '\n') :
    unifyBreaks ('\r' :: s) = '\n' :: unifyBreaks s := by
  rw [unifyBreaks, if_pos rfl]
  rintro _ - rfl
  exact hs rfl

theorem unifies_unifyBreaks (s : Text) : Unifies s (unifyBreaks s) := by
  fun_induction unifyBreaks s with
  | case1 => exact .nil
  | case2 s ih => exact .pair ih
  | case3 c s hpair ih =>
    by_cases hc : c = '\r'
    · subst hc
      refine .alone (fun hs => ?_) ih
      obtain ⟨rest, rfl⟩ := List.head?_eq_some_iff.mp hs
      exact hpair rest rfl rfl
    · rw [if_neg hc]
      exact .other hc ih

/-- **There is one such text**, and it is the one that is computed. -/
theorem unifies_iff : Unifies s t ↔ t = unifyBreaks s := by
  refine ⟨fun h => ?_, fun h => h ▸ unifies_unifyBreaks s⟩
  induction h with
  | nil => rfl
  | pair _ ih => rw [ih, unifyBreaks]
  | alone hs _ ih => rw [ih, unifyBreaks_return hs]
  | other hc _ ih => rw [ih, unifyBreaks_cons_of_ne hc]

theorem Unifies.return_notMem (h : Unifies s t) : '\r' ∉ t := by
  induction h with
  | nil => exact List.not_mem_nil
  | pair _ ih => exact List.not_mem_cons_of_ne_of_not_mem (by decide) ih
  | alone _ _ ih => exact List.not_mem_cons_of_ne_of_not_mem (by decide) ih
  | other hc _ ih => exact List.not_mem_cons_of_ne_of_not_mem (Ne.symm hc) ih

theorem return_notMem_unifyBreaks (s : Text) : '\r' ∉ unifyBreaks s :=
  (unifies_unifyBreaks s).return_notMem

/-- Unifying breaks adds no other character. -/
theorem count_unifyBreaks_le (hc : c ≠ '\n') (s : Text) :
    (unifyBreaks s).count c ≤ s.count c := by
  fun_induction unifyBreaks s with
  | case1 => exact le_rfl
  | case2 s ih => grind
  | case3 d s _ ih => grind

/-- A text without carriage returns is as it was. -/
theorem unifyBreaks_of_notMem (h : '\r' ∉ s) : unifyBreaks s = s := by
  induction s with
  | nil => rfl
  | cons c s ih =>
    obtain ⟨hc, hs⟩ := not_or.mp (List.mem_cons.not.mp h)
    rw [unifyBreaks_cons_of_ne (Ne.symm hc), ih hs]

/-- Texts may be read apart unless the second begins with the line feed of a break. -/
theorem unifyBreaks_append (s : Text) (ht : t.head? ≠ some '\n') :
    unifyBreaks (s ++ t) = unifyBreaks s ++ unifyBreaks t := by
  fun_induction unifyBreaks s with
  | case1 => rfl
  | case2 s ih => rw [List.cons_append, List.cons_append, unifyBreaks, ih, List.cons_append]
  | case3 c s hpair ih =>
    rw [List.cons_append, List.cons_append, ← ih]
    by_cases hc : c = '\r'
    · subst hc
      rw [unifyBreaks_return, if_pos rfl]
      cases s with
      | nil => exact ht
      | cons d s =>
        intro hd
        exact hpair s rfl (by rw [Option.some.inj hd])
    · rw [unifyBreaks_cons_of_ne hc, if_neg hc]

end Pageloom.Text
