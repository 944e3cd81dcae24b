import Pageloom.Proofs.FrontMatter.Header
import Pageloom.Proofs.Yaml.Load

/-!
# How reading front matter can end

Splitting a text gives a result, or an error that says which line is to blame; the only exception is
a header whose first line that cannot be read has a value of a certain kind. It stands between
quotes, the loader does not find its form wrong, and still it has no text: the loader fails in
another way, or what it gives cannot be written. This is so for every loader.

By the rules of this library what is wrong with such a value is one of four things: an escape for a
code without a character, a scalar that does not fit its tag (without a tag that is written out, an
integer whose digits are missing or too many, or a day or time that does not exist), a mapping that
is to be a time, or a number that is read and cannot be written.

## Main definitions

* `FrontMatter.IsReported`: the outcome is a result, or an error at a line of the text.
* `FrontMatter.IsFirstBad`: the first line of a header that cannot be read.
* `FrontMatter.Defect`: what keeps a value whose form is right from having a text, by the rules of
  this library.

## Main results

* `FrontMatter.LacksText.defect`: what is wrong with the value of a line without a text.
* `FrontMatter.split_isReported_iff`: which texts end with a result or with an error at a line.
-/

namespace Pageloom.FrontMatter

open Yaml (Loader)

variable {t line value : Text} {fault : Yaml.Fault}

/-- What keeps a value between quotes from having a text when its form is right. -/
inductive Defect (value : Text) : Yaml.Fault → Prop where
  | unfit {f : Yaml.Fault} (h : Yaml.Unfit value f) : Defect value f
  | number {v : Value} (hload : Yaml.load value = .ok v) (h : v.isWritable = false) :
      Defect value (.notInteger .unwritable)

section

variable [Loader]

/-- The text is split, or one of its lines is to blame. -/
def IsReported (t : Text) : Prop :=
  (∃ r, split t = .ok r) ∨
    ∃ e, split t = .error (.bad e) ∧ 1 ≤ e.line ∧ e.line ≤ (Text.lines t).length

/-- The line stands in the header of a text, behind lines that can all be read, and it is not the
one that closes the header. -/
def IsFirstBad (t line : Text) : Prop :=
  ∃ first head behind, Text.lines t = first :: (head ++ line :: behind) ∧
    isDelimiter first = true ∧ (∀ l ∈ head, isDelimiter l = false ∧ IsEntryLine HasText l) ∧
    isDelimiter line = false ∧ ¬ IsEntryLine HasText line

/-- **What is wrong with a value without a text**, if the loader keeps to the rules. -/
theorem LacksText.defect (h : LacksText line fault) :
    ∃ name value, Spells line name value ∧ IsWrapped value ∧
      (Loader.load value = Yaml.load value → Defect value fault) := by
  obtain ⟨-, name, value, hspells, hw, ⟨hload, hform⟩ | ⟨⟨v, hload, hwrite⟩, rfl⟩⟩ := h
  · exact ⟨name, value, hspells, hw,
      fun hrules => .unfit (Yaml.unfit_of_load (hrules.symm.trans hload) hform)⟩
  · exact ⟨name, value, hspells, hw, fun hrules => .number (hrules.symm.trans hload) hwrite⟩

/-- A line that lacks a text cannot be read. -/
theorem LacksText.not_isEntryLine (h : LacksText line fault) : ¬ IsEntryLine HasText line := by
  intro hentry
  obtain ⟨p, hp⟩ := (exists_readLine_eq_ok_iff 0).mpr hentry
  rw [readLine_eq_value_iff.mpr h] at hp
  cases hp

/-- Which headers end with a value that has no text. -/
theorem split_eq_value_iff :
    split t = .error (.value fault) ↔ ∃ line, IsFirstBad t line ∧ LacksText line fault := by
  obtain ⟨first, rest, hlines⟩ := List.exists_cons_of_ne_nil (Text.split_ne_nil '\n' t)
  have hlines : Text.lines t = first :: rest := hlines
  cases hfirst : isDelimiter first with
  | false =>
    rw [split_of_not_delimiter hlines hfirst]
    refine ⟨nofun, ?_⟩
    rintro ⟨line, ⟨first', head, behind, hlines', hfirst', -⟩, -⟩
    cases hlines.symm.trans hlines'
    cases hfirst.symm.trans hfirst'
  | true =>
    rw [split_eq_error_iff hlines hfirst, readFrom_eq_error_iff]
    simp only [readLine_eq_value_iff]
    constructor
    · rintro (⟨head, line, behind, rfl, hhead, hline, hlacks⟩ | ⟨-, hbad⟩)
      · exact ⟨line, ⟨first, head, behind, hlines, hfirst, hhead, hline, hlacks.not_isEntryLine⟩,
          hlacks⟩
      · cases hbad
    · rintro ⟨line, ⟨first', head, behind, hlines', -, hhead, hline, -⟩, hlacks⟩
      cases hlines.symm.trans hlines'
      exact .inl ⟨head, line, behind, rfl, hhead, hline, hlacks⟩

/-- The line to blame is a line of the text. -/
theorem line_of_split_eq_bad {e : SyntaxError} (h : split t = .error (.bad e)) :
    1 ≤ e.line ∧ e.line ≤ (Text.lines t).length := by
  obtain ⟨first, rest, hlines⟩ := List.exists_cons_of_ne_nil (Text.split_ne_nil '\n' t)
  have hlines : Text.lines t = first :: rest := hlines
  cases hfirst : isDelimiter first with
  | false =>
    rw [split_of_not_delimiter hlines hfirst] at h
    cases h
  | true =>
    rw [split_eq_error_iff hlines hfirst, readFrom_eq_error_iff] at h
    rcases h with ⟨head, line, behind, rfl, -, -, hread⟩ | ⟨-, hbad⟩
    · have hnumber := (readLine_eq_bad hread).2
      rw [hlines, List.length_cons, List.length_append, List.length_cons]
      omega
    · cases hbad
      rw [hlines, List.length_cons]
      exact ⟨Nat.le_refl 1, Nat.le_add_left 1 _⟩

/-- **When every failure of front matter is reported as such.** Whatever loader reads the values,
splitting a text gives a result or an error at one of its lines, unless the first line of the header
that cannot be read spells a value between quotes without a text; then what keeps it from having one
is the outcome. If the loader keeps to the rules of this library there, it is a defect of the
value. -/
theorem split_isReported_iff (t : Text) :
    (IsReported t ↔ ¬ ∃ line fault, IsFirstBad t line ∧ LacksText line fault) ∧
      ∀ fault, split t = .error (.value fault) →
        ∃ line, IsFirstBad t line ∧ LacksText line fault ∧
          ∃ name value, Spells line name value ∧ IsWrapped value ∧
            (Loader.load value = Yaml.load value → Defect value fault) := by
  constructor
  · constructor
    · rintro (⟨r, hr⟩ | ⟨e, he, -⟩) ⟨line, fault, hbad⟩
      · cases hr.symm.trans (split_eq_value_iff.mpr ⟨line, hbad⟩)
      · cases he.symm.trans (split_eq_value_iff.mpr ⟨line, hbad⟩)
    · intro hno
      cases h : split t with
      | ok r => exact .inl ⟨r, h⟩
      | error fault =>
        cases fault with
        | bad e => exact .inr ⟨e, h, line_of_split_eq_bad h⟩
        | value fault =>
          obtain ⟨line, hbad⟩ := split_eq_value_iff.mp h
          exact absurd ⟨line, fault, hbad⟩ hno
  · intro fault h
    obtain ⟨line, hbad, hlacks⟩ := split_eq_value_iff.mp h
    exact ⟨line, hbad, hlacks, hlacks.defect⟩

end

/-- There is no character with the code that is one above the last. -/
example : split "---\nk: \"\\U00110000\"\n---\nbody" = .error (.value .noCharacter) := by
  decide +kernel

end Pageloom.FrontMatter
