import Pageloom.Path
import Pageloom.Proofs.Text.Parts

/-!
# Parts of paths

A path below another one has the components of that one in front of its own, and a file name is its
stem followed by its suffix. A stem is never empty, but it may be made of dots: the stem of `...md`
is `..`.

## Main results

* `Path.dropComponents?_eq_some_iff`, `Path.relativeTo_below`: what is left below an ancestor.
* `Path.splitSuffix_append`, `Path.splitSuffix_fst_ne_nil`: the stem and the suffix of a name.
* `Path.parse_of_no_slash`: the path that a text without slashes spells.
-/

namespace Pageloom.Path

variable {base path rest : List Text} {name t : Text}

/-! ### Below an ancestor -/

theorem dropComponents?_eq_some_iff :
    dropComponents? base path = some rest ↔ path = base ++ rest := by
  induction base generalizing path with
  | nil => simp [dropComponents?]
  | cons b base ih =>
    cases path with
    | nil => simp [dropComponents?]
    | cons c path =>
      by_cases hbc : b = c
      · simp [dropComponents?, hbc, ih]
      · simp [dropComponents?, hbc, Ne.symm hbc]

/-- The path with more components behind its own. -/
def below (p : Path) (rest : List Text) : Path := { p with components := p.components ++ rest }

theorem below_inj {p : Path} {xs ys : List Text} : p.below xs = p.below ys ↔ xs = ys := by
  simp [below]

theorem relativeTo_below (p : Path) (rest : List Text) :
    (p.below rest).relativeTo p = .ok ⟨0, rest⟩ := by
  have h : dropComponents? p.components (p.components ++ rest) = some rest :=
    dropComponents?_eq_some_iff.mpr rfl
  simp only [relativeTo, below, h, if_true]

/-! ### Names -/

/-- The cut of a name that has a last dot. -/
theorem splitSuffix_last_dot (stem : Text) {tail : Text} (hdot : '.' ∉ tail) :
    splitSuffix (stem ++ '.' :: tail) =
      if tail ≠ [] ∧ stem ≠ [] then (stem, '.' :: tail) else (stem ++ '.' :: tail, []) := by
  have htail : (stem ++ '.' :: tail).reverse.takeWhile (· ≠ '.') = tail.reverse := by
    rw [List.reverse_append, List.reverse_cons, List.append_assoc, List.takeWhile_append_of_pos]
    · simp
    · intro c hc
      simpa using fun h : c = '.' => hdot (h ▸ List.mem_reverse.mp hc)
  have hstem : (stem ++ '.' :: tail).take
      ((stem ++ '.' :: tail).length - tail.reverse.length - 1) = stem := by
    have hlength : (stem ++ '.' :: tail).length - tail.reverse.length - 1 = stem.length := by
      simp
      omega
    rw [hlength, List.take_left]
  have hlonger : tail.reverse.length < (stem ++ '.' :: tail).length := by
    simp
    omega
  rw [splitSuffix, htail, hstem]
  by_cases hne : tail ≠ [] ∧ stem ≠ []
  · rw [if_pos hne, if_pos (by simpa [hne] using hlonger), List.reverse_reverse]
  · rw [if_neg hne, if_neg (by simpa using fun h h' => absurd ⟨h, h'⟩ hne)]

/-- A name is cut before its last dot, unless that dot is at one of its ends. -/
theorem splitSuffix_cases (name : Text) :
    splitSuffix name = (name, []) ∨
      ∃ stem tail, stem ≠ [] ∧ tail ≠ [] ∧ '.' ∉ tail ∧ name = stem ++ '.' :: tail ∧
        splitSuffix name = (stem, '.' :: tail) := by
  by_cases hdot : '.' ∈ name.reverse
  · obtain ⟨tail, stem, hname, htail⟩ := List.eq_append_cons_of_mem hdot
    obtain rfl : name = stem.reverse ++ '.' :: tail.reverse := by
      rw [← List.reverse_reverse name, hname]
      simp
    have hcut := splitSuffix_last_dot stem.reverse (mt List.mem_reverse.mp htail)
    by_cases hne : tail.reverse ≠ [] ∧ stem.reverse ≠ []
    · rw [if_pos hne] at hcut
      exact Or.inr ⟨_, _, hne.2, hne.1, mt List.mem_reverse.mp htail, rfl, hcut⟩
    · rw [if_neg hne] at hcut
      exact Or.inl hcut
  · have hall : name.reverse.takeWhile (· ≠ '.') = name.reverse :=
      List.takeWhile_eq_self_iff.mpr fun c hc => by simpa using fun h : c = '.' => hdot (h ▸ hc)
    refine Or.inl ?_
    rw [splitSuffix, hall, if_neg (by simp)]

theorem splitSuffix_append (name : Text) : (splitSuffix name).1 ++ (splitSuffix name).2 = name := by
  rcases splitSuffix_cases name with h | ⟨stem, tail, -, -, -, hname, h⟩
  · rw [h]
    exact List.append_nil name
  · rw [h, ← hname]

theorem splitSuffix_fst_ne_nil (hname : name ≠ []) : (splitSuffix name).1 ≠ [] := by
  rcases splitSuffix_cases name with h | ⟨stem, tail, hstem, -, -, -, h⟩ <;> rw [h]
  · exact hname
  · exact hstem

/-! ### Texts without slashes -/

theorem parse_of_no_slash (h : '/' ∉ t) (hne : t ≠ []) :
    parse t = ⟨0, if t = ['.'] then [] else [t]⟩ := by
  have hleading : t.takeWhile (· == '/') = [] := by
    cases t with
    | nil => rfl
    | cons c t => exact List.takeWhile_cons_of_neg fun hc => h (eq_of_beq hc ▸ List.mem_cons_self)
  rw [parse, hleading, Text.split_of_notMem h]
  by_cases hdot : t = ['.'] <;> simp [hdot, hne]

end Pageloom.Path
