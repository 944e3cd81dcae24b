import Pageloom.Binary64
import Pageloom.Proofs.Text.Digits

/-!
# Reading decimal numbers

A text of decimal digits is read as a floating-point number, with or without a point, wherever it
stands, and with or without an exponent. There has to be one digit that does not belong to the
exponent.

## Main definitions

* `Binary64.IsDecimal`: such a text.

## Main results

* `Binary64.isSome_read?`: it is read.
-/

namespace Pageloom.Binary64

variable {c : Char} {t : Text}

/-- Digits, perhaps with a point before, among or behind them, and perhaps with an exponent. -/
def IsDecimal (t : Text) : Prop :=
  ∃ whole point exponent, t = whole ++ (point ++ exponent) ∧ (∀ c ∈ whole, c.isDigit) ∧
    (point = [] ∨ ∃ fraction, point = '.' :: fraction ∧ ∀ c ∈ fraction, c.isDigit) ∧
    (exponent = [] ∨ ∃ s ds, exponent = 'e' :: s :: ds ∧ (s = '+' ∨ s = '-') ∧ ds ≠ [] ∧
      ∀ c ∈ ds, c.isDigit) ∧
    ∃ c ∈ whole ++ point, c.isDigit

/-- The characters of a decimal number. -/
theorem IsDecimal.mem (h : IsDecimal t) (hc : c ∈ t) :
    c.isDigit ∨ c = '.' ∨ c = 'e' ∨ c = '+' ∨ c = '-' := by
  obtain ⟨whole, point, exponent, rfl, hwhole, hpoint, hexponent, -⟩ := h
  rcases List.mem_append.mp hc with hc | hc
  · exact .inl (hwhole c hc)
  rcases List.mem_append.mp hc with hc | hc
  · rcases hpoint with rfl | ⟨fraction, rfl, hfraction⟩
    · cases hc
    · rcases List.mem_cons.mp hc with rfl | hc
      · exact .inr (.inl rfl)
      · exact .inl (hfraction c hc)
  · rcases hexponent with rfl | ⟨s, ds, rfl, hs, -, hds⟩
    · cases hc
    · rcases List.mem_cons.mp hc with rfl | hc
      · exact .inr (.inr (.inl rfl))
      · rcases List.mem_cons.mp hc with rfl | hc
        · exact .inr (.inr (.inr hs))
        · exact .inl (hds c hc)

/-- A decimal number begins with a digit or with its point. -/
theorem IsDecimal.head (h : IsDecimal t) : ∃ d rest, t = d :: rest ∧ (d.isDigit ∨ d = '.') := by
  obtain ⟨whole, point, exponent, rfl, hwhole, hpoint, -, hdigit⟩ := h
  cases whole with
  | cons d whole => exact ⟨d, _, rfl, .inl (hwhole d (by simp))⟩
  | nil =>
    rcases hpoint with rfl | ⟨fraction, rfl, -⟩
    · obtain ⟨c, hc, -⟩ := hdigit
      cases hc
    · exact ⟨'.', _, rfl, .inr rfl⟩

theorem strip_of_isDecimal (h : IsDecimal t) : Text.strip t = t := by
  refine Text.trim_of_forall fun c hc => ?_
  rcases h.mem hc with hdigit | rfl | rfl | rfl | rfl
  · exact (isDigitOf_of_isDigit hdigit).isBlank
  all_goals decide

theorem sign_of_isDecimal (h : IsDecimal t) : Integer.sign t = (false, t) := by
  obtain ⟨d, rest, rfl, hdigit | rfl⟩ := h.head
  · exact Integer.sign_of_digit (isDigitOf_of_isDigit hdigit)
  · rfl

theorem digits_append {ds rest : Text} (hds : ∀ c ∈ ds, c.isDigit)
    (hrest : ∀ c ∈ rest.head?, Integer.digitBelow? 10 c = none) :
    digits (ds ++ rest) = (ds.filterMap Text.hexValue?, rest) :=
  Integer.digits_append (fun c hc => isDigitOf_of_isDigit (hds c hc)) hrest

theorem filterMap_hexValue?_ne_nil {ds : Text} (hds : ∀ c ∈ ds, c.isDigit) (hne : ds ≠ []) :
    ds.filterMap Text.hexValue? ≠ [] :=
  Integer.filterMap_hexValue?_ne_nil (fun c hc => isDigitOf_of_isDigit (hds c hc)) hne

/-- An exponent is read to its end. -/
theorem exists_exponent {e : Text} (h : e = [] ∨ ∃ s ds, e = 'e' :: s :: ds ∧ (s = '+' ∨ s = '-') ∧
    ds ≠ [] ∧ ∀ c ∈ ds, c.isDigit) : ∃ n, exponent e = (n, []) := by
  rcases h with rfl | ⟨s, ds, rfl, hs, hne, hds⟩
  · exact ⟨0, rfl⟩
  · have hsign : ∃ negative, Integer.sign (s :: ds) = (negative, ds) := by
      rcases hs with rfl | rfl
      · exact ⟨false, rfl⟩
      · exact ⟨true, rfl⟩
    obtain ⟨negative, hsign⟩ := hsign
    have hdigits : digits (ds ++ []) = (ds.filterMap Text.hexValue?, []) :=
      digits_append hds (by simp)
    rw [List.append_nil] at hdigits
    rw [exponent, hsign]
    dsimp only
    rw [hdigits]
    exact ⟨_, if_pos (by simpa using filterMap_hexValue?_ne_nil hds hne)⟩

/-- The digits behind a point, if one comes next, and what follows them. -/
def fraction (t : Text) : List ℕ × Text :=
  match t with
  | '.' :: cs => digits cs
  | _ => ([], t)

/-- How a text is read that is no word. -/
theorem readUnsigned?_of_not_word {negative : Bool} (hinfinite : Text.lowerAscii t ≠ "inf".toList)
    (hinfinity : Text.lowerAscii t ≠ "infinity".toList)
    (hnan : Text.lowerAscii t ≠ "nan".toList) :
    readUnsigned? negative t =
      let (whole, rest) := digits t
      let (part, rest) := fraction rest
      let (e, rest) := exponent rest
      if (whole = [] && part = []) || rest ≠ [] then none
      else some (ofDecimal negative (Text.valueOf 10 (whole ++ part)) (e - part.length)) := by
  have hword :
      ¬ (Text.lowerAscii t = "inf".toList || Text.lowerAscii t = "infinity".toList) = true := by
    rw [Bool.or_eq_true, decide_eq_true_eq, decide_eq_true_eq]
    exact not_or.mpr ⟨hinfinite, hinfinity⟩
  rw [readUnsigned?, if_neg hword, if_neg hnan]
  rfl

/-- A decimal number is no word. -/
theorem lowerAscii_ne_of_isDecimal (h : IsDecimal t) {c : Char} {word : Text}
    (hc : c = 'i' ∨ c = 'n') : Text.lowerAscii t ≠ c :: word := by
  obtain ⟨d, rest, rfl, hd⟩ := h.head
  intro heq
  have hlower : d.toLower = c := (List.cons.inj heq).1
  have hne : d.toLower ≠ 'i' ∧ d.toLower ≠ 'n' := by
    rcases hd with hdigit | rfl
    · exact (isDigitOf_of_isDigit hdigit).of_all
        (P := fun c => c.toLower ≠ 'i' ∧ c.toLower ≠ 'n') (by decide)
    · decide
  rcases hc with rfl | rfl
  · exact hne.1 hlower
  · exact hne.2 hlower

/-- **A decimal number is read.** -/
theorem isSome_read? (h : IsDecimal t) : (read? t).isSome := by
  rw [read?, strip_of_isDecimal h, sign_of_isDecimal h]
  dsimp only
  rw [readUnsigned?_of_not_word (lowerAscii_ne_of_isDecimal h (.inl rfl))
    (lowerAscii_ne_of_isDecimal h (.inl rfl)) (lowerAscii_ne_of_isDecimal h (.inr rfl))]
  obtain ⟨whole, point, e, rfl, hwhole, hpoint, hexponent, c, hc, hdigit⟩ := h
  obtain ⟨n, hn⟩ := exists_exponent hexponent
  have hbehind : ∀ c ∈ e.head?, Integer.digitBelow? 10 c = none := by
    rcases hexponent with rfl | ⟨s, ds, rfl, -⟩
    · nofun
    · rintro _ ⟨⟩
      decide
  have hvalues {ds : Text} (hds : ∀ c ∈ ds, c.isDigit) (hmem : c ∈ ds) :=
    filterMap_hexValue?_ne_nil hds (List.ne_nil_of_mem hmem)
  rcases hpoint with rfl | ⟨part, rfl, hpart⟩
  · have hnone : fraction e = ([], e) := by
      rcases hexponent with rfl | ⟨s, ds, rfl, -⟩ <;> rfl
    rw [List.append_nil] at hc
    rw [List.nil_append, digits_append hwhole hbehind]
    dsimp only
    rw [hnone, hn, if_neg (by simpa using hvalues hwhole hc)]
    rfl
  · have hsome : fraction ('.' :: (part ++ e)) = (part.filterMap Text.hexValue?, e) :=
      digits_append hpart hbehind
    have hne : whole.filterMap Text.hexValue? = [] → part.filterMap Text.hexValue? ≠ [] := by
      intro hnil
      rcases List.mem_append.mp hc with hc | hc
      · exact absurd hnil (hvalues hwhole hc)
      · rcases List.mem_cons.mp hc with rfl | hc
        · cases hdigit
        · exact hvalues hpart hc
    rw [digits_append hwhole (by rintro _ ⟨⟩; decide), List.cons_append]
    dsimp only
    rw [hsome, hn, if_neg]
    · rfl
    · simpa only [Bool.or_eq_true, Bool.and_eq_true, decide_eq_true_eq, ne_eq, not_true_eq_false,
        or_false, not_and] using hne

end Pageloom.Binary64
