import Mathlib.Algebra.Order.Ring.Nat
import Mathlib.Data.Bool.AllAny
import Mathlib.Data.List.Induction
import Pageloom.Proofs.Text.Parts
import Pageloom.Text.Integer

/-!
# Digits of a base

Integers are read from digits of any script, with blanks around them, a sign, and the name of the
base. Digits of the base in ASCII are none of these, so a text of nothing else is read as what it
spells, unless it has too many decimal digits.

## Main definitions

* `IsDigitOf`: the ASCII digits of a base; `isDigitOf_of_isDigit` for the decimal ones.

## Main results

* `Text.valueOf_lt`: digits spell a number that has no more digits.
* `Integer.digits_append`: the digits at the start of a text.
* `Integer.read_of_digits`: a text of digits.
-/

namespace Pageloom

variable {base n : ℕ} {c : Char} {t rest : Text}

/-! ### One digit -/

/-- What is to be shown of a character in ASCII, shown of all of them. -/
theorem forall_ascii {P : Char → Prop} (h : ∀ m < 128, P (Char.ofNat m)) (hc : c.toNat < 128) :
    P c := by
  rw [← Char.ofNat_toNat c]
  exact h c.toNat hc

theorem toNat_lt_of_le {d : Char} (hd : d.toNat < 128) (h : c ≤ d) : c.toNat < 128 :=
  Nat.lt_of_le_of_lt (show c.toNat ≤ d.toNat from h) hd

theorem toNat_lt_of_toLower (h : c.toLower.toNat < 128) : c.toNat < 128 := by
  by_cases hc : c.val ≥ 'A'.val ∧ c.val ≤ 'Z'.val
  · exact toNat_lt_of_le (d := 'Z') (by decide) hc.2
  · have hsame : c.toLower = c := dif_neg hc
    rwa [hsame] at h

theorem toNat_lt_of_isDigit (h : c.isDigit) : c.toNat < 128 := by
  simp only [Char.isDigit, Bool.and_eq_true, decide_eq_true_eq] at h
  exact toNat_lt_of_le (d := '9') (by decide) h.2

theorem toNat_lt_of_isAlpha (h : c.isAlpha) : c.toNat < 128 := by
  rcases Bool.or_eq_true_iff.mp h with hupper | hlower
  · exact toNat_lt_of_le (d := 'Z') (by decide) (of_decide_eq_true hupper).2
  · have hrange : (decide (c.val ≥ 'a'.val) && decide (c.val ≤ 'z'.val)) = true := hlower
    exact toNat_lt_of_le (d := 'z') (by decide)
      (of_decide_eq_true (Bool.and_eq_true_iff.mp hrange).2)

theorem toNat_lt_of_isAlphanum (h : c.isAlphanum) : c.toNat < 128 :=
  (Bool.or_eq_true_iff.mp h).elim toNat_lt_of_isAlpha toNat_lt_of_isDigit

theorem Text.toNat_lt_of_hexValue? (h : hexValue? c = some n) : c.toNat < 128 := by
  rw [hexValue?] at h
  split at h
  · next hc => exact toNat_lt_of_isDigit hc
  split at h
  · next hc =>
    simp only [Bool.and_eq_true, decide_eq_true_eq] at hc
    exact toNat_lt_of_le (d := 'f') (by decide) hc.2
  split at h
  · next hc =>
    simp only [Bool.and_eq_true, decide_eq_true_eq] at hc
    exact toNat_lt_of_le (d := 'F') (by decide) hc.2
  · cases h

theorem Text.hexValue?_lt (h : hexValue? c = some n) : n < 16 :=
  forall_ascii (P := fun c => ∀ n ∈ hexValue? c, n < 16) (by decide) (toNat_lt_of_hexValue? h) n h

/-- An ASCII digit, or letter that is used as a digit, of the base. -/
def IsDigitOf (base : ℕ) (c : Char) : Prop := ∃ n < base, Text.hexValue? c = some n

theorem isDigitOf_of_isDigit (h : c.isDigit) : IsDigitOf 10 c := by
  refine ⟨c.toNat - 48, ?_, if_pos h⟩
  exact forall_ascii (P := fun c => c.isDigit → c.toNat - 48 < 10) (by decide)
    (toNat_lt_of_isDigit h) h

/-- The digits of base sixteen, and so those of the bases below it. -/
def hexDigits : List Char := "0123456789abcdefABCDEF".toList

theorem IsDigitOf.mem_hexDigits (h : IsDigitOf base c) : c ∈ hexDigits := by
  obtain ⟨n, -, hc⟩ := h
  refine forall_ascii (P := fun c => Text.hexValue? c ≠ none → c ∈ hexDigits) (by decide)
    (Text.toNat_lt_of_hexValue? hc) ?_
  rw [hc]
  nofun

/-- What is to be shown of a digit, shown of all of them. -/
theorem IsDigitOf.of_all {P : Char → Prop} [DecidablePred P] (hall : hexDigits.all fun c => P c)
    (h : IsDigitOf base c) : P c :=
  List.all_iff_forall_prop.mp hall c h.mem_hexDigits

theorem IsDigitOf.isBlank (h : IsDigitOf base c) : isBlank c = false :=
  h.of_all (P := fun c => Pageloom.isBlank c = false) (by decide)

theorem IsDigitOf.digitBelow? (h : IsDigitOf base c) :
    Integer.digitBelow? base c = Text.hexValue? c := by
  have hdigit := h.of_all (P := fun c => Integer.digitValue? c = Text.hexValue? c) (by decide)
  obtain ⟨n, hn, hc⟩ := h
  rw [Integer.digitBelow?, hdigit, hc, Option.filter_some, if_pos (by simpa using hn)]

/-! ### Several digits -/

namespace Text

theorem valueOf_concat (base : ℕ) (ds : List ℕ) (d : ℕ) :
    valueOf base (ds ++ [d]) = valueOf base ds * base + d := by
  simp [valueOf]

theorem valueOf_lt {ds : List ℕ} (h : ∀ d ∈ ds, d < base) : valueOf base ds < base ^ ds.length := by
  induction ds using List.reverseRecOn with
  | nil => simp [valueOf]
  | append_singleton ds d ih =>
    have hd : d < base := h d (by simp)
    have hds := ih fun e he => h e (by simp [he])
    calc valueOf base (ds ++ [d]) = valueOf base ds * base + d := valueOf_concat ..
      _ < (valueOf base ds + 1) * base := by
        rw [Nat.succ_mul]
        omega
      _ ≤ base ^ ds.length * base := Nat.mul_le_mul_right base hds
      _ = base ^ (ds ++ [d]).length := by rw [List.length_append, List.length_singleton, pow_succ]

/-- Nothing is trimmed from a text without characters of the class. -/
theorem trim_of_forall {p : Char → Bool} (h : ∀ c ∈ t, p c = false) : trim p t = t := by
  have hstart : trimStart p t = t := by
    cases t with
    | nil => rfl
    | cons c t => exact List.dropWhile_cons_of_neg (by simp [h c (by simp)])
  have hend : t.reverse.dropWhile p = t.reverse := by
    cases hrev : t.reverse with
    | nil => rfl
    | cons c rest =>
      have hc : c ∈ t := List.mem_reverse.mp (hrev ▸ List.mem_cons_self)
      exact List.dropWhile_cons_of_neg (by simp [h c hc])
  rw [trim, hstart, trimEnd, hend, List.reverse_reverse]

end Text

namespace Integer

/-- The digits at the start of a text are read up to a character that is none. -/
theorem digits_append {ds : Text} (hds : ∀ c ∈ ds, IsDigitOf base c)
    (hrest : ∀ c ∈ rest.head?, digitBelow? base c = none) :
    digits base (ds ++ rest) = (ds.filterMap Text.hexValue?, rest) := by
  induction ds with
  | nil =>
    cases rest with
    | nil => rfl
    | cons c rest => simp [digits, hrest c rfl]
  | cons c ds ih =>
    obtain ⟨hc, hds⟩ := List.forall_mem_cons.mp hds
    obtain ⟨n, hn, hvalue⟩ := hc
    rw [List.cons_append, digits, IsDigitOf.digitBelow? ⟨n, hn, hvalue⟩, hvalue]
    simp [ih hds, hvalue]

theorem length_filterMap_hexValue? {ds : Text} (hds : ∀ c ∈ ds, IsDigitOf base c) :
    (ds.filterMap Text.hexValue?).length = ds.length := by
  induction ds with
  | nil => rfl
  | cons c ds ih =>
    obtain ⟨⟨n, -, hvalue⟩, hds⟩ := List.forall_mem_cons.mp hds
    rw [List.filterMap_cons_some hvalue, List.length_cons, ih hds, List.length_cons]

theorem filterMap_hexValue?_ne_nil {ds : Text} (hds : ∀ c ∈ ds, IsDigitOf base c) (hne : ds ≠ []) :
    ds.filterMap Text.hexValue? ≠ [] := by
  rw [← List.length_pos_iff, length_filterMap_hexValue? hds]
  exact List.length_pos_iff.mpr hne

/-- No digit is a sign. -/
theorem sign_of_digit (h : IsDigitOf base c) : sign (c :: t) = (false, c :: t) := by
  have hsign := h.of_all (P := fun c => c ≠ '-' ∧ c ≠ '+') (by decide)
  rw [sign]
  · exact fun _ heq => hsign.1 (List.cons.inj heq).1
  · exact fun _ heq => hsign.2 (List.cons.inj heq).1

/-- No digit of a base is the letter that names the base. -/
theorem toLower_ne_of_digit {letter : Char} (h : IsDigitOf base c)
    (hletter : baseLetter? base = some letter) : c.toLower ≠ letter := by
  rw [baseLetter?] at hletter
  split at hletter
  · cases hletter
    exact h.of_all (P := fun c => c.toLower ≠ 'x') (by decide)
  split at hletter
  · cases hletter
    exact h.of_all (P := fun c => c.toLower ≠ 'o') (by decide)
  split at hletter
  · next hbase =>
    cases hletter
    subst hbase
    obtain ⟨n, hn, hc⟩ := id h
    exact h.of_all (P := fun c => ∀ n ∈ Text.hexValue? c, n < 2 → c.toLower ≠ 'b') (by decide)
      n hc hn
  · cases hletter

theorem dropBase_of_digits (ht : ∀ c ∈ t, IsDigitOf base c) : dropBase base t = t := by
  unfold dropBase
  split
  · next c cs letter hletter =>
    rw [if_neg (toLower_ne_of_digit (ht c (by simp)) hletter)]
  · rfl

/-- A text of digits of a base is read, unless it has too many decimal digits. -/
theorem read_of_digits (ht : ∀ c ∈ t, IsDigitOf base c) (hne : t ≠ []) :
    read base t =
      if base = 10 && maxDigits < t.length then .error (.tooLong t.length)
      else .ok (Text.valueOf base (t.filterMap Text.hexValue?)) := by
  have hstrip : Text.strip t = t := Text.trim_of_forall fun c hc => (ht c hc).isBlank
  obtain ⟨c, cs, rfl⟩ := List.exists_cons_of_ne_nil hne
  have hdigits : digits base ((c :: cs) ++ []) = ((c :: cs).filterMap Text.hexValue?, []) :=
    digits_append ht (by simp)
  rw [List.append_nil] at hdigits
  have hvalues := filterMap_hexValue?_ne_nil ht hne
  rw [read, hstrip, sign_of_digit (ht c (by simp))]
  dsimp only
  rw [dropBase_of_digits ht, hdigits]
  dsimp only
  have hread : ¬ ((c :: cs).filterMap Text.hexValue? = [] || ([] : Text) ≠ []) = true := by
    simpa using hvalues
  rw [length_filterMap_hexValue? ht, if_neg hread]
  rfl

end Integer

end Pageloom
