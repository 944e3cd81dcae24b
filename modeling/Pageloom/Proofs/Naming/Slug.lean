import Pageloom.Naming
import Pageloom.Proofs.Text.Digits
import Pageloom.Proofs.Text.Runs

/-!
# Slugs

A slug is made of the letters and digits of ASCII in a name, in lower case, as words with single
dashes between them. What stands before the words is not looked at if it has the form of a date, and
that form is a loose one: any three groups of digits, of any length and script, with a dash behind
each. So a name like `10-20-30-rule` loses three numbers that are no date.

A slug is a name itself, and it is its own slug as long as it does not begin like a date. It may do
so although the name did not, since what kept the name from it, a blank or a letter of another
script, is gone.

## Main definitions

* `Name.IsDatePrefix`, `Name.IsUndated`: what is dropped at the start of a name, and what is left.
* `Name.letters`: the letters and digits of ASCII in a name.
* `Name.slugWords`: the words of a slug.

## Main results

* `Name.isUndated_iff`: what is left of a name is determined.
* `Name.letters_sublist_slug_iff`: when a slug has all letters and digits of the name.
* `Name.slug_canonical`: the form of a slug, and which slugs are their own slugs.
-/

namespace Pageloom.Name

variable {name rest front part w : Text} {ws : List Text} {c : Char}

/-! ### Dates -/

/-- Three groups of digits with a dash behind each one. -/
def IsDatePrefix (front : Text) : Prop :=
  ∃ year month day : Text, isDigitGroup year ∧ isDigitGroup month ∧ isDigitGroup day ∧
    front = year ++ '-' :: (month ++ '-' :: (day ++ ['-']))

/-- What is left of a name behind a date, or the name if it does not begin with one. -/
def IsUndated (name rest : Text) : Prop :=
  (∃ front, IsDatePrefix front ∧ name = front ++ rest) ∨
    rest = name ∧ ∀ front, IsDatePrefix front → ¬ front <+: name

theorem isDigitGroup_iff : isDigitGroup part ↔ part ≠ [] ∧ ∀ c ∈ part, isDigit c := by
  simp [isDigitGroup]

theorem dash_notMem (h : isDigitGroup part) : '-' ∉ part := fun hmem =>
  absurd ((isDigitGroup_iff.mp h).2 '-' hmem) (by decide)

theorem dropDatePrefix_append (h : IsDatePrefix front) (rest : Text) :
    dropDatePrefix (front ++ rest) = rest := by
  obtain ⟨year, month, day, hyear, hmonth, hday, rfl⟩ := h
  obtain ⟨first, others, hrest⟩ := List.exists_cons_of_ne_nil (Text.split_ne_nil '-' rest)
  have hsplit : Text.split '-' (year ++ '-' :: (month ++ '-' :: (day ++ ['-'])) ++ rest) =
      year :: month :: day :: first :: others := by
    simp only [List.append_assoc, List.cons_append, List.nil_append]
    rw [Text.split_append_cons (dash_notMem hyear), Text.split_append_cons (dash_notMem hmonth),
      Text.split_append_cons (dash_notMem hday), hrest]
  rw [dropDatePrefix, hsplit]
  simp only [hyear, hmonth, hday, Bool.and_self, if_true]
  rw [← hrest]
  exact Text.join_split '-' rest

theorem dropDatePrefix_of_not (h : ∀ front, IsDatePrefix front → ¬ front <+: name) :
    dropDatePrefix name = name := by
  rw [dropDatePrefix]
  split
  · next year month day first others hsplit =>
    refine if_neg fun hgroups => ?_
    obtain ⟨⟨hyear, hmonth⟩, hday⟩ := by simpa only [Bool.and_eq_true] using hgroups
    refine h _ ⟨year, month, day, hyear, hmonth, hday, rfl⟩ ⟨Text.join ['-'] (first :: others), ?_⟩
    rw [← Text.join_split '-' name, hsplit]
    simp [Text.join]
  · rfl

/-- **What is left of a name** behind a date is determined by the name. -/
theorem isUndated_iff : IsUndated name rest ↔ rest = dropDatePrefix name := by
  constructor
  · rintro (⟨front, hfront, rfl⟩ | ⟨rfl, hno⟩)
    · exact (dropDatePrefix_append hfront rest).symm
    · exact (dropDatePrefix_of_not hno).symm
  · rintro rfl
    by_cases h : ∃ front, IsDatePrefix front ∧ front <+: name
    · obtain ⟨front, hfront, rest, rfl⟩ := h
      exact .inl ⟨front, hfront, by rw [dropDatePrefix_append hfront]⟩
    · have hno : ∀ front, IsDatePrefix front → ¬ front <+: name := fun front hfront hpre =>
        h ⟨front, hfront, hpre⟩
      exact .inr ⟨dropDatePrefix_of_not hno, hno⟩

theorem isUndated_dropDatePrefix (name : Text) : IsUndated name (dropDatePrefix name) :=
  isUndated_iff.mpr rfl

theorem dropDatePrefix_suffix (name : Text) : dropDatePrefix name <:+ name := by
  rcases isUndated_dropDatePrefix name with ⟨front, -, hname⟩ | ⟨hsame, -⟩
  · exact ⟨front, hname.symm⟩
  · rw [hsame]

/-! ### Letters -/

/-- The letters and digits of ASCII in a name, in lower case. -/
def letters (name : Text) : Text := Text.lowerAscii (name.filter Char.isAlphanum)

/-- A letter or digit in lower case is one, and has no other lower case. -/
theorem toLower_of_isAlphanum (h : c.isAlphanum) :
    c.toLower.isAlphanum ∧ c.toLower.toLower = c.toLower ∧ c.toLower.isDigit = c.isDigit ∧
      (c.isDigit → c.toLower = c) :=
  forall_ascii (P := fun c => c.isAlphanum → c.toLower.isAlphanum ∧
    c.toLower.toLower = c.toLower ∧ c.toLower.isDigit = c.isDigit ∧
      (c.isDigit → c.toLower = c)) (by decide) (toNat_lt_of_isAlphanum h) h

theorem letters_append (front rest : Text) :
    letters (front ++ rest) = letters front ++ letters rest := by
  rw [letters, List.filter_append, Text.lowerAscii, List.map_append]
  rfl

theorem filter_isDigit_letters (name : Text) :
    (letters name).filter Char.isDigit = name.filter Char.isDigit := by
  induction name with
  | nil => rfl
  | cons c name ih =>
    rw [letters, Text.lowerAscii] at ih ⊢
    cases hc : c.isAlphanum with
    | true =>
      obtain ⟨-, -, hdigit, hsame⟩ := toLower_of_isAlphanum hc
      rw [List.filter_cons_of_pos hc, List.map_cons, List.filter_cons, List.filter_cons, hdigit, ih]
      split
      · next h => rw [hsame h]
      · rfl
    | false =>
      have hdigit : c.isDigit = false := (Bool.or_eq_false_iff.mp hc).2
      rw [List.filter_cons_of_neg (by simp [hc]), List.filter_cons_of_neg (by simp [hdigit]), ih]

/-! ### The words of a slug -/

/-- The words of the slug that a name without a date has. -/
def slugWords (rest : Text) : List Text :=
  (Text.runs Char.isAlphanum rest).map Text.lowerAscii

theorem flatten_slugWords (rest : Text) : (slugWords rest).flatten = letters rest := by
  rw [letters, ← Text.flatten_runs, Text.lowerAscii, List.map_flatten]
  rfl

/-- A word of letters and digits of ASCII in lower case. -/
def IsSlugWord (w : Text) : Prop := w ≠ [] ∧ ∀ c ∈ w, c.isAlphanum ∧ c.toLower = c

instance (w : Text) : Decidable (IsSlugWord w) :=
  have := List.decidableBAll (fun c : Char => c.isAlphanum ∧ c.toLower = c) w
  instDecidableAnd

theorem isSlugWord_of_mem (h : w ∈ slugWords rest) : IsSlugWord w := by
  obtain ⟨run, hrun, rfl⟩ := List.mem_map.mp h
  refine ⟨fun hnil => Text.ne_nil_of_mem_runs hrun (List.map_eq_nil_iff.mp hnil), fun c hc => ?_⟩
  obtain ⟨d, hd, rfl⟩ := List.mem_map.mp hc
  have hlower := toLower_of_isAlphanum (Text.of_mem_of_mem_runs hrun hd)
  exact ⟨hlower.1, hlower.2.1⟩

theorem IsSlugWord.dash_notMem (h : IsSlugWord w) : '-' ∉ w := fun hmem =>
  absurd (h.2 '-' hmem).1 (by decide)

theorem slugWords_join (h : ∀ w ∈ ws, IsSlugWord w) : slugWords (Text.join "-" ws) = ws := by
  have hruns : Text.runs Char.isAlphanum (Text.join "-" ws) = ws :=
    Text.runs_join (fun w hw => ⟨(h w hw).1, fun c hc => ((h w hw).2 c hc).1⟩) (by decide)
  have hlower : ws.map Text.lowerAscii = ws.map id := List.map_congr_left fun w hw =>
    (List.map_congr_left fun c hc => ((h w hw).2 c hc).2).trans (List.map_id' w)
  rw [slugWords, hruns, hlower, List.map_id]

/-- **The slug of a name** consists of the words of what is left behind a date. -/
theorem slug_eq (name : Text) :
    slug name = if slugWords (dropDatePrefix name) = [] then "index".toList
      else Text.join "-" (slugWords (dropDatePrefix name)) := by
  have hcleaned : Text.lowerAscii (Text.trim (· == '-')
      (Text.squeeze (fun c => !c.isAlphanum) '-' (dropDatePrefix name))) =
      Text.join "-" (slugWords (dropDatePrefix name)) := by
    rw [Text.trim_mark_squeeze (by decide), Text.lowerAscii, Text.join_map]
    simp only [Bool.not_not]
    rfl
  simp only [slug, hcleaned]
  exact if_congr (Text.join_eq_nil_iff (fun w hw => (isSlugWord_of_mem hw).1) _) rfl rfl

/-- A slug consists of words with single dashes between them, and has one at least. -/
theorem exists_slug_eq_join (name : Text) :
    ∃ ws, ws ≠ [] ∧ (∀ w ∈ ws, IsSlugWord w) ∧ slug name = Text.join "-" ws := by
  rw [slug_eq]
  split
  · refine ⟨["index".toList], List.cons_ne_nil _ _, fun w hw => ?_, rfl⟩
    rw [List.mem_singleton.mp hw]
    decide
  · next hne => exact ⟨_, hne, fun w hw => isSlugWord_of_mem hw, rfl⟩

/-! ### What a slug keeps -/

/-- The slug has the letters and digits of what is left behind a date. -/
theorem letters_sublist_slug (name : Text) :
    (letters (dropDatePrefix name)).Sublist (slug name) := by
  rw [slug_eq, ← flatten_slugWords]
  split
  · next hnil =>
    rw [hnil]
    exact List.nil_sublist _
  · exact Text.flatten_sublist_join "-" _

/-- The digits of a slug are those of what is left behind a date. -/
theorem filter_isDigit_slug (name : Text) :
    (slug name).filter Char.isDigit = (dropDatePrefix name).filter Char.isDigit := by
  rw [← filter_isDigit_letters (dropDatePrefix name), ← flatten_slugWords, slug_eq]
  split
  · next hnil =>
    rw [hnil]
    decide
  · exact Text.filter_join (by decide) _

theorem IsDatePrefix.of_mem (h : IsDatePrefix front) (hc : c ∈ front) : c = '-' ∨ isDigit c := by
  obtain ⟨year, month, day, hyear, hmonth, hday, rfl⟩ := h
  simp only [List.mem_append, List.mem_cons, List.not_mem_nil, or_false] at hc
  rcases hc with hc | rfl | hc | rfl | hc | rfl
  · exact .inr ((isDigitGroup_iff.mp hyear).2 c hc)
  · exact .inl rfl
  · exact .inr ((isDigitGroup_iff.mp hmonth).2 c hc)
  · exact .inl rfl
  · exact .inr ((isDigitGroup_iff.mp hday).2 c hc)
  · exact .inl rfl

theorem IsDatePrefix.exists_isDigit (h : IsDatePrefix front) : ∃ c ∈ front, isDigit c := by
  obtain ⟨year, month, day, hyear, -, -, rfl⟩ := h
  obtain ⟨hne, hall⟩ := isDigitGroup_iff.mp hyear
  obtain ⟨c, year, rfl⟩ := List.exists_cons_of_ne_nil hne
  exact ⟨c, List.mem_cons_self, hall c List.mem_cons_self⟩

/-- A date in digits of other scripts has nothing that a slug could keep. -/
theorem IsDatePrefix.letters_eq_nil (h : IsDatePrefix front)
    (hascii : ∀ c ∈ front, c.isDigit = false) : letters front = [] := by
  rw [letters, Text.lowerAscii, List.map_eq_nil_iff, List.filter_eq_nil_iff]
  intro c hc halnum
  rcases h.of_mem hc with rfl | hdigit
  · exact absurd halnum (by decide)
  · rw [isDigit, if_pos (toNat_lt_of_isAlphanum halnum), hascii c hc] at hdigit
    cases hdigit

/-- **What a slug keeps.** It has all letters and digits of the name, in order, unless digits of
ASCII are dropped with a date. -/
theorem letters_sublist_slug_iff (name : Text) :
    (letters name).Sublist (slug name) ↔
      ∀ front, IsDatePrefix front → front <+: name → ∀ c ∈ front, c.isDigit = false := by
  constructor
  · rintro h front hfront ⟨rest, rfl⟩ c hc
    -- digits are counted: the slug has only those of the rest
    have hdigits := h.filter Char.isDigit
    rw [filter_isDigit_letters, filter_isDigit_slug, dropDatePrefix_append hfront,
      List.filter_append] at hdigits
    simpa using List.filter_eq_nil_iff.mp (Text.eq_nil_of_append_sublist hdigits) c hc
  · intro h
    refine List.Sublist.trans ?_ (letters_sublist_slug name)
    rcases isUndated_dropDatePrefix name with ⟨front, hfront, hname⟩ | ⟨hsame, -⟩
    · have hnil := hfront.letters_eq_nil (h front hfront ⟨_, hname.symm⟩)
      rw [hname, dropDatePrefix_append hfront, letters_append, hnil, List.nil_append]
    · rw [hsame]

/-! ### Slugs of slugs -/

/-- A slug that does not begin like a date is its own slug. -/
theorem slug_join (hne : ws ≠ []) (h : ∀ w ∈ ws, IsSlugWord w)
    (hno : ∀ front, IsDatePrefix front → ¬ front <+: Text.join "-" ws) :
    slug (Text.join "-" ws) = Text.join "-" ws := by
  rw [slug_eq, dropDatePrefix_of_not hno, slugWords_join h, if_neg hne]

/-- A slug that begins like a date has digits in its date, which its own slug has not. -/
theorem slug_join_ne (h : ∀ w ∈ ws, IsSlugWord w) (hfront : IsDatePrefix front)
    (hpre : front <+: Text.join "-" ws) : slug (Text.join "-" ws) ≠ Text.join "-" ws := by
  intro heq
  have hletters : (letters (Text.join "-" ws)).Sublist (slug (Text.join "-" ws)) := by
    rw [heq, ← flatten_slugWords, slugWords_join h]
    exact Text.flatten_sublist_join "-" ws
  obtain ⟨c, hc, hdigit⟩ := hfront.exists_isDigit
  have hascii : c.isDigit = false :=
    (letters_sublist_slug_iff _).mp hletters front hfront hpre c hc
  rcases Text.mem_join (hpre.subset hc) with hdash | ⟨w, hw, hmem⟩
  · rw [List.mem_singleton.mp hdash] at hdigit
    exact absurd hdigit (by decide)
  · rw [isDigit, if_pos (toNat_lt_of_isAlphanum ((h w hw).2 c hmem).1), hascii] at hdigit
    cases hdigit

/-- **The form of a slug.** It is made of the words of what is left of the name behind a date, or of
the word `index` if there are none, with single dashes between them and none at the ends. A slug
that does not begin like a date is its own slug, and no other one is. -/
theorem slug_canonical (name : Text) :
    ∃ rest, (∀ r, IsUndated name r ↔ r = rest) ∧
      slug name = (if slugWords rest = [] then "index".toList else Text.join "-" (slugWords rest)) ∧
      slug name ≠ [] ∧ Text.IsSpaced '-' (slug name) ∧
      (slug (slug name) = slug name ↔
        ∀ front, IsDatePrefix front → ¬ front <+: slug name) := by
  refine ⟨dropDatePrefix name, fun _ => isUndated_iff, slug_eq name, ?_⟩
  obtain ⟨ws, hne, hwords, hslug⟩ := exists_slug_eq_join name
  rw [hslug]
  refine ⟨?_, ?_, ⟨fun heq front hfront hpre => ?_, slug_join hne hwords⟩⟩
  · exact (Text.join_eq_nil_iff (fun w hw => (hwords w hw).1) _).not.mpr hne
  · exact Text.isSpaced_join fun w hw => ⟨(hwords w hw).1, (hwords w hw).dash_notMem⟩
  · exact slug_join_ne hwords hfront hpre heq

/-- A slug that begins like a date, of a name that does not. -/
example : slug "№1-2-3-go" = "1-2-3-go" ∧ slug "1-2-3-go" = "go" := by decide +kernel

end Pageloom.Name
