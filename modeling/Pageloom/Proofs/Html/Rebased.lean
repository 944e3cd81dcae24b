import Pageloom.Proofs.Html.Document

/-!
# Absolute URLs stay as they are

A URL with the site's URL in front is not root-relative any more, so there is nothing left to do
for a second time. What has to be shown is that the second reading finds the same attributes. The
base may hold anything but quotes, also text that looks like an attribute, and the text around may
hold attributes without an end.

Reading looks at a text in a coarse way: an attribute is read or not depending on what stands before
the first quote, and on which quotes follow. The base goes in behind a quote and has none of its
own, so it changes neither.

## Main definitions

* `Html.beforeQuotes`: what stands before the first quote of a text.

## Main results

* `Html.attribute?_eq_none_of_quotes`: what the reading of an attribute depends on.
* `Html.markup_absolutize`: what is read in a text with absolute URLs.
* `Html.absolutize_absolutize`: a second time changes nothing.
-/

namespace Pageloom.Html

variable {t u w base html : Text} {c q : Char} {previous : Option Char} {a : UrlAttribute}
  {ms : List Markup}

/-! ### Quotes -/

/-- What stands before the first quote. -/
def beforeQuotes (t : Text) : Text := t.takeWhile fun c => !isQuote c

theorem beforeQuotes_append_quote (hw : ∀ c ∈ w, isQuote c = false) (hq : isQuote q) (t : Text) :
    beforeQuotes (w ++ q :: t) = w := by
  rw [beforeQuotes, List.takeWhile_append_of_pos fun c hc => by simp [hw c hc],
    List.takeWhile_cons_of_neg (by simp [hq]), List.append_nil]

theorem filter_isQuote_eq_nil (hw : ∀ c ∈ w, isQuote c = false) : w.filter isQuote = [] :=
  List.filter_eq_nil_iff.mpr fun c hc => by simp [hw c hc]

/-- A text is what stands before its first quote, that quote, and the rest. -/
theorem exists_append_quote (h : t.filter isQuote = q :: w) :
    ∃ v, t = beforeQuotes t ++ q :: v ∧ v.filter isQuote = w := by
  have hsplit : beforeQuotes t ++ t.dropWhile (fun c => !isQuote c) = t :=
    List.takeWhile_append_dropWhile
  have hbefore : ∀ c ∈ beforeQuotes t, isQuote c = false := fun c hc => by
    simpa using List.mem_takeWhile_imp hc
  rw [← hsplit, List.filter_append, filter_isQuote_eq_nil hbefore, List.nil_append] at h
  rcases hrest : t.dropWhile (fun c => !isQuote c) with _ | ⟨c, v⟩
  · simp [hrest] at h
  · have hc : isQuote c := by
      have hhead := List.head?_dropWhile_not (fun c => !isQuote c) t
      simpa [hrest] using hhead
    rw [hrest, List.filter_cons_of_pos hc] at h
    obtain ⟨rfl, hv⟩ := List.cons.inj h
    exact ⟨v, by rw [← hrest, hsplit], hv⟩

/-- A read attribute has no quote in its name. -/
theorem IsRead.name_unquoted (h : IsRead a) : ∀ c ∈ a.name ++ ['='], isQuote c = false := by
  intro c hc
  by_contra hquote
  rcases List.mem_append.mp hc with hc | hc
  · refine h.notMem (c := c) ?_ hc
    rcases isQuote_iff.mp (by simpa using hquote) with rfl | rfl <;> decide
  · rw [List.mem_singleton.mp hc] at hquote
    exact hquote rfl

/-- **What the reading of an attribute depends on**: what stands before the first quote, and the
quotes. -/
theorem attribute?_eq_none_of_quotes (hbefore : beforeQuotes u = beforeQuotes t)
    (hquotes : u.filter isQuote = t.filter isQuote) (h : attribute? previous t = none) :
    attribute? previous u = none := by
  rw [attribute?_eq_none_iff] at h ⊢
  rintro a hborder ha ⟨rest, rfl⟩
  rw [a.print_append_quote] at hbefore hquotes
  rw [beforeQuotes_append_quote ha.name_unquoted ha.2.1] at hbefore
  rw [List.filter_append, filter_isQuote_eq_nil ha.name_unquoted, List.nil_append,
    List.filter_cons_of_pos ha.2.1] at hquotes
  obtain ⟨v, ht, hv⟩ := exists_append_quote hquotes.symm
  -- the value ends at the next quote of its kind, wherever that stands in the other text
  have hclosed : a.quote ∈ v := by
    have hmem : a.quote ∈ v.filter isQuote := by
      rw [hv]
      exact List.mem_filter.mpr ⟨by simp, ha.2.1⟩
    exact (List.mem_filter.mp hmem).1
  obtain ⟨url, behind, rfl, hurl⟩ := List.eq_append_cons_of_mem hclosed
  refine h ⟨a.name, a.quote, url⟩ hborder ⟨ha.1, ha.2.1, hurl⟩ ⟨behind, ?_⟩
  rw [UrlAttribute.print_append_quote, ht, ← hbefore]

/-! ### With the base in front -/

theorem isRootRelative_iff : isRootRelative t ↔ ['/'] <+: t ∧ ¬ ['/', '/'] <+: t := by
  rw [isRootRelative, Bool.and_eq_true, Bool.not_eq_true', Bool.eq_false_iff]
  exact and_congr Text.startsWith_iff (not_congr Text.startsWith_iff)

/-- Behind a base that is not root-relative, no URL is. -/
theorem isRootRelative_append (hne : base ≠ []) (h : isRootRelative base = false) (url : Text) :
    isRootRelative (base ++ url) = false := by
  rw [Bool.eq_false_iff, Ne, isRootRelative_iff] at h ⊢
  rintro ⟨hone, htwo⟩
  refine h ⟨?_, fun htwo' => htwo (htwo'.trans (List.prefix_append base url))⟩
  obtain ⟨c, rest, rfl⟩ := List.exists_cons_of_ne_nil hne
  rw [List.cons_append, List.cons_prefix_cons] at hone
  exact List.cons_prefix_cons.mpr ⟨hone.1, List.nil_prefix⟩

@[simp] theorem UrlAttribute.rebase_name (base : Text) (a : UrlAttribute) :
    (a.rebase base).name = a.name := by
  rw [UrlAttribute.rebase]
  split <;> rfl

@[simp] theorem UrlAttribute.rebase_quote (base : Text) (a : UrlAttribute) :
    (a.rebase base).quote = a.quote := by
  rw [UrlAttribute.rebase]
  split <;> rfl

theorem UrlAttribute.rebase_url (base : Text) (a : UrlAttribute) :
    (a.rebase base).url = if isRootRelative a.url then base ++ a.url else a.url := by
  rw [UrlAttribute.rebase]
  split <;> rfl

/-- With the base in front, an attribute stays as it is. -/
theorem UrlAttribute.rebase_rebase (hroot : isRootRelative base = false) (a : UrlAttribute) :
    (a.rebase base).rebase base = a.rebase base := by
  by_cases hbase : base = []
  · rw [hbase, rebase, List.nil_append, ite_self]
  · have hurl : isRootRelative (a.rebase base).url = false := by
      rw [rebase_url]
      split
      · exact isRootRelative_append hbase hroot a.url
      · next hurl => simpa using hurl
    rw [rebase, hurl]
    rfl

/-- An attribute is read with the base in front as it is without. -/
theorem IsRead.rebase (hbase : ∀ c ∈ base, isQuote c = false) (h : IsRead a) :
    IsRead (a.rebase base) := by
  refine ⟨?_, ?_, ?_⟩
  · rw [UrlAttribute.rebase_name]
    exact h.1
  · rw [UrlAttribute.rebase_quote]
    exact h.2.1
  · rw [UrlAttribute.rebase_quote, UrlAttribute.rebase_url]
    have hnot : a.quote ∉ base := fun hmem => absurd h.2.1 (by simp [hbase _ hmem])
    split
    · exact fun hmem => (List.mem_append.mp hmem).elim hnot h.2.2
    · exact h.2.2

/-- The attributes in what is read are read where they are spelled. -/
theorem isRead_of_mem_markupFrom {skip : ℕ} (h : .attribute a ∈ markupFrom previous skip t) :
    IsRead a := by
  fun_induction markupFrom previous skip t with
  | case1 => cases h
  | case2 previous n c cs ih => exact ih h
  | case3 previous c cs a' ha ih =>
    rcases List.mem_cons.mp h with heq | hmem
    · exact Markup.attribute.inj heq ▸ (attribute?_eq_some_iff.mp ha).2.1
    · exact ih hmem
  | case4 previous c cs ha ih => exact ih (List.mem_of_ne_of_mem Markup.noConfusion h)

theorem UrlAttribute.rebase_print_append (base : Text) (a : UrlAttribute) (t : Text) :
    (a.rebase base).print ++ t =
      (a.name ++ ['=']) ++ a.quote :: ((a.rebase base).url ++ a.quote :: t) := by
  rw [UrlAttribute.print_append_quote, UrlAttribute.rebase_name, UrlAttribute.rebase_quote]

/-- The base changes nothing before the first quote. -/
theorem beforeQuotes_rebase (base : Text) (h : ∀ a, .attribute a ∈ ms → IsRead a) :
    beforeQuotes (printMarkup (ms.map (Markup.rebase base))) = beforeQuotes (printMarkup ms) := by
  induction ms with
  | nil => rfl
  | cons first ms ih =>
    rcases first with c | a
    · have ih := ih fun a ha => h a (List.mem_cons_of_mem _ ha)
      rw [List.map_cons, Markup.rebase, printMarkup_char, printMarkup_char]
      simp only [beforeQuotes, List.takeWhile_cons] at ih ⊢
      rw [ih]
    · have ha := h a List.mem_cons_self
      rw [List.map_cons, Markup.rebase, printMarkup_attribute, printMarkup_attribute,
        a.rebase_print_append, a.print_append_quote,
        beforeQuotes_append_quote ha.name_unquoted ha.2.1,
        beforeQuotes_append_quote ha.name_unquoted ha.2.1]

/-- A base without quotes changes no quotes. -/
theorem filter_isQuote_rebase (hbase : ∀ c ∈ base, isQuote c = false) (ms : List Markup) :
    (printMarkup (ms.map (Markup.rebase base))).filter isQuote =
      (printMarkup ms).filter isQuote := by
  induction ms with
  | nil => rfl
  | cons first ms ih =>
    rcases first with c | a
    · rw [List.map_cons, Markup.rebase, printMarkup_char, printMarkup_char, List.filter_cons, ih,
        ← List.filter_cons]
    · have hurl : (a.rebase base).url.filter isQuote = a.url.filter isQuote := by
        rw [UrlAttribute.rebase_url]
        split
        · rw [List.filter_append, filter_isQuote_eq_nil hbase, List.nil_append]
        · rfl
      rw [List.map_cons, Markup.rebase, printMarkup_attribute, printMarkup_attribute,
        a.rebase_print_append, a.print_append_quote]
      simp only [List.filter_append, List.filter_cons, hurl, ih]

/-! ### Reading again -/

/-- Where no attribute is read, none is read with the base in the attributes that follow. -/
theorem attribute?_rebase_eq_none (hbase : ∀ c ∈ base, isQuote c = false)
    (hms : ∀ a, .attribute a ∈ ms → IsRead a) (h : attribute? previous (printMarkup ms) = none) :
    attribute? previous (printMarkup (ms.map (Markup.rebase base))) = none :=
  attribute?_eq_none_of_quotes (beforeQuotes_rebase base hms) (filter_isQuote_rebase hbase ms) h

/-- **What is read in the result**: what was read, with the base in front of its URLs. -/
theorem markupFrom_rebase (hbase : ∀ c ∈ base, isQuote c = false) (previous : Option Char)
    (t : Text) :
    markupFrom previous 0 (printMarkup ((markupFrom previous 0 t).map (Markup.rebase base))) =
      (markupFrom previous 0 t).map (Markup.rebase base) := by
  -- an attribute is skipped in one piece, so the induction is on the length
  induction hn : t.length using Nat.strong_induction_on generalizing previous t with
  | _ n ih =>
    rcases t with _ | ⟨c, t⟩
    · simp [markupFrom]
    rcases hread : attribute? previous (c :: t) with _ | a
    · have hms : ∀ a, .attribute a ∈ .char c :: markupFrom (some c) 0 t → IsRead a := fun a ha =>
        isRead_of_mem_markupFrom (List.mem_of_ne_of_mem Markup.noConfusion ha)
      have hprint : printMarkup (.char c :: markupFrom (some c) 0 t) = c :: t :=
        congrArg (c :: ·) (printMarkup_markupFrom _ 0 t)
      have hnone := attribute?_rebase_eq_none hbase hms (hprint ▸ hread)
      have hrest := ih t.length (by rw [← hn, List.length_cons]; omega) (some c) t rfl
      rw [List.map_cons, Markup.rebase, printMarkup_char] at hnone
      rw [markupFrom_cons_of_none hread, List.map_cons, Markup.rebase, printMarkup_char,
        markupFrom_cons_of_none hnone, hrest]
    · obtain ⟨hborder, ha, rest, hrest⟩ := attribute?_eq_some_iff.mp hread
      have hlength : rest.length < n := by
        have hpos := List.length_pos_of_ne_nil a.print_ne_nil
        rw [← hn, ← hrest, List.length_append]
        omega
      have hagain := ih rest.length hlength (some a.quote) rest rfl
      have hread' : attribute? previous ((a.rebase base).print ++
          printMarkup ((markupFrom (some a.quote) 0 rest).map (Markup.rebase base))) =
            some (a.rebase base) :=
        attribute?_eq_some_iff.mpr ⟨hborder, ha.rebase hbase, List.prefix_append _ _⟩
      rw [← hrest] at hread ⊢
      rw [markupFrom_of_attribute hread, List.map_cons, Markup.rebase, printMarkup_attribute,
        markupFrom_of_attribute hread', UrlAttribute.rebase_quote, hagain]

/-- What is read in a text with absolute URLs. -/
theorem markup_absolutize (hbase : ∀ c ∈ trimBase base, isQuote c = false) (html : Text) :
    markup (absolutize html base) = (markup html).map (Markup.rebase (trimBase base)) := by
  rw [absolutize_eq_rebasedText]
  exact markupFrom_rebase hbase none html

/-- **Absolute URLs stay as they are.** With a base that holds no quote and is not root-relative
itself, a second time changes nothing. -/
theorem absolutize_absolutize (hbase : ∀ c ∈ trimBase base, isQuote c = false)
    (hroot : isRootRelative (trimBase base) = false) (html : Text) :
    absolutize (absolutize html base) base = absolutize html base := by
  have hrebase : Markup.rebase (trimBase base) ∘ Markup.rebase (trimBase base) =
      Markup.rebase (trimBase base) := by
    funext m
    rcases m with c | a
    · rfl
    · exact congrArg Markup.attribute (a.rebase_rebase hroot)
  rw [absolutize_eq_rebasedText (absolutize html base), markup_absolutize hbase,
    absolutize_eq_rebasedText html, rebasedText, rebasedText, List.map_map, hrebase]

/-- A base that looks like an attribute, before an attribute in the value of another one and one
without an end. -/
theorem absolutize_absolutize_of_lookalikes :
    let base : Text := "//h src=/"
    let html : Text := "<a href='/x src=\"/y\"' href=\"/z\"> action='/"
    let result : Text := "<a href='//h src=/x src=\"/y\"' href=\"//h src=/z\"> action='/"
    ((∀ c ∈ trimBase base, isQuote c = false) ∧ isRootRelative (trimBase base) = false) ∧
      absolutize html base = result ∧
      absolutize (absolutize html base) base = absolutize html base := by
  intro base html result
  have hall : (trimBase base).all fun c => !isQuote c := by decide
  have hbase : ∀ c ∈ trimBase base, isQuote c = false := by simpa using hall
  have hroot : isRootRelative (trimBase base) = false := by decide
  exact ⟨⟨hbase, hroot⟩, by decide, absolutize_absolutize hbase hroot html⟩

end Pageloom.Html
