import Mathlib.Data.List.Forall2
import Pageloom.Proofs.Html.Rebase

/-!
# Absolute URLs in documents

A reader of attributes goes through the characters of a text and knows nothing of tags. In a
document, which is tags and text between them, it finds the attributes of the tags all the same. The
text between tags has no quotes, so an attribute that is read in it would have to run into the next
tag, and the mark of the tag stops it. No value holds a quote, and none ends in an equals sign, so
no attribute is read from within a value on. And within a name no other name begins, since it would
begin in the middle of a word.

So a base URL is put into a document value by value, where an attribute has the name of a URL and
its value is root-relative.

## Main definitions

* `Html.Attribute`, `Html.Tag`, `Html.Chunk`: the parts of a document.
* `Html.printWith`: a document as text, with values of one's choice; `Html.Attribute.rebased`: the
  value with the base in front.
* `Html.IsRead`: attributes that are read where they are spelled.

## Main results

* `Html.attribute?_eq_some_iff`: which attribute is read.
* `Html.attribute?_eq_none_of_mark`, `Html.attribute?_eq_none_of_value`: where none is read.
* `Html.markup_printWith`: what is read in a document.
* `Html.absolutize_printWith`: what absolute URLs make of a document.
-/

namespace Pageloom.Html

variable {t u v w name rest : Text} {base : Text} {c d : Char} {previous : Option Char}
  {a b : UrlAttribute}

/-! ### Documents -/

/-- Whether a character is a quote. -/
def isQuote (c : Char) : Bool := c = '"' || c = '\''

/-- The name of a tag or an attribute: letters, at least one. -/
structure Name where
  text : Text
  ne_nil : text ≠ []
  letters : ∀ c ∈ text, c.isAlpha

/-- A quoted attribute. Its value holds no quote of either kind, and no equals sign at its end. -/
structure Attribute where
  name : Name
  quote : Char
  value : Text
  isQuote : Html.isQuote quote
  unquoted : ∀ c ∈ value, Html.isQuote c = false
  last : value.getLast? ≠ some '='

/-- A tag: its name and its attributes. -/
structure Tag where
  name : Name
  attributes : List Attribute

/-- Text without quotes, or a tag. -/
inductive Chunk where
  | text (t : Text) (unquoted : ∀ c ∈ t, isQuote c = false)
  | tag (t : Tag)

/-- The spelling of an attribute with the given value. -/
def Attribute.spell (a : Attribute) (value : Text) : Text :=
  a.name.text ++ '=' :: a.quote :: (value ++ [a.quote])

/-- A tag as text: each attribute has a space before it, and the value given for it. -/
def Tag.printWith (value : Attribute → Text) (tag : Tag) : Text :=
  '<' :: (tag.name.text ++ (tag.attributes.flatMap (fun a => ' ' :: a.spell (value a)) ++ ['>']))

/-- A chunk as text. -/
def Chunk.printWith (value : Attribute → Text) : Chunk → Text
  | .text t _ => t
  | .tag t => t.printWith value

/-- A document as text, with the given value for each attribute. -/
def printWith (value : Attribute → Text) (doc : List Chunk) : Text :=
  doc.flatMap (Chunk.printWith value)

/-- Whether the attribute has the name of a URL, in any case. -/
def Attribute.isUrl (a : Attribute) : Bool := a.name.text.map Char.toLower ∈ urlNames

/-- The value with the base in front, if the attribute has the name of a URL and the value is
root-relative. -/
def Attribute.rebased (base : Text) (a : Attribute) : Text :=
  if a.isUrl && isRootRelative a.value then trimBase base ++ a.value else a.value

/-! ### Which attribute is read -/

/-- The attribute is read where it is spelled: it has the name of a URL, and its value ends at the
first quote of its kind. -/
def IsRead (a : UrlAttribute) : Prop :=
  (∃ word ∈ urlNames, Spells word a.name) ∧ isQuote a.quote ∧ a.quote ∉ a.url

/-- The marks of tags. -/
def tagMarks : List Char := ['<', '>', ' ']

/-- The characters that stand in no name: the marks of tags, and those between a name and its
value. -/
def reserved : List Char := tagMarks ++ ['=', '"', '\'']

theorem UrlAttribute.print_append (a : UrlAttribute) (t : Text) :
    a.print ++ t = a.name ++ '=' :: a.quote :: (a.url ++ a.quote :: t) := by
  simp [UrlAttribute.print]

/-- The first part goes up to the quote. -/
theorem UrlAttribute.print_append_quote (a : UrlAttribute) (t : Text) :
    a.print ++ t = (a.name ++ ['=']) ++ a.quote :: (a.url ++ a.quote :: t) := by
  simp [UrlAttribute.print]

theorem eq_map_letterOf {word : Text} (hword : word ∈ urlNames) (h : Spells word name) :
    word = name.map letterOf := by
  have hletters : ∀ word ∈ urlNames, word.all fun w => w.toNat < 128 ∧ w.toLower = w := by decide
  have hletter := List.all_iff_forall_prop.mp (hletters word hword)
  exact h.eq_map (fun w hw => (hletter w hw).1) fun w hw => (hletter w hw).2

theorem IsRead.notMem (h : IsRead a) (hc : c ∈ reserved) : c ∉ a.name := by
  obtain ⟨word, hword, hspells⟩ := h.1
  have hapart : ∀ word ∈ urlNames, reserved.all fun c => letterOf c ∉ word := by decide
  intro hmem
  refine List.all_iff_forall_prop.mp (hapart word hword) c hc ?_
  rw [eq_map_letterOf hword hspells]
  exact List.mem_map_of_mem hmem

theorem IsRead.name_free (h : IsRead a) : ∀ e ∈ a.name, (e == '=') = false :=
  fun _ he => beq_false_of_ne fun heq => h.notMem (c := '=') (by decide) (heq ▸ he)

theorem IsRead.url_free (h : IsRead a) : ∀ e ∈ a.url, (e == a.quote) = false :=
  fun _ he => beq_false_of_ne fun heq => h.2.2 (heq ▸ he)

theorem IsRead.name_ne_nil (h : IsRead a) : a.name ≠ [] := by
  obtain ⟨word, hword, hspells⟩ := h.1
  have hne : ∀ word ∈ urlNames, word ≠ [] := by decide
  intro hnil
  rw [hnil] at hspells
  cases hspells
  exact hne [] hword rfl

/-- A text is cut at its first character of a class in one way. -/
theorem eq_of_append_cons {p : Char → Bool} (h : u ++ c :: t = v ++ d :: rest) (hc : p c) (hd : p d)
    (hu : ∀ e ∈ u, p e = false) (hv : ∀ e ∈ v, p e = false) : u = v ∧ c = d ∧ t = rest := by
  have hcut := Text.cutWhere?_eq_some_iff.mpr ⟨h, hd, hv⟩
  rw [Text.cutWhere?_eq_some_iff.mpr ⟨rfl, hc, hu⟩] at hcut
  simpa using hcut

/-- Which attribute is read can be seen from the text: its name ends at the first equals sign, and
its value at the first quote of its kind. -/
theorem IsRead.eq (ha : IsRead a) (hb : IsRead b) (hat : a.print <+: t) (hbt : b.print <+: t) :
    a = b := by
  obtain ⟨more, rfl⟩ := hat
  obtain ⟨rest, hrest⟩ := hbt
  rw [UrlAttribute.print_append, UrlAttribute.print_append] at hrest
  obtain ⟨hnames, -, hvalues⟩ :=
    eq_of_append_cons (p := (· == '=')) hrest rfl rfl hb.name_free ha.name_free
  obtain ⟨hquotes, hvalues⟩ := List.cons.inj hvalues
  obtain ⟨hurls, -⟩ := eq_of_append_cons (p := (· == b.quote)) hvalues (beq_self_eq_true _)
    (by simp [hquotes]) hb.url_free (hquotes ▸ ha.url_free)
  cases a
  cases b
  cases hnames
  cases hquotes
  cases hurls
  rfl

theorem isRead_of_attribute? (h : attribute? previous t = some a) :
    previous.any isWordChar = false ∧ IsRead a ∧ a.print <+: t := by
  have hprint := attribute?_eq_some h
  unfold attribute? at h
  split at h
  · cases h
  · next hborder =>
    obtain ⟨word, hword, hscan⟩ := List.exists_of_findSome?_eq_some h
    split at hscan
    · next hdrop =>
      split at hscan
      · obtain ⟨⟨url, c, behind⟩, hcut, rfl⟩ := Option.map_eq_some_iff.mp hscan
        obtain ⟨-, -, hurl⟩ := Text.cutWhere?_eq_some_iff.mp hcut
        refine ⟨Bool.eq_false_iff.mpr hborder,
          ⟨⟨word, hword, (dropWord?_eq_some_iff.mp hdrop).2⟩, ?_, fun hmem => ?_⟩, hprint.1⟩
        · simpa [isQuote] using hprint.2
        · simpa using hurl _ hmem
      · cases hscan
    · cases hscan

theorem isSome_attribute? (hborder : previous.any isWordChar = false) (ha : IsRead a)
    (hat : a.print <+: t) : (attribute? previous t).isSome := by
  have hurl := ha.url_free
  obtain ⟨⟨word, hword, hspells⟩, hquote, -⟩ := ha
  obtain ⟨rest, rfl⟩ := hat
  have hdrop : Text.dropWord? word (a.print ++ rest) =
      some (a.name, '=' :: a.quote :: (a.url ++ a.quote :: rest)) :=
    dropWord?_eq_some_iff.mpr ⟨a.print_append rest, hspells⟩
  have hcut : Text.cutWhere? (· == a.quote) (a.url ++ a.quote :: rest) =
      some (a.url, a.quote, rest) :=
    Text.cutWhere?_eq_some_iff.mpr ⟨rfl, beq_self_eq_true _, hurl⟩
  have hquote : (a.quote = '"' || a.quote = '\'') = true := hquote
  rw [attribute?, if_neg (by simp [hborder]), List.findSome?_isSome_iff]
  refine ⟨word, hword, ?_⟩
  simp only [hdrop, hquote, if_true, hcut, Option.map_some, Option.isSome_some]

/-- **Which attribute is read**: the one that is spelled at the beginning of the text, unless a word
goes on there. -/
theorem attribute?_eq_some_iff :
    attribute? previous t = some a ↔
      previous.any isWordChar = false ∧ IsRead a ∧ a.print <+: t := by
  refine ⟨isRead_of_attribute?, fun ⟨hborder, ha, hat⟩ => ?_⟩
  obtain ⟨b, hb⟩ := Option.isSome_iff_exists.mp (isSome_attribute? hborder ha hat)
  obtain ⟨-, hb', hbt⟩ := isRead_of_attribute? hb
  rw [hb, ha.eq hb' hat hbt]

/-! ### Where no attribute is read -/

theorem attribute?_eq_none_iff : attribute? previous t = none ↔
    ∀ a, previous.any isWordChar = false → IsRead a → ¬ a.print <+: t := by
  rw [Option.eq_none_iff_forall_ne_some]
  exact forall_congr' fun a => by rw [Ne, attribute?_eq_some_iff, not_and, not_and]

/-- None begins in the middle of a word. -/
theorem attribute?_eq_none_of_word (h : isWordChar d) (t : Text) :
    attribute? (some d) t = none :=
  if_pos h

theorem isQuote_iff : isQuote c ↔ c = '"' ∨ c = '\'' := by simp [isQuote]

/-- None begins with a reserved character. -/
theorem attribute?_cons_eq_none (hc : c ∈ reserved) (previous : Option Char) (t : Text) :
    attribute? previous (c :: t) = none := by
  rw [attribute?_eq_none_iff]
  rintro a - ha ⟨rest, hrest⟩
  obtain ⟨d, name, hname⟩ := List.exists_cons_of_ne_nil ha.name_ne_nil
  rw [a.print_append, hname, List.cons_append] at hrest
  have hmem := ha.notMem hc
  rw [hname, (List.cons.inj hrest).1] at hmem
  exact hmem List.mem_cons_self

/-- None is read in a text without quotes. -/
theorem attribute?_eq_none_of_unquoted (ht : ∀ c ∈ t, isQuote c = false)
    (previous : Option Char) : attribute? previous t = none := by
  rw [attribute?_eq_none_iff]
  rintro a - ha ⟨rest, rfl⟩
  have hquote := ht a.quote (by simp [a.print_append])
  exact absurd ha.2.1 (by simp [hquote])

/-- **None is read** where a mark of a tag comes before the first quote. -/
theorem attribute?_eq_none_of_mark (hu : ∀ e ∈ u, isQuote e = false) (hc : c ∈ tagMarks)
    (previous : Option Char) (t : Text) : attribute? previous (u ++ c :: t) = none := by
  rw [attribute?_eq_none_iff]
  rintro a - ha ⟨rest, hrest⟩
  have hmarks : ∀ c ∈ tagMarks, isQuote c = false ∧ c ≠ '=' :=
    List.all_iff_forall_prop.mp (by decide)
  have hname : c ∉ a.name ++ ['='] := by
    rw [List.mem_append, not_or, List.mem_singleton]
    exact ⟨ha.notMem (List.mem_append_left _ hc), (hmarks c hc).2⟩
  have hquote : a.quote ≠ c := fun heq => absurd ha.2.1 (by simp [heq, hmarks c hc])
  rw [a.print_append_quote] at hrest
  rcases List.append_eq_append_iff.mp hrest with ⟨_ | ⟨e, w⟩, rfl, hw⟩ | ⟨_ | ⟨e, w⟩, hw, hrest⟩
  · exact hquote (List.cons.inj hw).1
  · have hfree := hu e (by simp)
    exact absurd ha.2.1 (by simp [(List.cons.inj hw).1, hfree])
  · exact hquote (List.cons.inj hrest).1.symm
  · exact hname (by rw [hw, (List.cons.inj hrest).1]; simp)

/-- **None is read** from within a value on. -/
theorem attribute?_eq_none_of_value (hv : ∀ e ∈ v, isQuote e = false)
    (hlast : v.getLast? ≠ some '=') (hc : isQuote c) (previous : Option Char) (t : Text) :
    attribute? previous (v ++ c :: t) = none := by
  rw [attribute?_eq_none_iff]
  rintro a - ha ⟨rest, hrest⟩
  have hname : ∀ e ∈ a.name ++ ['='], isQuote e = false := by
    rintro e he
    by_contra hquote
    have hquote := isQuote_iff.mp (by simpa using hquote)
    rcases List.mem_append.mp he with hmem | hmem
    · refine ha.notMem (c := e) ?_ hmem
      rcases hquote with rfl | rfl <;> decide
    · rw [List.mem_singleton.mp hmem] at hquote
      exact absurd hquote (by decide)
  rw [a.print_append_quote] at hrest
  obtain ⟨rfl, -⟩ := eq_of_append_cons hrest ha.2.1 hc hname hv
  exact hlast (by simp)

/-! ### Reading on -/

theorem markupFrom_cons_of_none (h : attribute? previous (c :: t) = none) :
    markupFrom previous 0 (c :: t) = .char c :: markupFrom (some c) 0 t := by
  rw [markupFrom, h]

theorem getLast?_cons_or (c : Char) (w : Text) (previous : Option Char) :
    (c :: w).getLast?.or previous = w.getLast?.or (some c) := by
  rw [List.getLast?_cons]
  cases w.getLast? <;> rfl

/-- Where no attribute is read, the characters are. -/
theorem markupFrom_append_of_none
    (h : ∀ v, v <:+ w → v ≠ [] → ∀ previous, attribute? previous (v ++ t) = none)
    (previous : Option Char) :
    markupFrom previous 0 (w ++ t) =
      w.map .char ++ markupFrom (w.getLast?.or previous) 0 t := by
  induction w generalizing previous with
  | nil => rfl
  | cons c w ih =>
    have hnone := h (c :: w) List.suffix_rfl (List.cons_ne_nil c w) previous
    rw [List.cons_append] at hnone ⊢
    rw [markupFrom_cons_of_none hnone, ih fun v hv => h v (hv.trans (List.suffix_cons c w)),
      getLast?_cons_or, List.map_cons, List.cons_append]

/-- Within a word, the characters are read. -/
theorem markupFrom_append_of_word (hd : isWordChar d) (hw : ∀ c ∈ w, isWordChar c) (t : Text) :
    markupFrom (some d) 0 (w ++ t) = w.map .char ++ markupFrom (w.getLast?.or (some d)) 0 t := by
  induction w generalizing d with
  | nil => rfl
  | cons c w ih =>
    obtain ⟨hc, hw⟩ := List.forall_mem_cons.mp hw
    rw [List.cons_append, markupFrom_cons_of_none (attribute?_eq_none_of_word hd _), ih hc hw,
      getLast?_cons_or, List.map_cons, List.cons_append]

theorem markupFrom_length (w t : Text) (previous : Option Char) :
    markupFrom previous w.length (w ++ t) = markupFrom (w.getLast?.or previous) 0 t := by
  induction w generalizing previous with
  | nil => rfl
  | cons c w ih =>
    rw [List.length_cons, List.cons_append, markupFrom, ih, getLast?_cons_or]

/-- Behind an attribute that is read, reading goes on. -/
theorem markupFrom_of_attribute (h : attribute? previous (a.print ++ t) = some a) :
    markupFrom previous 0 (a.print ++ t) = .attribute a :: markupFrom (some a.quote) 0 t := by
  obtain ⟨c, w, hprint⟩ := List.exists_cons_of_ne_nil a.print_ne_nil
  have hlast : w.getLast?.or (some c) = some a.quote := by
    rw [← getLast?_cons_or c w none, ← hprint, UrlAttribute.print, List.getLast?_concat]
    rfl
  have hlength : a.print.length - 1 = w.length := by rw [hprint]; rfl
  rw [hprint, List.cons_append] at h ⊢
  rw [markupFrom, h]
  simp only
  rw [hlength, markupFrom_length, hlast]

/-! ### One attribute -/

/-- An attribute that has the name of a URL is read where its name begins a word. -/
theorem IsRead.markupFrom_print (h : IsRead a) (hprevious : previous.any isWordChar = false)
    (t : Text) :
    markupFrom previous 0 (a.print ++ t) = .attribute a :: markupFrom (some a.quote) 0 t :=
  markupFrom_of_attribute (attribute?_eq_some_iff.mpr ⟨hprevious, h, List.prefix_append _ t⟩)

/-- The attribute is quoted. Its value holds no quote of either kind, and no equals sign at its
end. -/
structure UrlAttribute.IsPlain (a : UrlAttribute) : Prop where
  isQuote : Html.isQuote a.quote
  unquoted : ∀ c ∈ a.url, Html.isQuote c = false
  last : a.url.getLast? ≠ some '='

namespace UrlAttribute.IsPlain

theorem isRead_iff (h : a.IsPlain) : IsRead a ↔ ∃ word ∈ urlNames, Spells word a.name := by
  have hurl : a.quote ∉ a.url := fun hmem => absurd h.isQuote (by simp [h.unquoted _ hmem])
  rw [IsRead, and_iff_left ⟨h.isQuote, hurl⟩]

/-- Where an attribute begins that is not read, none is read. -/
theorem attribute?_print_eq_none (h : a.IsPlain) (hname : '=' ∉ a.name) (hread : ¬ IsRead a)
    (previous : Option Char) (t : Text) : attribute? previous (a.print ++ t) = none := by
  rw [attribute?_eq_none_iff]
  rintro b - hb ⟨rest, hrest⟩
  rw [b.print_append, a.print_append] at hrest
  have ha : ∀ e ∈ a.name, (e == '=') = false :=
    fun e he => beq_false_of_ne fun heq => hname (heq ▸ he)
  obtain ⟨hnames, -⟩ := eq_of_append_cons (p := (· == '=')) hrest rfl rfl hb.name_free ha
  exact hread (h.isRead_iff.mpr (hnames ▸ hb.1))

/-- Behind the name of an attribute, none is read before its end. -/
theorem attribute?_value_eq_none (h : a.IsPlain) (t : Text)
    (hv : v <:+ '=' :: a.quote :: (a.url ++ [a.quote])) (hne : v ≠ []) (previous : Option Char) :
    attribute? previous (v ++ t) = none := by
  have hquote : a.quote ∈ reserved := by
    rcases isQuote_iff.mp h.isQuote with heq | heq <;> rw [heq] <;> decide
  rcases List.suffix_cons_iff.mp hv with rfl | hv
  · exact attribute?_cons_eq_none (by decide) previous _
  rcases List.suffix_cons_iff.mp hv with rfl | hv
  · exact attribute?_cons_eq_none hquote previous _
  rcases List.suffix_concat_iff.mp hv with rfl | ⟨u, rfl, hu⟩
  · exact absurd rfl hne
  · have hlast : u.getLast? ≠ some '=' := fun hlast => by
      obtain ⟨start, hvalue⟩ := hu
      refine h.last ?_
      rw [← hvalue, List.getLast?_append, hlast]
      rfl
    rw [List.append_assoc, List.singleton_append]
    exact attribute?_eq_none_of_value (fun e he => h.unquoted e (hu.subset he)) hlast h.isQuote
      previous t

/-- An attribute whose name is a word, but not that of a URL, is read as its characters. -/
theorem markupFrom_of_not_isRead (h : a.IsPlain) (hname : '=' ∉ a.name)
    (hword : ∀ c ∈ a.name, isWordChar c) (hread : ¬ IsRead a) (previous : Option Char) (t : Text) :
    markupFrom previous 0 (a.print ++ t) = a.print.map .char ++ markupFrom (some a.quote) 0 t := by
  have hvalue (previous : Option Char) :
      markupFrom previous 0 ('=' :: a.quote :: (a.url ++ [a.quote]) ++ t) =
        ('=' :: a.quote :: (a.url ++ [a.quote])).map .char ++ markupFrom (some a.quote) 0 t := by
    have hlast : ('=' :: a.quote :: (a.url ++ [a.quote])).getLast? = some a.quote :=
      List.getLast?_concat (l := '=' :: a.quote :: a.url)
    rw [markupFrom_append_of_none fun v hv hne => h.attribute?_value_eq_none t hv hne, hlast]
    rfl
  have hnone := h.attribute?_print_eq_none hname hread previous t
  have hprint : a.print = a.name ++ '=' :: a.quote :: (a.url ++ [a.quote]) := by
    simp [UrlAttribute.print]
  rw [hprint, List.append_assoc] at hnone ⊢
  rcases hcases : a.name with _ | ⟨c, name⟩
  · exact hvalue previous
  · obtain ⟨hc, hword⟩ := List.forall_mem_cons.mp (hcases ▸ hword)
    rw [hcases, List.cons_append] at hnone
    rw [List.cons_append, markupFrom_cons_of_none hnone, markupFrom_append_of_word hc hword, hvalue]
    simp

end UrlAttribute.IsPlain

/-! ### One tag -/

section Tag

variable {α : Type} {spell : α → Text} {read : α → List Markup} {close : α → Char}
  {attributes : List α}

/-- Attributes one after the other are read one after the other. -/
theorem markupFrom_attributes
    (h : ∀ a ∈ attributes, ∀ t,
      markupFrom (some ' ') 0 (spell a ++ t) = read a ++ markupFrom (some (close a)) 0 t)
    (previous : Option Char) (t : Text) :
    markupFrom previous 0 (attributes.flatMap (fun a => ' ' :: spell a) ++ '>' :: t) =
      attributes.flatMap (fun a => .char ' ' :: read a) ++
        .char '>' :: markupFrom (some '>') 0 t := by
  induction attributes generalizing previous with
  | nil => exact markupFrom_cons_of_none (attribute?_cons_eq_none (by decide) previous t)
  | cons a attributes ih =>
    obtain ⟨ha, hattributes⟩ := List.forall_mem_cons.mp h
    rw [List.flatMap_cons, List.append_assoc, List.cons_append,
      markupFrom_cons_of_none (attribute?_cons_eq_none (by decide) previous _), ha,
      ih hattributes, List.flatMap_cons, List.cons_append, List.cons_append, List.append_assoc]

/-- Behind the name of a tag stands another mark: a space or the end of the tag. -/
theorem exists_attributes_append (spell : α → Text) (attributes : List α) (t : Text) :
    ∃ c ∈ tagMarks, ∃ rest,
      attributes.flatMap (fun a => ' ' :: spell a) ++ '>' :: t = c :: rest := by
  cases attributes with
  | nil => exact ⟨'>', by decide, t, rfl⟩
  | cons a attributes => exact ⟨' ', by decide, _, rfl⟩

/-- **One tag** is read as the characters of its name, and its attributes. -/
theorem markupFrom_tag (hname : ∀ c ∈ name, isQuote c = false)
    (h : ∀ a ∈ attributes, ∀ t,
      markupFrom (some ' ') 0 (spell a ++ t) = read a ++ markupFrom (some (close a)) 0 t)
    (previous : Option Char) (t : Text) :
    markupFrom previous 0
      ('<' :: (name ++ (attributes.flatMap (fun a => ' ' :: spell a) ++ ['>'])) ++ t) =
      ('<' :: name).map .char ++
        (attributes.flatMap (fun a => .char ' ' :: read a) ++ [.char '>']) ++
          markupFrom (some '>') 0 t := by
  obtain ⟨c, hc, rest, hrest⟩ := exists_attributes_append spell attributes t
  have hquote : ∀ e ∈ '<' :: name, isQuote e = false :=
    List.forall_mem_cons.mpr ⟨by decide, hname⟩
  have hnone : ∀ v, v <:+ '<' :: name → v ≠ [] →
      ∀ previous, attribute? previous (v ++ c :: rest) = none := fun v hv _ previous =>
    attribute?_eq_none_of_mark (fun e he => hquote e (hv.subset he)) hc previous rest
  have hsplit : '<' :: (name ++ (attributes.flatMap (fun a => ' ' :: spell a) ++ ['>'])) ++ t =
      ('<' :: name) ++ (attributes.flatMap (fun a => ' ' :: spell a) ++ '>' :: t) := by
    simp
  rw [hsplit, hrest, markupFrom_append_of_none hnone, ← hrest, markupFrom_attributes h]
  simp

end Tag

/-! ### Names -/

theorem isWordChar_of_isAlpha (hc : c.isAlpha) : isWordChar c :=
  forall_ascii (P := fun c => c.isAlpha → isWordChar c) (by decide +kernel)
    (toNat_lt_of_isAlpha hc) hc

theorem letterOf_of_ascii (hc : c.toNat < 128) : letterOf c = c.toLower := by
  rw [letterOf, if_neg (by omega), if_neg (by omega), if_neg (by omega)]

/-- A name in ASCII spells the name of a URL if it is that name in lower case. -/
theorem exists_spells_iff (hname : ∀ c ∈ name, c.toNat < 128) :
    (∃ word ∈ urlNames, Spells word name) ↔ name.map Char.toLower ∈ urlNames := by
  constructor
  · rintro ⟨word, hword, h⟩
    rw [eq_map_letterOf hword h,
      List.map_congr_left fun c hc => letterOf_of_ascii (hname c hc)] at hword
    exact hword
  · intro hword
    exact ⟨_, hword, by simp [Spells, List.forall₂_map_left_iff, List.forall₂_same, Text.isFormOf]⟩

theorem Name.unquoted (n : Name) : ∀ c ∈ n.text, isQuote c = false := by
  intro c hc
  by_contra hquote
  have halpha := n.letters c hc
  rcases isQuote_iff.mp (by simpa using hquote) with rfl | rfl <;> exact absurd halpha (by decide)

/-! ### Reading a document -/

/-- The attribute as it would be read. -/
def Attribute.read (a : Attribute) : UrlAttribute := ⟨a.name.text, a.quote, a.value⟩

/-- What is read of an attribute. -/
def Attribute.markup (a : Attribute) : List Markup :=
  if a.isUrl then [.attribute a.read] else (a.spell a.value).map .char

/-- What is read of a tag. -/
def Tag.markup (tag : Tag) : List Markup :=
  ('<' :: tag.name.text).map .char ++
    (tag.attributes.flatMap (fun a => .char ' ' :: a.markup) ++ [.char '>'])

/-- What is read of a chunk. -/
def Chunk.markup : Chunk → List Markup
  | .text t _ => t.map .char
  | .tag t => t.markup

theorem Attribute.print_read (a : Attribute) : a.read.print = a.spell a.value := by
  simp [Attribute.spell, UrlAttribute.print, Attribute.read]

theorem Attribute.isPlain_read (a : Attribute) : a.read.IsPlain := ⟨a.isQuote, a.unquoted, a.last⟩

theorem Attribute.isRead_iff (a : Attribute) : IsRead a.read ↔ a.isUrl := by
  have hascii : ∀ c ∈ a.read.name, c.toNat < 128 :=
    fun c hc => toNat_lt_of_isAlpha (a.name.letters c hc)
  rw [a.isPlain_read.isRead_iff, exists_spells_iff hascii, Attribute.isUrl, decide_eq_true_iff]
  rfl

/-- **One attribute** is read if it has the name of a URL; otherwise its characters are. -/
theorem Attribute.markupFrom_spell (a : Attribute) (hprevious : previous.any isWordChar = false)
    (t : Text) : markupFrom previous 0 (a.spell a.value ++ t) =
      a.markup ++ markupFrom (some a.quote) 0 t := by
  rw [Attribute.markup, ← a.print_read]
  split
  · next hurl => exact (a.isRead_iff.mpr hurl).markupFrom_print hprevious t
  · next hurl =>
    have hequals : '=' ∉ a.name.text := fun he => absurd (a.name.letters _ he) (by decide)
    exact a.isPlain_read.markupFrom_of_not_isRead hequals
      (fun c hc => isWordChar_of_isAlpha (a.name.letters c hc)) (mt a.isRead_iff.mp hurl) previous t

theorem Attribute.markupFrom_space (a : Attribute) (t : Text) :
    markupFrom (some ' ') 0 (a.spell a.value ++ t) = a.markup ++ markupFrom (some a.quote) 0 t :=
  a.markupFrom_spell (by decide) t

/-- **One tag** is read as its characters and its attributes. -/
theorem Tag.markupFrom_printWith (tag : Tag) (previous : Option Char) (t : Text) :
    markupFrom previous 0 (tag.printWith Attribute.value ++ t) =
      tag.markup ++ markupFrom (some '>') 0 t :=
  markupFrom_tag tag.name.unquoted (fun a _ t => a.markupFrom_space t) previous t

/-- A document has no quote before its first tag. -/
theorem exists_printWith_eq (doc : List Chunk) (value : Attribute → Text) :
    ∃ u rest, printWith value doc = u ++ rest ∧ (∀ e ∈ u, isQuote e = false) ∧
      (rest = [] ∨ rest.head? = some '<') := by
  induction doc with
  | nil => exact ⟨[], [], rfl, nofun, .inl rfl⟩
  | cons chunk doc ih =>
    rw [printWith, List.flatMap_cons, ← printWith]
    cases chunk with
    | text t unquoted =>
      obtain ⟨u, rest, heq, hu, hrest⟩ := ih
      refine ⟨t ++ u, rest, ?_, ?_, hrest⟩
      · rw [heq, List.append_assoc]
        rfl
      · exact fun e he => (List.mem_append.mp he).elim (unquoted e) (hu e)
    | tag t => exact ⟨[], _, rfl, nofun, .inr rfl⟩

/-- No attribute is read in the text between tags. -/
theorem attribute?_text_eq_none (hv : ∀ e ∈ v, isQuote e = false) (doc : List Chunk)
    (value : Attribute → Text) (previous : Option Char) :
    attribute? previous (v ++ printWith value doc) = none := by
  obtain ⟨u, rest, heq, hu, hrest⟩ := exists_printWith_eq doc value
  have hunquoted : ∀ e ∈ v ++ u, isQuote e = false :=
    fun e he => (List.mem_append.mp he).elim (hv e) (hu e)
  rw [heq, ← List.append_assoc]
  rcases hrest with rfl | hrest
  · rw [List.append_nil]
    exact attribute?_eq_none_of_unquoted hunquoted previous
  · obtain ⟨rest, rfl⟩ := List.head?_eq_some_iff.mp hrest
    exact attribute?_eq_none_of_mark hunquoted (by decide) previous rest

theorem markupFrom_printWith (doc : List Chunk) (previous : Option Char) :
    markupFrom previous 0 (printWith Attribute.value doc) = doc.flatMap Chunk.markup := by
  induction doc generalizing previous with
  | nil => rw [printWith, List.flatMap_nil, List.flatMap_nil, markupFrom]
  | cons chunk doc ih =>
    rw [printWith, List.flatMap_cons, ← printWith, List.flatMap_cons]
    cases chunk with
    | text t unquoted =>
      have hnone : ∀ v, v <:+ t → v ≠ [] → ∀ previous,
          attribute? previous (v ++ printWith Attribute.value doc) = none :=
        fun v hv _ => attribute?_text_eq_none (fun e he => unquoted e (hv.subset he)) doc _
      exact (markupFrom_append_of_none hnone previous).trans (congrArg _ (ih _))
    | tag t => exact (t.markupFrom_printWith previous _).trans (congrArg _ (ih _))

/-- **What is read in a document**: the attributes of its tags that have names of URLs, and no
other. -/
theorem markup_printWith (doc : List Chunk) :
    markup (printWith Attribute.value doc) = doc.flatMap Chunk.markup :=
  markupFrom_printWith doc none

/-! ### Putting in the base -/

/-- What is read, with the base in front of its URLs, as text. -/
def rebasedText (base : Text) (ms : List Markup) : Text :=
  printMarkup (ms.map (Markup.rebase (trimBase base)))

theorem absolutize_eq_rebasedText (html base : Text) :
    absolutize html base = rebasedText base (markup html) := by
  rw [absolutize_eq_insertAt, rebasedText, ← insertAt_printMarkup, printMarkup_markup, rootPlaces]

theorem rebasedText_append (base : Text) (ms more : List Markup) :
    rebasedText base (ms ++ more) = rebasedText base ms ++ rebasedText base more := by
  rw [rebasedText, List.map_append, printMarkup, List.flatMap_append]
  rfl

theorem rebasedText_flatMap {α : Type} (base : Text) (f : α → List Markup) (xs : List α) :
    rebasedText base (xs.flatMap f) = xs.flatMap fun x => rebasedText base (f x) := by
  induction xs with
  | nil => rfl
  | cons x xs ih => rw [List.flatMap_cons, rebasedText_append, ih, List.flatMap_cons]

theorem rebasedText_map_char (base w : Text) : rebasedText base (w.map .char) = w := by
  induction w with
  | nil => rfl
  | cons c w ih => exact congrArg (c :: ·) ih

/-- A tag with the base put in is made of what becomes of its attributes. -/
theorem rebasedText_tag {α : Type} (base name : Text) (read : α → List Markup)
    (attributes : List α) :
    rebasedText base (('<' :: name).map .char ++
        (attributes.flatMap (fun a => .char ' ' :: read a) ++ [.char '>'])) =
      '<' :: (name ++
        (attributes.flatMap (fun a => ' ' :: rebasedText base (read a)) ++ ['>'])) := by
  have hspace (a : α) : rebasedText base (.char ' ' :: read a) = ' ' :: rebasedText base (read a) :=
    rfl
  rw [rebasedText_append, rebasedText_map_char, rebasedText_append, rebasedText_flatMap]
  simp only [hspace]
  rfl

theorem Attribute.rebasedText_markup (a : Attribute) (base : Text) :
    rebasedText base a.markup = a.spell (a.rebased base) := by
  rw [Attribute.markup, Attribute.rebased]
  cases a.isUrl with
  | false => exact rebasedText_map_char base (a.spell a.value)
  | true =>
    have hprint : rebasedText base [.attribute a.read] =
        (a.read.rebase (trimBase base)).print := List.append_nil _
    rw [if_pos rfl, hprint, UrlAttribute.rebase, Bool.true_and, Attribute.read]
    simp only
    split <;> simp [UrlAttribute.print, Attribute.spell]

theorem Chunk.rebasedText_markup (chunk : Chunk) (base : Text) :
    rebasedText base chunk.markup = chunk.printWith (Attribute.rebased base) := by
  cases chunk with
  | text t _ => exact rebasedText_map_char base t
  | tag t =>
    rw [Chunk.markup, Tag.markup, rebasedText_tag]
    simp only [Attribute.rebasedText_markup]
    rfl

/-- **Absolute URLs in a document**: the document in which the base stands in front of the
root-relative values of the attributes that have names of URLs. Nothing else differs. -/
theorem absolutize_printWith (doc : List Chunk) (base : Text) :
    absolutize (printWith Attribute.value doc) base = printWith (Attribute.rebased base) doc := by
  rw [absolutize_eq_rebasedText, markup_printWith, rebasedText_flatMap, printWith]
  exact List.flatMap_congr fun chunk _ => chunk.rebasedText_markup base

/-- A base with slashes at its end, an attribute with a name in any case, and text and a value that
look like an attribute. -/
theorem absolutize_printWith_of_slashes :
    let name (t : Text) (h : t ≠ [] ∧ t.all Char.isAlpha) : Name :=
      ⟨t, h.1, List.all_eq_true.mp h.2⟩
    let free {t : Text} (h : t.all fun c => isQuote c = false) := List.all_iff_forall_prop.mp h
    let link : Attribute := ⟨name "HREF" (by decide), '"', "/a", rfl, free (by decide), by decide⟩
    let note : Attribute :=
      ⟨name "alt" (by decide), '"', "/ src=x", rfl, free (by decide), by decide⟩
    let tag : Tag := ⟨name "a" (by decide), [link, note]⟩
    let doc : List Chunk := [.text "src=" (free (by decide)), .tag tag]
    absolutize (printWith Attribute.value doc) "https://h.com//" =
      "src=<a HREF=\"https://h.com/a\" alt=\"/ src=x\">".toList := by
  intro name free link note tag doc
  rw [absolutize_printWith]
  decide

end Pageloom.Html
