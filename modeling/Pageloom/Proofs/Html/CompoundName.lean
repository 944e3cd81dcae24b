import Mathlib.Data.List.DropRight
import Pageloom.Proofs.Html.Document

/-!
# Attributes with compound names

The name of an attribute may be made of words with dashes and colons between them. The reader of
attributes asks only that a name begins a word, and a dash or a colon ends one. So of a compound
name it sees the last word: where this is the name of a URL, the value is read as a URL, whatever
stands before that word. The value of `data-href` gets the base in front as that of `href` does.

Everything else about a tag is as with plain names. No attribute is read in the words before the
last one, since a word that is the name of a URL has an equals sign right behind it.

## Main definitions

* `Html.CompoundName`, `Html.CompoundAttribute`, `Html.CompoundTag`: tags whose names are compound.
* `Html.CompoundName.lastWord`: what the reader sees of a name.
* `Html.CompoundAttribute.rebased`: the value with the base in front, if it is read as a URL.

## Main results

* `Html.CompoundAttribute.markupFrom_print`: what is read of one attribute.
* `Html.absolutize_compoundTag`: what absolute URLs make of a tag, and when they leave the values of
  all other attributes alone.
-/

namespace Pageloom.Html

variable {base name t : Text} {c : Char} {previous : Option Char}

/-! ### Tags -/

/-- Letters, digits, dashes and colons. -/
def isNameChar (c : Char) : Bool := c.isAlphanum || c = '-' || c = ':'

/-- A name of letters, digits, dashes and colons, at least one. -/
structure CompoundName where
  text : Text
  ne_nil : text ≠ []
  chars : ∀ c ∈ text, isNameChar c

/-- A quoted attribute. Its value holds no quote of either kind, and no equals sign at its end. -/
structure CompoundAttribute where
  name : CompoundName
  quote : Char
  value : Text
  isQuote : Html.isQuote quote
  unquoted : ∀ c ∈ value, Html.isQuote c = false
  last : value.getLast? ≠ some '='

/-- A tag: its name and its attributes. -/
structure CompoundTag where
  name : CompoundName
  attributes : List CompoundAttribute

/-- The attribute as it is spelled with the given value. -/
def CompoundAttribute.withValue (a : CompoundAttribute) (value : Text) : UrlAttribute :=
  ⟨a.name.text, a.quote, value⟩

/-- A tag as text: each attribute has a space before it, and the value given for it. -/
def CompoundTag.printWith (value : CompoundAttribute → Text) (tag : CompoundTag) : Text :=
  '<' :: (tag.name.text ++
    (tag.attributes.flatMap (fun a => ' ' :: (a.withValue (value a)).print) ++ ['>']))

/-- The word at the end of a name, behind its last dash or colon. -/
def CompoundName.lastWord (n : CompoundName) : Text := n.text.rtakeWhile isWordChar

/-- What stands before the last word of a name. -/
def CompoundName.start (n : CompoundName) : Text := n.text.rdropWhile isWordChar

/-- Whether the attribute has the name of a URL, in any case. -/
def CompoundAttribute.isUrl (a : CompoundAttribute) : Bool :=
  urlNames.elem (a.name.text.map Char.toLower)

/-- Whether the last word of the name is the name of a URL, in any case. -/
def CompoundAttribute.endsInUrl (a : CompoundAttribute) : Bool :=
  urlNames.elem (a.name.lastWord.map Char.toLower)

/-- The value with the base in front, if the last word of the name is the name of a URL and the
value is root-relative. -/
def CompoundAttribute.rebased (base : Text) (a : CompoundAttribute) : Text :=
  if a.endsInUrl && isRootRelative a.value then trimBase base ++ a.value else a.value

/-! ### Names -/

theorem toNat_lt_of_isNameChar (h : isNameChar c) : c.toNat < 128 := by
  simp only [isNameChar, Char.isAlphanum, Bool.or_eq_true, decide_eq_true_eq] at h
  rcases h with ((h | h) | rfl) | rfl
  · exact toNat_lt_of_isAlpha h
  · exact toNat_lt_of_isDigit h
  · decide
  · decide

theorem ne_equals_of_isNameChar (h : isNameChar c) : c ≠ '=' := by
  rintro rfl
  exact absurd h (by decide)

theorem isQuote_of_isNameChar (h : isNameChar c) : isQuote c = false := by
  by_contra hquote
  rcases isQuote_iff.mp (by simpa using hquote) with rfl | rfl <;> exact absurd h (by decide)

/-- A name in ASCII that is the name of a URL in some case is one word. -/
theorem isWordChar_of_mem_urlNames (hname : ∀ c ∈ name, c.toNat < 128)
    (h : name.map Char.toLower ∈ urlNames) : ∀ c ∈ name, isWordChar c := by
  intro c hc
  have hletters : ∀ word ∈ urlNames, word.all Char.isAlpha := by decide
  have hlower : c.toLower.isAlpha :=
    List.all_eq_true.mp (hletters _ h) _ (List.mem_map_of_mem hc)
  exact forall_ascii (P := fun c => c.toLower.isAlpha → isWordChar c) (by decide +kernel)
    (hname c hc) hlower

namespace CompoundName

theorem toNat_lt (n : CompoundName) : ∀ c ∈ n.text, c.toNat < 128 :=
  fun c hc => toNat_lt_of_isNameChar (n.chars c hc)

theorem unquoted (n : CompoundName) : ∀ c ∈ n.text, isQuote c = false :=
  fun c hc => isQuote_of_isNameChar (n.chars c hc)

theorem start_append_lastWord (n : CompoundName) : n.start ++ n.lastWord = n.text :=
  List.rdropWhile_append_rtakeWhile

/-- What stands before the last word does not end with a character of a word. -/
theorem isWordChar_of_getLast?_start (n : CompoundName) (h : n.start.getLast? = some c) :
    isWordChar c = false := by
  have hne : n.start ≠ [] := fun hnil => by simp [hnil] at h
  have hlast : ¬ isWordChar (n.start.getLast hne) = true :=
    List.rdropWhile_last_not isWordChar _ hne
  rw [List.getLast?_eq_some_getLast hne, Option.some.injEq] at h
  simpa [h] using hlast

theorem equals_notMem_of_suffix (n : CompoundName) (h : name <:+ n.text) : '=' ∉ name :=
  fun hmem => ne_equals_of_isNameChar (n.chars _ (h.subset hmem)) rfl

end CompoundName

/-! ### Reading a tag -/

namespace CompoundAttribute

/-- The attribute as it would be read. -/
def read (a : CompoundAttribute) : UrlAttribute := ⟨a.name.lastWord, a.quote, a.value⟩

/-- What is read of an attribute. -/
def markup (a : CompoundAttribute) : List Markup :=
  if a.endsInUrl then a.name.start.map .char ++ [.attribute a.read]
  else (a.withValue a.value).print.map .char

variable (a : CompoundAttribute)

theorem isPlain (name : Text) : UrlAttribute.IsPlain ⟨name, a.quote, a.value⟩ :=
  ⟨a.isQuote, a.unquoted, a.last⟩

/-- With a part of its name an attribute is read if this part is the name of a URL. -/
theorem isRead_iff (h : name <:+ a.name.text) :
    IsRead ⟨name, a.quote, a.value⟩ ↔ name.map Char.toLower ∈ urlNames := by
  rw [(a.isPlain name).isRead_iff, exists_spells_iff fun c hc => a.name.toNat_lt c (h.subset hc)]

theorem start_append_print :
    a.name.start ++ a.read.print = (a.withValue a.value).print := by
  rw [withValue, ← a.name.start_append_lastWord]
  simp [UrlAttribute.print, read]

/-- **None is read** before the last word of a name. -/
theorem attribute?_start_eq_none {v : Text} (hv : v <:+ a.name.start) (hne : v ≠ [])
    (previous : Option Char) (t : Text) :
    attribute? previous (v ++ (a.read.print ++ t)) = none := by
  have hsuffix : v ++ a.name.lastWord <:+ a.name.text := by
    rw [← a.name.start_append_lastWord]
    exact List.suffix_append_self_iff.mpr hv
  have hprint : v ++ a.read.print =
      (⟨v ++ a.name.lastWord, a.quote, a.value⟩ : UrlAttribute).print := by
    simp [UrlAttribute.print, read]
  rw [← List.append_assoc, hprint]
  refine (a.isPlain _).attribute?_print_eq_none (a.name.equals_notMem_of_suffix hsuffix)
    (fun hread => ?_) previous t
  have hword := isWordChar_of_mem_urlNames (fun c hc => a.name.toNat_lt c (hsuffix.subset hc))
    ((a.isRead_iff hsuffix).mp hread)
  obtain ⟨u, hu⟩ := hv
  have hlast : a.name.start.getLast? = some (v.getLast hne) := by
    rw [← hu, List.getLast?_append_of_ne_nil _ hne, List.getLast?_eq_some_getLast hne]
  have := hword (v.getLast hne) (List.mem_append_left _ (List.getLast_mem hne))
  rw [a.name.isWordChar_of_getLast?_start hlast] at this
  cases this

/-- **One attribute** is read from its last word on if this is the name of a URL; otherwise its
characters are. -/
theorem markupFrom_print (t : Text) :
    markupFrom (some ' ') 0 ((a.withValue a.value).print ++ t) =
      a.markup ++ markupFrom (some a.quote) 0 t := by
  have hsuffix : a.name.lastWord <:+ a.name.text := List.rtakeWhile_suffix isWordChar _
  have hplain : a.read.IsPlain := a.isPlain _
  have hread : IsRead a.read ↔ a.endsInUrl := by
    rw [endsInUrl, List.elem_iff]
    exact a.isRead_iff hsuffix
  have hborder : (a.name.start.getLast?.or (some ' ')).any isWordChar = false := by
    rcases hlast : a.name.start.getLast? with _ | c
    · decide
    · exact a.name.isWordChar_of_getLast?_start hlast
  rw [markup, ← a.start_append_print, List.append_assoc,
    markupFrom_append_of_none fun v hv hne previous => a.attribute?_start_eq_none hv hne previous t]
  split
  · next hurl =>
    rw [(hread.mpr hurl).markupFrom_print hborder, List.append_assoc]
    rfl
  · next hurl =>
    rw [hplain.markupFrom_of_not_isRead (a.name.equals_notMem_of_suffix hsuffix)
      (fun c hc => List.mem_rtakeWhile_imp hc) (mt hread.mp hurl), List.map_append,
      List.append_assoc]
    rfl

theorem rebasedText_markup (base : Text) :
    rebasedText base a.markup = (a.withValue (a.rebased base)).print := by
  rw [markup, rebased]
  cases a.endsInUrl with
  | false => exact rebasedText_map_char base _
  | true =>
    have hprint : rebasedText base [.attribute a.read] =
        (a.read.rebase (trimBase base)).print := List.append_nil _
    rw [if_pos rfl, rebasedText_append, rebasedText_map_char, hprint, Bool.true_and, withValue,
      ← a.name.start_append_lastWord, UrlAttribute.rebase, read]
    simp only
    split <;> simp [UrlAttribute.print]

/-- Which values get the base in front: those that are read as URLs and are root-relative. -/
theorem rebased_eq_value_iff (base : Text) :
    a.rebased base = a.value ↔ trimBase base = [] ∨ ¬ (a.endsInUrl ∧ isRootRelative a.value) := by
  rw [rebased, ← Bool.and_eq_true]
  split
  · next h => simp [h]
  · next h => simp [h]

end CompoundAttribute

/-- **Absolute URLs in a tag with compound names.** The base stands in front of the root-relative
values of the attributes whose names have for their last word the name of a URL, and nothing else
differs. So the values of the attributes that have no name of a URL stay as they are unless one of
them is root-relative and its name has such a last word. -/
theorem absolutize_compoundTag (tag : CompoundTag) (base : Text) :
    absolutize (tag.printWith CompoundAttribute.value) base =
        tag.printWith (CompoundAttribute.rebased base) ∧
      ((∀ a ∈ tag.attributes, ¬ a.isUrl → a.rebased base = a.value) ↔
        trimBase base = [] ∨
          ∀ a ∈ tag.attributes, ¬ a.isUrl → a.endsInUrl → ¬ isRootRelative a.value) := by
  constructor
  · have hread (a : CompoundAttribute) (_ : a ∈ tag.attributes) (t : Text) := a.markupFrom_print t
    have hmarkup := markupFrom_tag tag.name.unquoted hread none []
    rw [List.append_nil, markupFrom, List.append_nil] at hmarkup
    rw [absolutize_eq_rebasedText, CompoundTag.printWith, Html.markup, hmarkup, rebasedText_tag]
    simp only [CompoundAttribute.rebasedText_markup]
    rfl
  · simp only [CompoundAttribute.rebased_eq_value_iff]
    by_cases hbase : trimBase base = []
    · simp [hbase]
    · simp [hbase]

-- A name that ends in the name of a URL behind a dash, and one that has it in front.
example :
    let name (t : Text) (h : t ≠ [] ∧ t.all isNameChar) : CompoundName :=
      ⟨t, h.1, List.all_eq_true.mp h.2⟩
    let attr (n v : Text) (hn : n ≠ [] ∧ n.all isNameChar)
        (hv : v.all fun c => isQuote c = false) (hlast : v.getLast? ≠ some '=') :
        CompoundAttribute := ⟨name n hn, '"', v, rfl, List.all_iff_forall_prop.mp hv, hlast⟩
    let tag : CompoundTag := ⟨name "my-link" (by decide),
      [attr "data-href" "/a" (by decide) (by decide) (by decide),
        attr "href-x" "/b" (by decide) (by decide) (by decide)]⟩
    absolutize (tag.printWith CompoundAttribute.value) "h.com" =
      "<my-link data-href=\"h.com/a\" href-x=\"/b\">".toList := by decide

end Pageloom.Html
