import Mathlib.Data.List.DropRight
import Pageloom.Proofs.Markdown.Code

/-!
# What a code block shows, and what its markup holds

Code is written between tags, with its markup characters as references. Without the tags and with
the references read, it is there again. Two things are not as well kept.

Code in a known language is cleaned before it is highlighted: the blanks at its ends go, the
indentation of its first line with them, and one line break is put at its end. A highlighter that is
faithful to a language marks up the cleaned code and changes nothing else in it. So the same block
shows one text when it is highlighted and another one when it is not, unless its code is clean to
begin with.

And the language of a block stands in an attribute as it is. A quote ends the attribute there, and
what follows is markup of the page; a reference in it is read as something else.

## Main definitions

* `Highlighter.IsFaithfulTo`: the highlighter shows the cleaned code of a language.
* `CodeBlock.IsClean`: code that stays as it is when it is highlighted.
* `CodeBlock.StaysInside`: a block whose language and code are inside its markup, and are read back.

## Main results

* `CodeBlock.shown_code_of_isHighlighted`, `CodeBlock.shown_code_of_not_isHighlighted`: what a block
  shows.
* `CodeBlock.shown_highlighted_eq_iff`: when it shows the same with highlighting and without.
* `CodeBlock.staysInside_iff`: when a block stays inside its markup.
-/

namespace Pageloom.Text

/-- A character of ASCII that has no case stays in the lower case of a text. -/
theorem mem_lowerFrom {t : Text} {d : Char} (hd : d.toNat < 128) (hlower : d.toLower = d)
    (h : d ∈ t) (afterCased : Bool) : d ∈ lowerFrom afterCased t := by
  induction t generalizing afterCased with
  | nil => cases h
  | cons e t ih =>
    rw [lowerFrom, List.mem_append]
    rcases List.mem_cons.mp h with rfl | h
    · have hne : d.toNat ≠ 0x3A3 ∧ d.toNat ≠ 0x130 := by omega
      left
      simp [hne.1, hne.2, lowerFull, lowerChar, hd, hlower]
    · exact .inr (ih h _)

end Pageloom.Text

namespace Pageloom.Markdown

open Reference (decode escape)

variable {t inside language : Text} {d : Char}

/-! ### Dropping tags -/

namespace Html

theorem stripTagsFrom_eq_drop (n : ℕ) (t : Text) :
    stripTagsFrom n t = stripTagsFrom 0 (t.drop n) := by
  induction t generalizing n with
  | nil => cases n <;> rfl
  | cons c t ih =>
    cases n with
    | zero => rfl
    | succ n => exact ih n

/-- A tag is dropped up to its end, whatever follows. -/
theorem stripTagsFrom_tag (hend : '>' ∉ inside) (hcomment : inside.head? ≠ some '!') (rest : Text) :
    stripTagsFrom 0 ('<' :: (inside ++ '>' :: rest)) = stripTagsFrom 0 rest := by
  have hmark : ("<!--" : Text) = ['<', '!', '-', '-'] := by decide
  have hnone : Text.dropPrefix? "<!--" ('<' :: (inside ++ '>' :: rest)) = none := by
    rw [Option.eq_none_iff_forall_ne_some, hmark]
    intro behind hbehind
    have htail := (List.cons.inj (Text.dropPrefix?_eq_some_iff.mp hbehind)).2
    cases inside with
    | nil => simp at htail
    | cons e inside => exact hcomment (congrArg some (List.cons.inj htail).1)
  have hcut : Text.cutWhere? (· == '>') (inside ++ '>' :: rest) = some (inside, '>', rest) :=
    Text.cutWhere?_eq_some_iff.mpr ⟨rfl, by simp, fun e he => by
      simpa using ne_of_mem_of_not_mem he hend⟩
  have hdrop : (inside ++ '>' :: rest).drop (inside.length + 1) = rest := by simp
  rw [stripTagsFrom]
  simp only [hnone, hcut, if_true, Option.map_some]
  rw [stripTagsFrom_eq_drop, hdrop]

theorem stripTagsFrom_append_of_notMem (h : '<' ∉ t) (rest : Text) :
    stripTagsFrom 0 (t ++ rest) = t ++ stripTagsFrom 0 rest := by
  induction t with
  | nil => rfl
  | cons c t ih =>
    obtain ⟨hc, ht⟩ := not_or.mp (List.mem_cons.not.mp h)
    have hcomment : Text.dropPrefix? ['<', '!', '-', '-'] (c :: (t ++ rest)) = none := by
      rw [Text.dropPrefix?, if_neg hc]
    simp [stripTagsFrom, hcomment, Ne.symm hc, ih ht]

/-- Tags one after the other, each given by what stands inside of it. -/
def tags (insides : List Text) : Text := insides.flatMap fun inside => '<' :: (inside ++ ['>'])

/-- What stands inside of a tag: the tag does not end there, and is no comment. -/
def IsInsideTag (inside : Text) : Prop := '>' ∉ inside ∧ inside.head? ≠ some '!'

instance (inside : Text) : Decidable (IsInsideTag inside) :=
  inferInstanceAs (Decidable (_ ∧ _))

theorem stripTagsFrom_tags {insides : List Text} (h : ∀ inside ∈ insides, IsInsideTag inside)
    (rest : Text) : stripTagsFrom 0 (tags insides ++ rest) = stripTagsFrom 0 rest := by
  induction insides with
  | nil => rfl
  | cons inside insides ih =>
    obtain ⟨⟨hend, hcomment⟩, hinsides⟩ := List.forall_mem_cons.mp h
    have hsplit : tags (inside :: insides) ++ rest =
        '<' :: (inside ++ '>' :: (tags insides ++ rest)) := by simp [tags]
    rw [hsplit, stripTagsFrom_tag hend hcomment, ih hinsides]

/-- Code between tags is shown as it is. -/
theorem shown_tagged {opening closing : List Text} (hopening : ∀ i ∈ opening, IsInsideTag i)
    (hclosing : ∀ i ∈ closing, IsInsideTag i) (code : Text) :
    shown (tags opening ++ (escape code ++ (tags closing ++ ['\n']))) = code ++ ['\n'] := by
  rw [shown, stripTagsFrom_tags hopening,
    stripTagsFrom_append_of_notMem (Reference.mark_notMem_escape code), stripTagsFrom_tags hclosing]
  exact Reference.decode_escape_append code ['\n']

end Html

/-! ### Faithful highlighters -/

namespace Highlighter

/-- The highlighter shows the cleaned code of a language, if it knows it. The name of the language
does not end a tag then. -/
structure IsFaithfulTo [Highlighter] (language : Text) : Prop where
  end_notMem : ∀ markup, markup? language = some markup → '>' ∉ language
  shown : ∀ markup, markup? language = some markup →
    ∀ code, Html.shown (Html.highlighted (markup code)) = cleaned code ++ ['\n']

theorem shown_highlighted_escape (code : Text) :
    Html.shown (Html.highlighted (escape code)) = code ++ ['\n'] := by
  have htags : Html.highlighted (escape code) =
      Html.tags ["div class=\"highlight\"", "pre", "span", "/span"] ++
        (escape code ++ (Html.tags ["/pre", "/div"] ++ ['\n'])) := by
    have hclosing : ("</pre></div>\n" : Text) = Html.tags ["/pre", "/div"] ++ ['\n'] := by decide
    unfold Html.highlighted
    rw [hclosing, List.append_assoc]
    rfl
  rw [htags, Html.shown_tagged (by decide) (by decide)]

/-- The highlighter for plain text is faithful to every language. -/
theorem isFaithfulTo (language : Text) : IsFaithfulTo language where
  end_notMem := by
    intro markup h hmem
    obtain ⟨hlower, -⟩ := Option.ite_none_right_eq_some.mp h
    have hend : '>' ∈ Text.lower language := Text.mem_lowerFrom (by decide) (by decide) hmem false
    rw [hlower] at hend
    exact absurd hend (by decide)
  shown := by
    intro markup h code
    obtain ⟨-, hmarkup⟩ := Option.ite_none_right_eq_some.mp h
    rw [← Option.some.inj hmarkup]
    exact shown_highlighted_escape (cleaned code)

end Highlighter

namespace CodeBlock

open Highlighter (IsFaithfulTo cleaned)

/-! ### What a block shows -/

section

variable [Highlighter] {c : CodeBlock} {highlight : Bool}

/-- **A highlighted block shows its cleaned code**, if the highlighter is faithful to its
language. -/
theorem shown_code_of_isHighlighted (hfaithful : ∀ l ∈ c.language?, IsFaithfulTo l)
    (h : c.isHighlighted highlight) :
    Html.shown (Html.code highlight c.text c.info) = cleaned c.text ++ ['\n'] := by
  obtain ⟨rfl, l, markup, hl, hmarkup⟩ := isHighlighted_iff.mp h
  have hcontent : c.content true = markup c.text := by simp [content, markup?, hl, hmarkup]
  rw [code_of_isHighlighted h, hcontent, (hfaithful l hl).shown markup hmarkup]

/-- The tags before code that is not highlighted, each given by what stands inside of it. -/
def plainTags (c : CodeBlock) : List Text :=
  ["pre", "code" ++ c.language?.elim [] fun l => Html.attr "class" ("language-" ++ l)]

theorem code_eq_tags (h : c.isHighlighted highlight = false) :
    Html.code highlight c.text c.info =
      Html.tags c.plainTags ++ (escape c.text ++ (Html.tags ["/code", "/pre"] ++ ['\n'])) := by
  have hclosing : ("</code></pre>\n" : Text) = Html.tags ["/code", "/pre"] ++ ['\n'] := by decide
  rw [code_of_not_isHighlighted h, hclosing]
  simp [Html.tags, plainTags]

/-- **Any other block shows its code as it is**, if its language does not end the tag it stands
in. -/
theorem shown_code_of_not_isHighlighted (hlanguage : ∀ l ∈ c.language?, '>' ∉ l)
    (h : c.isHighlighted highlight = false) :
    Html.shown (Html.code highlight c.text c.info) = c.text ++ ['\n'] := by
  have hopening : ∀ i ∈ c.plainTags, Html.IsInsideTag i := by
    refine List.forall_mem_cons.mpr ⟨by decide, List.forall_mem_singleton.mpr ⟨?_, by simp⟩⟩
    cases hl : c.language? with
    | none => decide
    | some l => simpa [Html.attr] using hlanguage l hl
  rw [code_eq_tags h, Html.shown_tagged hopening (by decide)]

end

/-! ### Clean code -/

/-- Code that cleaning leaves as it is: a line break at its end, otherwise no blank at either end,
no carriage return, and no mark of its byte order. -/
structure IsClean (code : Text) : Prop where
  body : ∃ body, code = body ++ ['\n'] ∧ Text.strip body = body
  return_notMem : '\r' ∉ code
  unmarked : ∀ d ∈ code.head?, d.toNat ≠ 0xFEFF

theorem cleaned_of_unmarked (h : ∀ d ∈ t.head?, d.toNat ≠ 0xFEFF) :
    cleaned t = Text.strip (Text.unifyBreaks t) ++ ['\n'] := by
  cases t with
  | nil => rfl
  | cons d ds => simp [cleaned, h d rfl]

/-- Cleaning drops a mark of the byte order. -/
theorem cleaned_ne_of_marked (hd : d.toNat = 0xFEFF) (t : Text) : cleaned (d :: t) ≠ d :: t := by
  intro h
  have hne : d ≠ '\n' := fun heq => absurd (heq ▸ hd) (by decide)
  have hcount : (cleaned (d :: t)).count d ≤ t.count d := by
    have hstrip : (Text.strip (Text.unifyBreaks t)).count d ≤ (Text.unifyBreaks t).count d :=
      (Text.trim_sublist isBlank _).count_le d
    have hunify := Text.count_unifyBreaks_le hne t
    simp only [cleaned, hd, if_true, List.count_append, List.count_singleton]
    simp only [beq_iff_eq, Ne.symm hne, if_false]
    omega
  rw [h, List.count_cons_self] at hcount
  omega

theorem cleaned_eq_self_iff : cleaned t = t ↔ IsClean t := by
  constructor
  · intro h
    have hmark : ∀ d ∈ t.head?, d.toNat ≠ 0xFEFF := by
      intro d hd hmark
      obtain ⟨rest, rfl⟩ := List.head?_eq_some_iff.mp hd
      exact cleaned_ne_of_marked hmark rest h
    rw [cleaned_of_unmarked hmark] at h
    refine ⟨⟨_, h.symm, Text.trim_trim isBlank _⟩, ?_, hmark⟩
    intro hmem
    have hstrip : '\r' ∈ Text.strip (Text.unifyBreaks t) := by
      rw [← h] at hmem
      simpa using hmem
    exact Text.return_notMem_unifyBreaks t (Text.mem_of_mem_trim hstrip)
  · rintro ⟨⟨body, rfl, hbody⟩, hreturn, hmark⟩
    rw [cleaned_of_unmarked hmark, Text.unifyBreaks_of_notMem hreturn, Text.strip,
      Text.trim_concat_of_pos (by decide), ← Text.strip, hbody]

section

variable [Highlighter]

/-- **Highlighting shows the same code only if it is clean.** A block in an unknown language is
written in one way. One in a known language, to which the highlighter is faithful, shows its code as
it is without highlighting, and cleaned with it: the indentation of its first line is lost, and the
empty lines around it are. -/
theorem shown_highlighted_eq_iff (c : CodeBlock) (hfaithful : ∀ l ∈ c.language?, IsFaithfulTo l) :
    (c.isHighlighted true →
      Html.shown (Html.code false c.text c.info) = c.text ++ ['\n'] ∧
        Html.shown (Html.code true c.text c.info) = cleaned c.text ++ ['\n']) ∧
    (Html.shown (Html.code true c.text c.info) = Html.shown (Html.code false c.text c.info) ↔
      (c.isHighlighted true → IsClean c.text)) := by
  have hplain : c.isHighlighted false = false := rfl
  have hboth (h : c.isHighlighted true) :
      Html.shown (Html.code false c.text c.info) = c.text ++ ['\n'] ∧
        Html.shown (Html.code true c.text c.info) = cleaned c.text ++ ['\n'] := by
    obtain ⟨-, l, markup, hl, hmarkup⟩ := isHighlighted_iff.mp h
    have hfree : ∀ l' ∈ c.language?, '>' ∉ l' := by
      rintro l' hl'
      cases hl.symm.trans hl'
      exact (hfaithful l hl).end_notMem markup hmarkup
    exact ⟨shown_code_of_not_isHighlighted hfree hplain, shown_code_of_isHighlighted hfaithful h⟩
  refine ⟨hboth, ?_⟩
  cases h : c.isHighlighted true with
  | false =>
    have hsame : Html.code true c.text c.info = Html.code false c.text c.info := by
      rw [code_of_not_isHighlighted h, code_of_not_isHighlighted hplain]
    exact iff_of_true (by rw [hsame]) (fun hfalse => absurd hfalse Bool.false_ne_true)
  | true =>
    obtain ⟨hoff, hon⟩ := hboth h
    rw [hoff, hon, List.append_left_inj, cleaned_eq_self_iff]
    exact ⟨fun hclean _ => hclean, fun hclean => hclean rfl⟩

end

/-- The first line loses its indentation, and the second one keeps it. -/
theorem shown_highlighted_ne_of_indented :
    let c : CodeBlock := ⟨"  a\n  b\n", "text"⟩
    (∀ l ∈ c.language?, IsFaithfulTo l) ∧ c.isHighlighted true ∧
      Html.shown (Html.code true c.text c.info) = "a\n  b\n\n".toList ∧
      Html.shown (Html.code true c.text c.info) ≠ Html.shown (Html.code false c.text c.info) := by
  intro c
  have hfaithful : ∀ l ∈ c.language?, IsFaithfulTo l := fun l _ => Highlighter.isFaithfulTo l
  have hhighlighted : c.isHighlighted true := by decide
  obtain ⟨hboth, hiff⟩ := shown_highlighted_eq_iff c hfaithful
  obtain ⟨-, hon⟩ := hboth hhighlighted
  refine ⟨hfaithful, hhighlighted, hon, fun hsame => ?_⟩
  have hclean : cleaned c.text = c.text := cleaned_eq_self_iff.mpr (hiff.mp hsame hhighlighted)
  exact absurd hclean (by decide)

/-! ### The markup of a block -/

/-- The language and the code of a block are inside its markup: the language in an attribute that it
does not end, the code between two tags, and both are read back. -/
def StaysInside (read : Text → Text) (language code html : Text) : Prop :=
  ∃ x y, html = "<pre><code class=\"language-" ++ x ++ "\">" ++ y ++ "</code></pre>\n" ∧
    ('"' ∉ x ∧ '<' ∉ x ∧ '>' ∉ x) ∧ ('<' ∉ y ∧ '>' ∉ y) ∧ read x = language ∧ read y = code

/-- A text between quotes that is followed by a tag's end, with no quote in the one and no end of a
tag in the other: there is one way to read it. -/
theorem eq_of_attribute_eq {x y : Text} (hx : '"' ∉ x) (hy : '>' ∉ y)
    (h : language ++ '"' :: '>' :: t = x ++ '"' :: '>' :: y) : language = x := by
  rcases List.append_eq_append_iff.mp h with ⟨u, rfl, hu⟩ | ⟨u, rfl, hu⟩
  · cases u with
    | nil => exact (List.append_nil _).symm
    | cons d u =>
      obtain rfl := (List.cons.inj hu).1
      exact absurd (by simp) hx
  · match u, hu with
    | [], _ => exact List.append_nil x
    | d :: [], hu => simp at hu
    | d :: e :: u, hu =>
      have hy' := (List.cons.inj (List.cons.inj hu).2).2
      exact absurd (by simp [hy']) hy

/-- A block begins with a word of its info text, unless there is none. -/
theorem exists_language_of_strip {c : CodeBlock} (hinfo : c.info ≠ [])
    (hstrip : Text.strip c.info = c.info) :
    ∃ language, c.language? = some language := by
  obtain ⟨d, rest, hd⟩ := List.exists_cons_of_ne_nil hinfo
  have hsolid : isBlank d = false := Text.head?_trim (by rw [← Text.strip, hstrip, hd]; rfl)
  have hruns : Text.words c.info ≠ [] := by
    rw [hd, Text.words, Text.runs.eq_def]
    simp only [hsolid, Bool.not_false, if_true]
    split
    · exact List.cons_ne_nil _ _
    · split
      · split <;> exact List.cons_ne_nil _ _
      · exact List.cons_ne_nil _ _
  obtain ⟨language, words, hwords⟩ := List.exists_cons_of_ne_nil hruns
  exact ⟨language, by rw [language?, hwords, List.head?_cons]⟩

section

variable [Highlighter] {c : CodeBlock} {highlight : Bool}

theorem code_of_language (hlanguage : c.language? = some language)
    (hplain : c.isHighlighted highlight = false) :
    Html.code highlight c.text c.info =
      "<pre><code class=\"language-" ++ language ++ "\">" ++ escape c.text ++
        "</code></pre>\n" := by
  rw [code_of_not_isHighlighted hplain, hlanguage]
  simp [Html.attr]

/-- **A block stays inside its markup only if its language does.** The code always does, but the
language is written as it is: it must hold no quote and no mark of a tag, and stand for itself when
references are read. This holds for every way of reading references that reads what was written. -/
theorem staysInside_iff {read : Text → Text} (hread : ∀ t, read (escape t) = t) (highlight : Bool)
    (hinfo : c.info ≠ []) (hstrip : Text.strip c.info = c.info) :
    ∃ language, c.language? = some language ∧
      (c.isHighlighted highlight = false →
        (StaysInside read language c.text (Html.code highlight c.text c.info) ↔
          ('"' ∉ language ∧ '<' ∉ language ∧ '>' ∉ language) ∧ read language = language)) := by
  obtain ⟨language, hlanguage⟩ := exists_language_of_strip hinfo hstrip
  refine ⟨language, hlanguage, fun hplain => ?_⟩
  rw [code_of_language hlanguage hplain]
  constructor
  · rintro ⟨x, y, hhtml, hx, hy, hlang, -⟩
    have hinner : (language ++ '"' :: '>' :: escape c.text) ++ "</code></pre>\n" =
        (x ++ '"' :: '>' :: y) ++ "</code></pre>\n" := by
      simpa using hhtml
    obtain rfl := eq_of_attribute_eq hx.1 hy.2 (List.append_cancel_right hinner)
    exact ⟨hx, hlang⟩
  · rintro ⟨hfree, hlang⟩
    exact ⟨language, escape c.text, rfl, hfree,
      ⟨Reference.mark_notMem_escape _, Reference.end_notMem_escape _⟩, hlang, hread _⟩

end

/-- A quote in the language ends the attribute, and a tag of its own follows. -/
theorem staysInside_of_quote :
    let c : CodeBlock := ⟨"x", "a\"><b>"⟩
    c.info ≠ [] ∧ Text.strip c.info = c.info ∧ c.isHighlighted true = false ∧
      (∀ t, decode (escape t) = t) ∧
      Html.code true c.text c.info = "<pre><code class=\"language-a\"><b>\">x</code></pre>\n" ∧
      ¬ StaysInside decode "a\"><b>" c.text (Html.code true c.text c.info) := by
  intro c
  have hinfo : c.info ≠ [] := by decide
  have hstrip : Text.strip c.info = c.info := by decide
  have hplain : c.isHighlighted true = false := by decide
  obtain ⟨language, hlanguage, hiff⟩ :=
    staysInside_iff Reference.decode_escape true hinfo hstrip
  have hword : c.language? = some "a\"><b>" := by decide
  obtain rfl := Option.some.inj (hlanguage.symm.trans hword)
  refine ⟨hinfo, hstrip, hplain, Reference.decode_escape, by decide, fun h => ?_⟩
  exact ((hiff hplain).mp h).1.1 (by decide)

end CodeBlock

end Pageloom.Markdown
