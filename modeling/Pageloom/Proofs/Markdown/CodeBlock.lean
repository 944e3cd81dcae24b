import Mathlib.Data.List.Basic
import Pageloom.Markdown.Html

/-!
# Code blocks

The code blocks of a document, in the order in which they are written, and the element that each of
them is written as: an opening tag with the language, the code, and a closing tag. Between the tags
stands what the highlighter writes for the code, if the block is highlighted, and the code with its
markup characters as references if it is not.

## Main definitions

* `CodeBlock`: the code of a block and its info text; `CodeBlock.element` is how it is written.
* `CodeBlock.Keeps`: blocks in which highlighting leaves a word as it is.
* `Block.codes`, `codeBlocks`: the code blocks of a block, and those of a text.

## Main results

* `CodeBlock.code_eq_element`: the element is what is written.
-/

namespace Pageloom.Markdown

/-- A code block: the code, and what stands behind the opening fence. -/
structure CodeBlock where
  text : Text
  info : Text
deriving Repr, DecidableEq

/-! ### One code block -/

namespace CodeBlock

variable [Highlighter] {c : CodeBlock} {highlight : Bool}

/-- The language, if there is one. -/
def language? (c : CodeBlock) : Option Text := (Text.words c.info).head?

/-- What the highlighter writes for the code, if the block is highlighted. -/
def markup? (highlight : Bool) (c : CodeBlock) : Option Text :=
  if highlight then
    c.language?.bind fun language => (Highlighter.markup? language).map fun markup => markup c.text
  else none

/-- Whether the block is highlighted. -/
def isHighlighted (highlight : Bool) (c : CodeBlock) : Bool := (c.markup? highlight).isSome

/-- What stands before the code. -/
def opening (highlight : Bool) (c : CodeBlock) : Text :=
  if c.isHighlighted highlight then "<div class=\"highlight\"><pre><span></span>"
  else "<pre><code" ++ (c.language?.elim [] fun l => Html.attr "class" ("language-" ++ l)) ++ ">"

/-- What stands behind the code. -/
def closing (highlight : Bool) (c : CodeBlock) : Text :=
  if c.isHighlighted highlight then "</pre></div>" else "</code></pre>"

/-- What stands between the tags. -/
def content (highlight : Bool) (c : CodeBlock) : Text :=
  (c.markup? highlight).getD (Reference.escape c.text)

/-- How the block is written, without the line break behind it. -/
def element (highlight : Bool) (c : CodeBlock) : Text :=
  c.opening highlight ++ (c.content highlight ++ c.closing highlight)

/-- If the block is highlighted, a word of its code still stands in what is written for it. -/
def Keeps (highlight : Bool) (w : Text) (c : CodeBlock) : Prop :=
  w <:+: c.text → ∀ markup ∈ c.markup? highlight, w <:+: markup

/-- Code that is not highlighted is written with its markup characters as references. -/
theorem content_of_not_isHighlighted (h : c.isHighlighted highlight = false) :
    c.content highlight = Reference.escape c.text := by
  rw [content, Option.isSome_eq_false_iff.mp h |> Option.isNone_iff_eq_none.mp, Option.getD_none]

theorem isHighlighted_iff : c.isHighlighted highlight ↔
    highlight = true ∧
      ∃ l markup, c.language? = some l ∧ Highlighter.markup? l = some markup := by
  unfold isHighlighted markup?
  cases highlight with
  | false => simp
  | true => cases c.language? <;> simp [Option.isSome_iff_exists]

theorem code_of_isHighlighted (h : c.isHighlighted highlight) :
    Html.code highlight c.text c.info = Html.highlighted (c.content highlight) := by
  obtain ⟨rfl, l, markup, hl, hmarkup⟩ := isHighlighted_iff.mp h
  have hcontent : c.content true = markup c.text := by simp [content, markup?, hl, hmarkup]
  rw [language?] at hl
  simp [Html.code, hl, hmarkup, hcontent]

theorem code_of_not_isHighlighted (h : c.isHighlighted highlight = false) :
    Html.code highlight c.text c.info =
      "<pre><code" ++ (c.language?.elim [] fun l => Html.attr "class" ("language-" ++ l)) ++ ">" ++
        Reference.escape c.text ++ "</code></pre>\n" := by
  have hnone : ∀ l, c.language? = some l →
      (if highlight then Highlighter.markup? l else none) = none := by
    intro l hl
    cases highlight with
    | false => rfl
    | true =>
      simp only [isHighlighted, markup?, hl, if_true, Option.bind_some] at h
      simpa using h
  unfold Html.code
  dsimp only
  split
  · next l hl => rw [hnone l hl, language?, hl, Option.elim_some]
  · next hl => rw [language?, hl, Option.elim_none]

theorem opening_of_isHighlighted (h : c.isHighlighted highlight) :
    c.opening highlight = "<div class=\"highlight\"><pre><span></span>" := if_pos h

theorem opening_of_not_isHighlighted (h : c.isHighlighted highlight = false) :
    c.opening highlight = "<pre><code" ++
      (c.language?.elim [] fun l => Html.attr "class" ("language-" ++ l)) ++ ">" :=
  if_neg (ne_true_of_eq_false h)

theorem closing_of_isHighlighted (h : c.isHighlighted highlight) :
    c.closing highlight = "</pre></div>" := if_pos h

theorem closing_of_not_isHighlighted (h : c.isHighlighted highlight = false) :
    c.closing highlight = "</code></pre>" := if_neg (ne_true_of_eq_false h)

/-- **The element of a block** is what is written for it. -/
theorem code_eq_element (highlight : Bool) (c : CodeBlock) :
    Html.code highlight c.text c.info = c.element highlight ++ ['\n'] := by
  have hplain : ("</code></pre>\n" : Text) = "</code></pre>" ++ ['\n'] := by decide
  have hcolored : ("</pre></div>\n" : Text) = "</pre></div>" ++ ['\n'] := by decide
  cases h : c.isHighlighted highlight with
  | false =>
    rw [code_of_not_isHighlighted h, element, opening_of_not_isHighlighted h,
      content_of_not_isHighlighted h, closing_of_not_isHighlighted h, hplain]
    simp only [List.append_assoc]
  | true =>
    rw [code_of_isHighlighted h, element, opening_of_isHighlighted h, closing_of_isHighlighted h]
    unfold Html.highlighted
    rw [hcolored]
    simp only [List.append_assoc]

/-- The opening tags end in a tag mark. -/
theorem exists_opening_eq (highlight : Bool) (c : CodeBlock) :
    ∃ start, c.opening highlight = start ++ ['>'] := by
  have hcolored : ("<div class=\"highlight\"><pre><span></span>" : Text) =
      "<div class=\"highlight\"><pre><span></span" ++ ['>'] := by decide
  unfold opening
  split
  · exact ⟨_, hcolored⟩
  · exact ⟨_, rfl⟩

/-- The element ends in a tag of another name than a paragraph. -/
theorem exists_element_eq (highlight : Bool) (c : CodeBlock) :
    ∃ start last, c.element highlight = start ++ [last, '>'] ∧ last ≠ 'p' := by
  have hplain : ("</code></pre>" : Text) = "</code></pr" ++ ['e', '>'] := by decide
  have hcolored : ("</pre></div>" : Text) = "</pre></di" ++ ['v', '>'] := by decide
  unfold element closing
  split
  · refine ⟨c.opening highlight ++ (c.content highlight ++ "</pre></di"), 'v', ?_, by decide⟩
    rw [hcolored, List.append_assoc, List.append_assoc]
  · refine ⟨c.opening highlight ++ (c.content highlight ++ "</code></pr"), 'e', ?_, by decide⟩
    rw [hplain, List.append_assoc, List.append_assoc]

end CodeBlock

/-! ### The code blocks of a document -/

mutual

/-- The code blocks in a block, in order. -/
def Block.codes : Block → List CodeBlock
  | .code t info => [⟨t, info⟩]
  | .quote children => Block.codesAll children
  | .list _ _ items => Block.codesItems items
  | .blank | .paragraph _ | .bareText _ | .heading _ _ | .divider | .html _ | .table _ _ => []

/-- The code blocks in some blocks, in order. -/
def Block.codesAll : List Block → List CodeBlock
  | [] => []
  | b :: bs => b.codes ++ Block.codesAll bs

/-- The code blocks in the items of a list, in order. -/
def Block.codesItems : List (List Block) → List CodeBlock
  | [] => []
  | item :: items => Block.codesAll item ++ Block.codesItems items

end

namespace Block

variable {b : Block} {bs item : List Block} {items : List (List Block)}

theorem codes_subset_codesAll (h : b ∈ bs) : b.codes ⊆ codesAll bs := by
  induction bs with
  | nil => cases h
  | cons first bs ih =>
    rw [codesAll]
    rcases List.mem_cons.mp h with rfl | h
    · exact List.subset_append_left _ _
    · exact List.Subset.trans (ih h) (List.subset_append_right _ _)

theorem codesAll_subset_codesItems (h : item ∈ items) : codesAll item ⊆ codesItems items := by
  induction items with
  | nil => cases h
  | cons first items ih =>
    rw [codesItems]
    rcases List.mem_cons.mp h with rfl | h
    · exact List.subset_append_left _ _
    · exact List.Subset.trans (ih h) (List.subset_append_right _ _)

end Block

/-- The code blocks of a text, and behind them those of the notes cited in it. -/
def codeBlocks [Highlighter] (style : Style) (t : Text) : List CodeBlock :=
  let (bs, refs) := Document.read style.extensions t
  let (_, p) := Html.blocks style refs bs {}
  Block.codesAll bs ++ (Note.allBlocks style.extensions refs p.cited).1.flatMap Block.codesAll

end Pageloom.Markdown
