import Pageloom.Proofs.Markdown.CodeBlock
import Pageloom.Proofs.Markdown.InlineReader

/-!
# Words in the HTML of a document

A word that can be seen in inline content stands in its HTML. Texts one after the other are written
as one, so a word that they spell together is written in one piece. Blocks write their content and
put tags around it; code and HTML are written as they are, up to the markup characters in code.
Highlighted code is written as the highlighter wants, which may tear a word apart.

A block that holds a word is one of whose text the word is written. Of inline content this is known
if no target or image comes before the word.

## Main definitions

* `Block.Shows`: blocks that hold a word.

## Main results

* `Html.infix_inlines`, `Html.infix_content`: words in inline content.
* `Html.infix_block`, `Html.infix_blocks`: words in blocks.
-/

namespace Pageloom.Markdown

open InlineReader (targetMarks)

/-- A block that holds the word: in inline content, in code, in HTML, or in a block inside of it. -/
inductive Block.Shows (w : Text) : Block → Prop where
  | paragraph {t : Text} (h : Text.Stands targetMarks w t) : Block.Shows w (.paragraph t)
  | bareText {t : Text} (h : Text.Stands targetMarks w t) : Block.Shows w (.bareText t)
  | heading {level : ℕ} {t : Text} (h : Text.Stands targetMarks w t) :
      Block.Shows w (.heading level t)
  | code {t info : Text} (h : w <:+: t) : Block.Shows w (.code t info)
  | html {t : Text} (h : w <:+: t) : Block.Shows w (.html t)
  | quote {b : Block} {bs : List Block} (hb : b ∈ bs) (h : Block.Shows w b) :
      Block.Shows w (.quote bs)
  | list {start : Option ℕ} {tight : Bool} {b : Block} {item : List Block}
      {items : List (List Block)} (hitem : item ∈ items) (hb : b ∈ item) (h : Block.Shows w b) :
      Block.Shows w (.list start tight items)
  | head {cell : Block.Cell} {head : List Block.Cell} {rows : List (List Block.Cell)}
      (hcell : cell ∈ head) (h : Text.Stands targetMarks w cell.text) :
      Block.Shows w (.table head rows)
  | row {cell : Block.Cell} {row head : List Block.Cell} {rows : List (List Block.Cell)}
      (hrow : row ∈ rows) (hcell : cell ∈ row) (h : Text.Stands targetMarks w cell.text) :
      Block.Shows w (.table head rows)

variable {w t : Text} {is rest : List Inline} {i : Inline} {b : Block} {bs : List Block}

namespace Html

/-! ### Inline content -/

/-- What stands between an opening and a closing tag. -/
theorem infix_tagged (opening content name : Text) (start close : Text) :
    content <:+: opening ++ content ++ start ++ name ++ close :=
  ⟨opening, start ++ name ++ close, by simp only [List.append_assoc]⟩

theorem infix_element (name content : Text) : content <:+: element name content :=
  infix_tagged ("<" ++ name ++ ">") content name "</" ">"

theorem infix_link (url title content : Text) : content <:+: link url title content :=
  List.infix_append _ content _

/-- Text right before the pieces is written with them. -/
theorem infix_inlines_of_pending (hw : IsWord w) (plain : Bool) {pending : Text}
    (h : w <:+: pending) (is : List Inline) : w <:+: inlines plain pending is := by
  have hnormal := infix_normalize hw h
  induction is generalizing pending with
  | nil => exact hnormal
  | cons i is ih =>
    cases i with
    | text t =>
      have hpending := h.trans (List.prefix_append pending t).isInfix
      exact ih hpending (infix_normalize hw hpending)
    | _ =>
      rw [inlines]
      · rw [List.append_assoc]
        exact hnormal.trans (List.prefix_append _ _).isInfix
      · simp

theorem inlines_texts (plain : Bool) (pending : Text) (ts : List Text) (is : List Inline) :
    inlines plain pending (ts.map .text ++ is) = inlines plain (pending ++ ts.flatten) is := by
  induction ts generalizing pending with
  | nil => simp
  | cons t ts ih => rw [List.map_cons, List.cons_append, inlines, ih]; simp

/-- What stands before some pieces, and text right before it, leave a word of the pieces. -/
theorem infix_inlines_append {plain : Bool} (before : List Inline)
    (h : ∀ pending, w <:+: inlines plain pending rest) (pending : Text) :
    w <:+: inlines plain pending (before ++ rest) := by
  induction before generalizing pending with
  | nil => exact h pending
  | cons i before ih =>
    cases i with
    | text t => exact ih _
    | _ =>
      rw [List.cons_append, inlines]
      · exact (ih []).trans (List.suffix_append _ _).isInfix
      · simp

/-- A piece other than text is written by itself. -/
theorem infix_inlines_cons {plain : Bool} (hi : ∀ t, i ≠ .text t) (h : w <:+: inline plain i)
    (pending : Text) (rest : List Inline) : w <:+: inlines plain pending (i :: rest) := by
  rw [inlines]
  · exact h.trans (List.infix_append _ _ _)
  · exact hi

/-- **A word that can be seen in pieces stands in their HTML**, whatever comes after them. -/
theorem infix_inlines (hw : IsWord w) (h : Shows w is) (plain : Bool) (pending : Text)
    (rest : List Inline) : w <:+: inlines plain pending (is ++ rest) := by
  have hchildren {is : List Inline}
      (ih : ∀ pending rest, w <:+: inlines plain pending (is ++ rest)) :
      w <:+: inlines plain [] is := by simpa using ih [] []
  induction h generalizing pending rest with
  | @texts ts h =>
    rw [inlines_texts]
    exact infix_inlines_of_pending hw plain (h.trans (List.suffix_append pending _).isInfix) rest
  | code h =>
    exact infix_inlines_cons (by simp) ((infix_escapeQuoted hw h).trans (infix_element _ _)) _ _
  | html h => exact infix_inlines_cons (by simp) h _ _
  | autolink hlabel _ =>
    exact infix_inlines_cons (by simp) ((infix_normalize hw hlabel).trans (infix_link _ _ _)) _ _
  | emphasis _ ih =>
    exact infix_inlines_cons (by simp) ((hchildren ih).trans (infix_element _ _)) _ _
  | strong _ ih =>
    exact infix_inlines_cons (by simp) ((hchildren ih).trans (infix_element _ _)) _ _
  | deleted _ ih =>
    exact infix_inlines_cons (by simp) ((hchildren ih).trans (infix_element _ _)) _ _
  | link _ ih =>
    exact infix_inlines_cons (by simp) ((hchildren ih).trans (infix_link _ _ _)) _ _
  | within before behind _ ih =>
    rw [List.append_assoc, List.append_assoc]
    exact infix_inlines_append before (fun pending => ih pending _) pending

theorem infix_content (ext : Extensions) (hw : IsWord w) (h : Text.Stands targetMarks w t)
    (p : Written) : w <:+: (content ext {} t p).1 := by
  have htrim := h.trim hw.ne_nil (hw.forall_mem (P := fun c => isEdgeBlank c = false) (by decide))
  have hshows := InlineReader.shows_read ext p.cited hw htrim
  simpa [content] using infix_inlines hw hshows false [] []

/-! ### Code -/

theorem infix_code [Highlighter] {highlight : Bool} {c : CodeBlock} (hw : IsWord w)
    (h : w <:+: c.text) (hkept : c.Keeps highlight w) :
    w <:+: code highlight c.text c.info := by
  have hcontent : w <:+: c.content highlight := by
    unfold CodeBlock.content
    cases hmarkup : c.markup? highlight with
    | none => exact infix_escape hw h
    | some markup => exact hkept h markup hmarkup
  have helement : c.content highlight <:+: c.element highlight :=
    ⟨_, _, by rw [CodeBlock.element, List.append_assoc]⟩
  rw [CodeBlock.code_eq_element]
  exact (hcontent.trans helement).trans (List.prefix_append _ _).isInfix

/-! ### Headings and tables -/

theorem infix_heading (level : ℕ) (content : Text) : content <:+: heading level content :=
  (infix_element _ content).trans (List.prefix_append _ _).isInfix

theorem infix_identified (level : ℕ) (content : Text) (p : Written) :
    content <:+: (identified level content p).1 :=
  infix_tagged _ content _ _ _

theorem infix_cells (ext : Extensions) {cell : Block.Cell} {cells : List Block.Cell} (hw : IsWord w)
    (hcell : cell ∈ cells) (h : Text.Stands targetMarks w cell.text) (name : Text) (p : Written) :
    w <:+: (Html.cells ext {} name cells p).1 := by
  induction cells generalizing p with
  | nil => cases hcell
  | cons first cells ih =>
    unfold Html.cells
    dsimp only
    rcases List.mem_cons.mp hcell with rfl | hcell
    · refine (infix_content ext hw h p).trans ?_
      exact (infix_tagged _ _ _ _ _).trans (List.prefix_append _ _).isInfix
    · exact (ih hcell _).trans (List.suffix_append _ _).isInfix

theorem infix_rows (ext : Extensions) {cell : Block.Cell} {row : List Block.Cell}
    {rows : List (List Block.Cell)}
    (hw : IsWord w) (hrow : row ∈ rows) (hcell : cell ∈ row)
    (h : Text.Stands targetMarks w cell.text) (p : Written) :
    w <:+: (Html.rows ext {} rows p).1 := by
  induction rows generalizing p with
  | nil => cases hrow
  | cons first rows ih =>
    unfold Html.rows
    dsimp only
    rcases List.mem_cons.mp hrow with rfl | hrow
    · refine (infix_cells ext hw hcell h "td" p).trans ?_
      exact (List.infix_append _ _ _).trans (List.prefix_append _ _).isInfix
    · exact (ih hrow _).trans (List.suffix_append _ _).isInfix

theorem infix_table (ext : Extensions) {cell : Block.Cell} {head : List Block.Cell}
    {rows : List (List Block.Cell)} (hw : IsWord w) (hcell : cell ∈ head ∨ ∃ row ∈ rows, cell ∈ row)
    (h : Text.Stands targetMarks w cell.text) (p : Written) :
    w <:+: (table ext {} head rows p).1 := by
  unfold table
  dsimp only
  rcases hcell with hcell | ⟨row, hrow, hcell⟩
  · have hhead : w <:+: "<thead>\n<tr>\n" ++ (cells ext {} "th" head p).1 ++ "</tr>\n</thead>\n" :=
      (infix_cells ext hw hcell h "th" p).trans (List.infix_append _ _ _)
    exact hhead.trans (infix_tagged _ _ _ _ _)
  · exact (infix_rows ext hw hrow hcell h _).trans (List.infix_append _ _ _)

/-! ### Blocks -/

variable [Highlighter] {style : Style}

theorem infix_blocks (h : ∀ p, w <:+: (block style {} b p).1) (hb : b ∈ bs) (p : Written) :
    w <:+: (blocks style {} bs p).1 := by
  induction bs generalizing p with
  | nil => cases hb
  | cons first bs ih =>
    rw [blocks]
    rcases List.mem_cons.mp hb with rfl | hb
    · exact (h p).trans (List.prefix_append _ _).isInfix
    · exact (ih hb _).trans (List.suffix_append _ _).isInfix

theorem infix_listItems {items : List (List Block)} (h : ∀ p, w <:+: (block style {} b p).1)
    (hb : b ∈ bs) (hitem : bs ∈ items) (p : Written) :
    w <:+: (listItems style {} items p).1 := by
  induction items generalizing p with
  | nil => cases hitem
  | cons first items ih =>
    rw [listItems]
    rcases List.mem_cons.mp hitem with rfl | hitem
    · refine ((infix_blocks h hb p).trans (infix_element "li" _)).trans ?_
      exact (List.prefix_append _ _).isInfix.trans (List.prefix_append _ _).isInfix
    · exact (ih hitem _).trans (List.suffix_append _ _).isInfix

theorem block_paragraph (style : Style) (t : Text) (p : Written) :
    (block style {} (.paragraph t) p).1 = element "p" (content style.extensions {} t p).1 ++ "\n" :=
  rfl

theorem block_heading (style : Style) (level : ℕ) (t : Text) (p : Written) :
    (block style {} (.heading level t) p).1 =
      if style.headingIds then
        (identified level (content style.extensions {} t p).1 (content style.extensions {} t p).2).1
      else heading level (content style.extensions {} t p).1 := by
  change (if style.headingIds then _ else _ : Text × Written).1 = _
  split <;> rfl

theorem block_code (style : Style) (refs : References) (t info : Text) (p : Written) :
    (block style refs (.code t info) p).1 = code style.highlightCode t info := rfl

theorem block_quote (style : Style) (refs : References) (bs : List Block) (p : Written) :
    (block style refs (.quote bs) p).1 =
      "<blockquote>\n" ++ (blocks style refs bs p).1 ++ "</blockquote>\n" := rfl

theorem block_list (style : Style) (refs : References) (start : Option ℕ) (tight : Bool)
    (items : List (List Block)) (p : Written) :
    (block style refs (.list start tight items) p).1 =
      listTag start ++ (listItems style refs items p).1 ++ listEnd start := rfl

/-- **A word of a block** stands in its HTML, if highlighting leaves it as it is. -/
theorem infix_block (style : Style) (hw : IsWord w) (h : Block.Shows w b)
    (hkept : ∀ c ∈ b.codes, c.Keeps style.highlightCode w) (p : Written) :
    w <:+: (block style {} b p).1 := by
  induction h generalizing p with
  | paragraph h =>
    rw [block_paragraph]
    exact ((infix_content _ hw h p).trans (infix_element _ _)).trans
      (List.prefix_append _ _).isInfix
  | bareText h => exact infix_content _ hw h p
  | heading h =>
    rw [block_heading]
    split
    · exact (infix_content _ hw h p).trans (infix_identified _ _ _)
    · exact (infix_content _ hw h p).trans (infix_heading _ _)
  | @code t info h =>
    rw [block_code]
    exact infix_code (c := ⟨t, info⟩) hw h (hkept _ List.mem_cons_self)
  | html h => exact h.trans (List.prefix_append _ _).isInfix
  | quote hb _ ih =>
    have hchild := ih fun c hc => hkept c (Block.codes_subset_codesAll hb hc)
    rw [block_quote]
    exact (infix_blocks hchild hb p).trans (List.infix_append _ _ _)
  | list hitem hb _ ih =>
    have hchild := ih fun c hc => hkept c
      (Block.codesAll_subset_codesItems hitem (Block.codes_subset_codesAll hb hc))
    rw [block_list]
    exact (infix_listItems hchild hb hitem p).trans (List.infix_append _ _ _)
  | head hcell h => exact infix_table _ hw (.inl hcell) h p
  | row hrow hcell h => exact infix_table _ hw (.inr ⟨_, hrow, hcell⟩) h p

end Html

end Pageloom.Markdown
