import Pageloom.Proofs.Markdown.Writing
import Pageloom.Proofs.Text.Reference

/-!
# Code blocks in the HTML of a document

Every code block of a document is written as an element. The elements stand in the HTML one behind
the other, in the order of the blocks and first those of the text, then those of its notes.

A note is trimmed when it is finished, and the end of its last paragraph is opened again. Neither
reaches into an element of code, which ends in another tag.

## Main definitions

* `Html.shown`: what a reader sees of an element's content.

## Main results

* `inOrder_toHtml`: the elements stand in the HTML in order.
-/

namespace Pageloom.Markdown

variable {t : Text}

/-! ### What is shown -/

namespace Html

/-- What a reader sees of the content of an element: it without tags, its references read. -/
def shown (content : Text) : Text := Reference.decode (stripTagsFrom 0 content)

end Html

/-! ### Blocks -/

open Text (InOrder)

variable [Highlighter] {c : CodeBlock} {highlight : Bool} {style : Style}

/-- The elements of code blocks. -/
abbrev elements (style : Style) (cs : List CodeBlock) : List Text :=
  cs.map (CodeBlock.element style.highlightCode)

theorem elements_append (style : Style) (cs ds : List CodeBlock) :
    elements style (cs ++ ds) = elements style cs ++ elements style ds := List.map_append

mutual

/-- The code blocks in a block are written in order. -/
theorem inOrder_block (style : Style) (refs : References) : (b : Block) → (p : Written) →
    InOrder (elements style b.codes) (Html.block style refs b p).1
  | .code t info, p => by
    rw [Html.block_code, CodeBlock.code_eq_element style.highlightCode ⟨t, info⟩]
    exact (InOrder.singleton _).extend _
  | .quote children, p => by
    have hchildren := inOrder_blocks style refs children p
    rw [Html.block_quote]
    exact (hchildren.prepend _).extend _
  | .list start _ items, p => by
    have hitems := inOrder_listItems style refs items p
    rw [Html.block_list]
    exact (hitems.prepend _).extend _
  | .blank, _ | .paragraph _, _ | .bareText _, _ | .heading _ _, _ | .divider, _ | .html _, _
  | .table _ _, _ => InOrder.nil _

theorem inOrder_blocks (style : Style) (refs : References) : (bs : List Block) → (p : Written) →
    InOrder (elements style (Block.codesAll bs)) (Html.blocks style refs bs p).1
  | [], _ => InOrder.nil _
  | b :: bs, p => by
    have hb := inOrder_block style refs b p
    have hbs := inOrder_blocks style refs bs (Html.block style refs b p).2
    simp only [Html.blocks, Block.codesAll, elements_append]
    exact hb.append hbs

theorem inOrder_listItems (style : Style) (refs : References) :
    (items : List (List Block)) → (p : Written) →
    InOrder (elements style (Block.codesItems items)) (Html.listItems style refs items p).1
  | [], _ => InOrder.nil _
  | item :: items, p => by
    have hitem := inOrder_blocks style refs item p
    have hitems := inOrder_listItems style refs items (Html.blocks style refs item p).2
    simp only [Html.listItems, Block.codesItems, elements_append]
    unfold Html.element
    exact (((hitem.prepend _).extend _).extend _ |>.extend _ |>.extend _).append hitems

end

/-! ### Notes -/

/-- An element of code does not reach over the end of a text into blanks. -/
theorem CodeBlock.not_suffix_of_isBlank {a v : Text} (hv : v ≠ []) (hblank : ∀ d ∈ v, isBlank d) :
    ¬ c.element highlight <:+ a ++ v := by
  obtain ⟨start, last, helement, -⟩ := c.exists_element_eq highlight
  obtain ⟨v, d, rfl⟩ := (List.eq_nil_or_concat v).resolve_left hv
  rintro ⟨before, h⟩
  have hend : '>' = d := by
    have := congrArg List.getLast? h
    simpa [helement] using this
  have hd : isBlank '>' := hend ▸ hblank d (by simp)
  exact absurd hd (by decide)

/-- An element of code does not reach over the end of a text into the end of a paragraph. -/
theorem CodeBlock.not_suffix_of_prefix {a v : Text} (hv : v ≠ []) (hend : v <+: "</p>") :
    ¬ c.element highlight <:+ a ++ v := by
  obtain ⟨start, last, helement, hlast⟩ := c.exists_element_eq highlight
  rintro ⟨before, h⟩
  have hlast? : v.getLast? = some '>' := by
    have := congrArg List.getLast? h
    simpa [helement, List.getLast?_append_of_ne_nil _ hv] using this.symm
  have hwhole : ∀ v ∈ List.inits "</p>", v.getLast? = some '>' → v = "</p>" := by decide
  have hmark : ("</p>" : Text) = ['<', '/', 'p', '>'] := by decide
  obtain rfl := hwhole v ((List.mem_inits _ _).mpr hend) hlast?
  rw [helement, hmark] at h
  have hp : last = 'p' := by
    have := congrArg (fun t : Text => t.dropLast.getLast?) h
    simpa [List.dropLast_append_of_ne_nil] using this
  exact hlast hp

/-- What stands in the text of a note stands in its entry, if it is code. -/
theorem inOrder_entry {cs : List CodeBlock} (h : InOrder (elements style cs) t) (index : ℕ) :
    InOrder (elements style cs) (Note.entry index t) := by
  have hstrip : InOrder (elements style cs) (Text.stripEnd t) := by
    obtain ⟨blanks, ht, hblanks⟩ := Text.exists_trimEnd_append isBlank t
    rw [ht] at h
    refine h.of_append fun w hw v hv hpre => ?_
    obtain ⟨c, -, rfl⟩ := List.mem_map.mp hw
    exact c.not_suffix_of_isBlank hv fun d hd => hblanks d (hpre.mem hd)
  unfold Note.entry
  dsimp only
  refine (InOrder.prepend _ ?_).extend _
  split
  · next hparagraph =>
    obtain ⟨start, hstart⟩ := Text.endsWith_iff.mp hparagraph
    have hlength : ("</p>" : Text).length = 4 := by decide
    rw [← hstart, List.length_append, hlength, Nat.add_sub_cancel, List.take_left]
    rw [← hstart] at hstrip
    have hcut : InOrder (elements style cs) start := hstrip.of_append fun w hw v hv hpre => by
      obtain ⟨c, -, rfl⟩ := List.mem_map.mp hw
      exact c.not_suffix_of_prefix hv hpre
    exact (hcut.extend _).extend _
  · exact (hstrip.extend _).extend _

theorem inOrder_entries (style : Style) (refs : References) (index : ℕ) (notes : List (List Block))
    (p : Written) :
    InOrder (elements style (notes.flatMap Block.codesAll))
      (Note.entries style refs index notes p).1 := by
  induction notes generalizing index p with
  | nil => exact InOrder.nil _
  | cons note notes ih =>
    have hnote := inOrder_entry (inOrder_blocks style refs note p) index
    rw [List.flatMap_cons, elements_append]
    exact hnote.append (ih (index + 1) (Html.blocks style refs note p).2)

/-- **Every code block of a text is written**, in the order of the blocks. -/
theorem inOrder_toHtml (style : Style) (t : Text) :
    InOrder (elements style (codeBlocks style t)) (toHtml style t) := by
  unfold codeBlocks toHtml
  dsimp only
  rw [elements_append]
  have hbody := inOrder_blocks style (Document.read style.extensions t).2
    (Document.read style.extensions t).1 {}
  split
  · next hcited =>
    rw [hcited]
    simpa [Note.allBlocks] using hbody
  · rw [List.append_assoc, List.append_assoc]
    refine hbody.append ?_
    exact ((inOrder_entries style _ 1 _ _).extend _).prepend _

end Pageloom.Markdown
