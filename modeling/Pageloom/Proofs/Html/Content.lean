import Mathlib.Data.Bool.AllAny
import Mathlib.Data.List.DropRight
import Mathlib.Data.List.Infix
import Pageloom.Html.Minify

/-!
# What minifying leaves of the pieces

Once the comments are gone, minifying only thins out blanks: no other piece is added, changed, moved
or lost. So the characters of the result that are not blank are those of the pieces.

A kept element is in its place all the time, but text that spells the written form of a kept element
would be taken for one in the end. The written form holds a tag mark at its start only, and up to
its number no blank. A text that does not occur in the pieces and is made like that does not come up
when blanks go, so it is enough to look for it before.

## Main definitions

* `Html.print`: the text of some pieces.
* `Html.content`: the characters of a text that are not blank.
* `Html.keepMark`: what the written form of a kept element begins with.

## Main results

* `Html.restore_of_free`: without written forms among them, the pieces stand for their own text.
* `Html.exists_minify_of_free`: then minifying succeeds and keeps the content of the pieces.
-/

namespace Pageloom.Html

variable {t word : Text} {ps qs : List Piece} {inside afterTag : Bool}

/-- The text of a piece. -/
def Piece.text : Piece → Text
  | .char c => [c]
  | .kept element => element

/-- The text of some pieces. -/
def print (ps : List Piece) : Text := ps.flatMap Piece.text

/-- The characters of a text that are not blank, in order. -/
def content (t : Text) : Text := t.filter fun c => !isBlank c

/-- The pieces that are not blank, in order. -/
def solid (ps : List Piece) : List Piece := ps.filter fun p => !p.isBlank

/-- What the written form of a kept element begins with. -/
def keepMark : Text := "<folio-keep"

/-! ### Texts of pieces -/

@[simp] theorem print_nil : print [] = [] := rfl

@[simp] theorem print_cons (p : Piece) (ps : List Piece) : print (p :: ps) = p.text ++ print ps :=
  List.flatMap_cons

@[simp] theorem print_append (ps qs : List Piece) : print (ps ++ qs) = print ps ++ print qs :=
  List.flatMap_append

@[simp] theorem print_map_char (t : Text) : print (t.map .char) = t := by
  induction t with
  | nil => rfl
  | cons c t ih => simp [Piece.text, ih]

theorem infix_print (h : word.map .char <:+: ps) : word <:+: print ps := by
  obtain ⟨before, behind, rfl⟩ := h
  exact ⟨print before, print behind, by simp⟩

@[simp] theorem content_append (t u : Text) : content (t ++ u) = content t ++ content u :=
  List.filter_append ..

theorem content_print_solid (ps : List Piece) :
    content (print (solid ps)) = content (print ps) := by
  induction ps with
  | nil => rfl
  | cons p ps ih =>
    by_cases hp : p.isBlank
    · cases p with
      | kept element => cases hp
      | char c =>
        have hc : isBlank c = true := hp
        simp [solid, Piece.isBlank, Piece.text, content, hc] at ih ⊢
        exact ih
    · have hsolid : solid (p :: ps) = p :: solid ps := List.filter_cons_of_pos (by simpa using hp)
      rw [hsolid, print_cons, print_cons, content_append, content_append, ih]

/-! ### Solid pieces stay -/

theorem solid_squeezeBlanksFrom (inside : Bool) (ps : List Piece) :
    solid (squeezeBlanksFrom inside ps) = solid ps := by
  induction ps generalizing inside with
  | nil => rfl
  | cons p ps ih =>
    have hspace : Piece.isBlank (.char ' ') = true := by decide
    rw [squeezeBlanksFrom]
    split_ifs with hp hinside <;> simp only [solid] at ih ⊢
    · simp [ih, hp]
    · simp [ih, hp, hspace]
    · simp [ih, hp]

theorem solid_joinTagsFrom (afterTag : Bool) (ps : List Piece) :
    solid (joinTagsFrom afterTag ps) = solid ps := by
  induction ps generalizing afterTag with
  | nil => rfl
  | cons p ps ih =>
    rw [joinTagsFrom]
    split_ifs with hdrop <;> simp only [solid] at ih ⊢
    · have hp : p.isBlank = true := by simp_all
      simp [ih, hp]
    · by_cases hp : p.isBlank <;> simp [ih, hp]

theorem solid_dropWhile (ps : List Piece) : solid (ps.dropWhile Piece.isBlank) = solid ps := by
  induction ps with
  | nil => rfl
  | cons p ps ih => by_cases hp : p.isBlank <;> simp_all [solid]

theorem solid_trimBlanks (ps : List Piece) : solid (trimBlanks ps) = solid ps := by
  have hreverse (qs : List Piece) : solid qs.reverse = (solid qs).reverse := List.filter_reverse ..
  rw [trimBlanks, hreverse, solid_dropWhile, hreverse, solid_dropWhile, List.reverse_reverse]

/-- Behind the comments, minifying leaves everything in place that is not blank. -/
theorem solid_minifiedPieces (t : Text) :
    solid (minifiedPieces t) = solid (dropComments (pieces t)) := by
  rw [minifiedPieces, solid_trimBlanks, joinTags, solid_joinTagsFrom, squeezeBlanks,
    solid_squeezeBlanksFrom]

/-! ### No word comes up -/

theorem prefix_of_prefix_squeezeBlanks (hblank : ∀ c ∈ word, isBlank c = false)
    (h : word.map .char <+: squeezeBlanksFrom false ps) : word.map .char <+: ps := by
  induction ps generalizing word with
  | nil => exact h
  | cons p ps ih =>
    cases word with
    | nil => exact List.nil_prefix
    | cons c word =>
      obtain ⟨hc, hword⟩ := List.forall_mem_cons.mp hblank
      rw [squeezeBlanksFrom] at h
      split_ifs at h with hp hf
      · cases hf
      · have hspace := (List.cons_prefix_cons.mp h).1
        cases hspace
        exact absurd hc (by decide)
      · obtain ⟨rfl, hrest⟩ := List.cons_prefix_cons.mp h
        exact List.cons_prefix_cons.mpr ⟨rfl, ih hword hrest⟩

/-- Without blanks in it, a word that stands in the pieces after squeezing stood there before. -/
theorem infix_of_infix_squeezeBlanks (hblank : ∀ c ∈ word, isBlank c = false)
    (h : word.map .char <:+: squeezeBlanksFrom inside ps) : word.map .char <:+: ps := by
  induction ps generalizing inside with
  | nil => exact h
  | cons p ps ih =>
    rw [squeezeBlanksFrom] at h
    split_ifs at h with hp hinside
    · exact List.infix_cons (ih h)
    · rcases List.infix_cons_iff.mp h with hpre | hrest
      · cases word with
        | nil => exact List.nil_infix
        | cons c word =>
          have hspace := (List.cons_prefix_cons.mp hpre).1
          cases hspace
          exact absurd (hblank ' ' (.head _)) (by decide)
      · exact List.infix_cons (ih hrest)
    · rcases List.infix_cons_iff.mp h with hpre | hrest
      · have hsame : squeezeBlanksFrom false (p :: ps) = p :: squeezeBlanksFrom false ps := by
          rw [squeezeBlanksFrom, if_neg hp]
        exact (prefix_of_prefix_squeezeBlanks hblank (hsame ▸ hpre)).isInfix
      · exact List.infix_cons (ih hrest)

theorem prefix_of_prefix_joinTags (hend : '>' ∉ word)
    (h : word.map .char <+: joinTagsFrom false ps) : word.map .char <+: ps := by
  induction ps generalizing word with
  | nil => exact h
  | cons p ps ih =>
    cases word with
    | nil => exact List.nil_prefix
    | cons c word =>
      obtain ⟨hc, hword⟩ := not_or.mp (List.mem_cons.not.mp hend)
      obtain ⟨rfl, hrest⟩ := List.cons_prefix_cons.mp h
      have hopen : Piece.endsTag (.char c) = false := by simpa [Piece.endsTag] using Ne.symm hc
      rw [hopen] at hrest
      exact List.cons_prefix_cons.mpr ⟨rfl, ih hword hrest⟩

/-- A blank goes only behind the end of a tag, so no word without such an end comes up. -/
theorem infix_of_infix_joinTags (hend : '>' ∉ word)
    (h : word.map .char <:+: joinTagsFrom afterTag ps) : word.map .char <:+: ps := by
  induction ps generalizing afterTag with
  | nil => exact h
  | cons p ps ih =>
    rw [joinTagsFrom] at h
    split_ifs at h with hdrop
    · exact List.infix_cons (ih h)
    · rcases List.infix_cons_iff.mp h with hpre | hrest
      · have hsame : joinTagsFrom false (p :: ps) = p :: joinTagsFrom p.endsTag ps := rfl
        exact (prefix_of_prefix_joinTags hend (hsame ▸ hpre)).isInfix
      · exact List.infix_cons (ih hrest)

theorem trimBlanks_isInfix (ps : List Piece) : trimBlanks ps <:+: ps :=
  (List.rdropWhile_prefix ..).isInfix.trans (List.dropWhile_suffix ..).isInfix

/-- A word without blanks and without the end of a tag that is spelled in the end is spelled before
blanks go. -/
theorem infix_of_infix_thinned (hblank : ∀ c ∈ word, isBlank c = false) (hend : '>' ∉ word)
    (h : word.map .char <:+: minifiedPieces t) : word.map .char <:+: dropComments (pieces t) :=
  infix_of_infix_squeezeBlanks hblank
    (infix_of_infix_joinTags hend (h.trans (trimBlanks_isInfix _)))

/-- A mark of a kept element that is spelled in the end is spelled before blanks go. -/
theorem infix_of_infix_minifiedPieces (h : keepMark.map .char <:+: minifiedPieces t) :
    keepMark.map .char <:+: dropComments (pieces t) :=
  infix_of_infix_thinned (List.all_iff_forall_prop.mp (by decide)) (by decide) h

/-! ### Restoring -/

theorem dropLiteral?_eq_some_iff : dropLiteral? word ps = some qs ↔ ps = word.map .char ++ qs := by
  induction word generalizing ps with
  | nil => simp [dropLiteral?]
  | cons c word ih =>
    cases ps with
    | nil => simp [dropLiteral?]
    | cons p ps =>
      cases p with
      | kept element => simp [dropLiteral?]
      | char d =>
        by_cases hcd : c = d
        · simp [dropLiteral?, hcd, ih]
        · simp [dropLiteral?, hcd, Ne.symm hcd]

/-- A written form begins with the mark. -/
theorem writtenForm?_of_not_prefix (h : ¬ keepMark.map .char <+: ps) : writtenForm? ps = none := by
  have hdrop : dropLiteral? "<folio-keep " ps = none := by
    rw [Option.eq_none_iff_forall_ne_some]
    intro qs hqs
    refine h ⟨.char ' ' :: qs, ?_⟩
    rw [dropLiteral?_eq_some_iff.mp hqs]
    rfl
  rw [writtenForm?, hdrop, Option.bind_none]

/-- **Without the mark of a kept element**, the pieces stand for their own text. -/
theorem restore_of_free (elements : List Text) (h : ¬ keepMark.map .char <:+: ps) :
    restore elements ps = .ok (print ps) := by
  induction ps with
  | nil => rfl
  | cons p ps ih =>
    obtain ⟨hpre, hrest⟩ := not_or.mp (List.infix_cons_iff.not.mp h)
    rw [restore] at ih ⊢
    rw [restoreFrom, writtenForm?_of_not_prefix hpre]
    simp only [ih hrest, Except.map]
    cases p <;> rfl

/-- **Minifying keeps the content of the pieces** that are no comments, unless they spell the mark
of a kept element. -/
theorem exists_minify_of_free (h : ¬ keepMark <:+: print (dropComments (pieces t))) :
    ∃ out, minify t = .ok out ∧ content out = content (print (dropComments (pieces t))) := by
  have hfree : ¬ keepMark.map .char <:+: minifiedPieces t := fun hinf =>
    h (infix_print (infix_of_infix_minifiedPieces hinf))
  refine ⟨print (minifiedPieces t), restore_of_free _ hfree, ?_⟩
  rw [← content_print_solid, solid_minifiedPieces, content_print_solid]

end Pageloom.Html
