import Pageloom.Proofs.Html.Thinning
import Pageloom.Proofs.Html.Tight
import Pageloom.Proofs.Html.WrittenForm

/-!
# Minifying what is minified

A text that was minified is read anew when it is minified again, and it is not clear that it is cut
into the same pieces: blanks have gone, within the closing tags of elements that were not found as
well. But a piece that begins an element in the new text has begun one in the old text, since both
have the same thin text. So the pieces that are left of a text are the pieces of the text that is
left.

The rest is that tight pieces stay as they are. They have no blanks to spare, so each of the steps
finds nothing to do.

## Main definitions

* `Html.IsCut`: pieces into which their own text is cut.

## Main results

* `Html.isCut_minifiedPieces`: what is left of a text without comments is cut into the same pieces.
* `Html.thinned_of_isTight`: tight pieces stay.
* `Html.minify_minify`: minifying a text without comments again changes nothing.
-/

namespace Pageloom.Html

variable {t u html element : Text} {c : Char} {p : Piece} {ps qs : List Piece}
  {inside afterTag gap behindTag : Bool}

/-! ### Pieces of their own text -/

/-- The text of the pieces is cut into these pieces. -/
def IsCut (ps : List Piece) : Prop := pieces (print ps) = ps

theorem isCut_pieces (t : Text) : IsCut (pieces t) := by rw [IsCut, print_pieces]

theorem isCut_nil : IsCut [] := rfl

theorem IsCut.of_append (h : IsCut (ps ++ qs)) : IsCut qs := pieces_print_of_append h

theorem IsCut.tail (h : IsCut (p :: ps)) : IsCut ps :=
  IsCut.of_append (show IsCut ([p] ++ ps) from h)

theorem IsCut.keepsElements (h : IsCut ps) : KeepsElements ps := by
  have hpieces : pieces (print ps) = ps := h
  exact hpieces ▸ keepsElements_pieces (print ps)

theorem isCut_char_cons_iff :
    IsCut (.char c :: ps) ↔ elementLength? (c :: print ps) = none ∧ IsCut ps := by
  constructor
  · intro h
    refine ⟨?_, h.tail⟩
    cases hlength : elementLength? (c :: print ps) with
    | none => rfl
    | some n =>
      rw [IsCut, print_char_cons, pieces_of_element hlength] at h
      cases h
  · rintro ⟨hnone, hcut⟩
    rw [IsCut, print_char_cons, pieces_cons_of_none hnone, hcut]

theorem isCut_kept_cons_iff : IsCut (.kept element :: ps) ↔ IsElement element ∧ IsCut ps := by
  constructor
  · intro h
    exact ⟨h.keepsElements.head, h.tail⟩
  · rintro ⟨helement, hcut⟩
    rw [IsCut, print_kept_cons, pieces_append_of_isElement helement, hcut]

/-! ### The cut stays the same -/

/-- Whether an element begins with a character depends on the thin text behind it. -/
theorem elementLength?_eq_none_of_thin
    (h : thinFrom (c == '>') false t = thinFrom (c == '>') false u)
    (hnone : elementLength? (c :: u) = none) : elementLength? (c :: t) = none := by
  cases hc : isBlank c with
  | true => exact elementLength?_of_ne fun heq => absurd (heq ▸ hc) (by decide)
  | false =>
    rw [← Option.not_isSome_iff_eq_none] at hnone ⊢
    rwa [← isSome_elementLength?_thinFrom hc, h, isSome_elementLength?_thinFrom hc]

theorem IsCut.squeezeBlanksFrom (h : IsCut ps) (inside : Bool) :
    IsCut (squeezeBlanksFrom inside ps) := by
  induction ps generalizing inside with
  | nil => exact isCut_nil
  | cons p ps ih =>
    rw [Html.squeezeBlanksFrom]
    split_ifs
    · exact ih h.tail true
    · exact isCut_char_cons_iff.mpr ⟨elementLength?_of_ne (by decide), ih h.tail true⟩
    · cases p with
      | kept element =>
        exact isCut_kept_cons_iff.mpr ⟨(isCut_kept_cons_iff.mp h).1, ih h.tail false⟩
      | char c =>
        exact isCut_char_cons_iff.mpr ⟨elementLength?_eq_none_of_thin
          (thinFrom_squeezeBlanksFrom h.tail.keepsElements false _ false id)
          (isCut_char_cons_iff.mp h).1, ih h.tail false⟩

theorem IsCut.joinTagsFrom (h : IsCut ps) (afterTag : Bool) : IsCut (joinTagsFrom afterTag ps) := by
  induction ps generalizing afterTag with
  | nil => exact isCut_nil
  | cons p ps ih =>
    rw [Html.joinTagsFrom]
    split
    · exact ih h.tail false
    · cases p with
      | kept element =>
        exact isCut_kept_cons_iff.mpr ⟨(isCut_kept_cons_iff.mp h).1, ih h.tail true⟩
      | char c =>
        exact isCut_char_cons_iff.mpr ⟨elementLength?_eq_none_of_thin
          (thinFrom_joinTagsFrom h.tail.keepsElements _ _ false id)
          (isCut_char_cons_iff.mp h).1, ih h.tail _⟩

/-- The pieces before blanks at the end are cut as if the text ended there. -/
theorem IsCut.of_append_of_blank (hblank : ∀ p ∈ qs, p.isBlank) (h : IsCut (ps ++ qs)) :
    IsCut ps := by
  induction ps with
  | nil => exact isCut_nil
  | cons p ps ih =>
    rw [List.cons_append] at h
    have hcut := ih h.tail
    cases p with
    | kept element => exact isCut_kept_cons_iff.mpr ⟨(isCut_kept_cons_iff.mp h).1, hcut⟩
    | char c =>
      refine isCut_char_cons_iff.mpr ⟨elementLength?_eq_none_of_thin ?_
        (isCut_char_cons_iff.mp h).1, hcut⟩
      rw [print_append, thinFrom_append_of_blank (isBlank_of_mem_print hblank)]

theorem IsCut.trimBlanks (h : IsCut ps) : IsCut (trimBlanks ps) := by
  obtain ⟨before, behind, hsplit, -, hbehind⟩ := exists_trimBlanks_append ps
  rw [hsplit] at h
  exact h.of_append.of_append_of_blank hbehind

/-- **What is left of a text without comments** is cut into the pieces that are left. -/
theorem isCut_minifiedPieces (h : dropComments (pieces t) = pieces t) :
    IsCut (minifiedPieces t) := by
  rw [minifiedPieces, h]
  exact (((isCut_pieces t).squeezeBlanksFrom false).joinTagsFrom false).trimBlanks

/-! ### Tight pieces stay as they are -/

theorem squeezeBlanks_of_isTight (hspace : ∀ p ∈ ps, p.isBlank → p = .char ' ')
    (hsingle : ps.IsChain fun p q => ¬ (p.isBlank ∧ q.isBlank)) : squeezeBlanks ps = ps := by
  suffices hfrom : ∀ inside : Bool, (inside → ∀ p ∈ ps.head?, ¬ p.isBlank) →
      squeezeBlanksFrom inside ps = ps from hfrom false nofun
  induction ps with
  | nil => exact fun _ _ => rfl
  | cons p ps ih =>
    intro inside hinside
    obtain ⟨hp, hspace⟩ := List.forall_mem_cons.mp hspace
    obtain ⟨hnext, hsingle⟩ := List.isChain_cons.mp hsingle
    rw [squeezeBlanksFrom]
    split
    · next hblank =>
      rw [if_neg fun h => hinside h p rfl hblank, ih hspace hsingle true, hp hblank]
      exact fun _ q hq hboth => hnext q hq ⟨hblank, hboth⟩
    · rw [ih hspace hsingle false nofun]

theorem joinTags_of_isTight
    (hapart : ∀ p b q, [p, b, q] <:+: ps → b.isBlank → ¬ (p.endsTag ∧ q.opensTag)) :
    joinTags ps = ps := by
  suffices hfrom : ∀ afterTag : Bool, (afterTag → ∀ b q, [b, q] <+: ps → b.isBlank → ¬ q.opensTag) →
      joinTagsFrom afterTag ps = ps from hfrom false nofun
  induction ps with
  | nil => exact fun _ _ => rfl
  | cons p ps ih =>
    intro afterTag hfirst
    rw [joinTagsFrom]
    split
    · next hdrop =>
      simp only [Bool.and_eq_true] at hdrop
      cases ps with
      | nil => cases hdrop.2
      | cons q ps =>
        exact absurd hdrop.2 (hfirst hdrop.1.1 p q ⟨ps, rfl⟩ hdrop.1.2)
    · rw [ih (fun p b q h => hapart p b q (List.infix_cons h)) p.endsTag]
      intro hends b q hpre hblank hopens
      exact hapart p b q (List.cons_prefix_cons.mpr ⟨rfl, hpre⟩).isInfix hblank ⟨hends, hopens⟩

theorem trimBlanks_of_isTight (hfirst : ∀ p, ps.head? = some p → ¬ p.isBlank)
    (hlast : ∀ p, ps.getLast? = some p → ¬ p.isBlank) : trimBlanks ps = ps := by
  have hstart : ps.dropWhile Piece.isBlank = ps := by
    cases ps with
    | nil => rfl
    | cons p ps => exact List.dropWhile_cons_of_neg (hfirst p rfl)
  rw [trimBlanks, hstart]
  exact List.rdropWhile_eq_self_iff.mpr fun hne =>
    hlast _ (List.getLast?_eq_some_getLast hne)

/-- **Tight pieces stay as they are** when blanks are thinned out. -/
theorem thinned_of_isTight (h : IsTight ps) :
    trimBlanks (joinTags (squeezeBlanks ps)) = ps := by
  rw [squeezeBlanks_of_isTight h.space h.single, joinTags_of_isTight h.apart,
    trimBlanks_of_isTight h.first h.last]

/-! ### Minifying again -/

/-- **Minifying is idempotent** on texts without comments and without the mark of a kept element. -/
theorem minify_minify (hcomment : ¬ commentStart <:+: html) (hmark : ¬ keepMark <:+: html) :
    ∃ out, minify html = .ok out ∧ minify out = .ok out := by
  have hsame : dropComments (pieces html) = pieces html := dropComments_of_free fun hinf =>
    hcomment (print_pieces html ▸ infix_print hinf)
  have hcut : pieces (print (minifiedPieces html)) = minifiedPieces html :=
    isCut_minifiedPieces hsame
  have hleft (w : Text) (hblank : ∀ c ∈ w, isBlank c = false) (hend : '>' ∉ w)
      (hfree : ¬ w <:+: html) : ¬ w.map .char <:+: minifiedPieces html := fun hinf => by
    have hword := infix_print (infix_of_infix_thinned hblank hend hinf)
    rw [hsame, print_pieces] at hword
    exact hfree hword
  have hkeep := hleft keepMark (List.all_iff_forall_prop.mp (by decide)) (by decide) hmark
  have hstart := hleft commentStart (List.all_iff_forall_prop.mp (by decide)) (by decide) hcomment
  have hagain : minifiedPieces (print (minifiedPieces html)) = minifiedPieces html := by
    rw [minifiedPieces, hcut, dropComments_of_free hstart,
      thinned_of_isTight (isTight_minifiedPieces html)]
  refine ⟨print (minifiedPieces html), restore_of_free _ hkeep, ?_⟩
  rw [minify, hagain, restore_of_free _ hkeep]

/-- Blanks go around an element, inside of tags that look like those of elements, and inside of the
closing tag of an element that is not closed in this case. -/
theorem minify_minify_of_unclosed :
    let html : Text := " <Pre>a\n b </pRE\n> <style  >\n<p  >\t</script\n> "
    let out : Text := "<Pre>a\n b </pRE\n><style ><p ></script >"
    ¬ commentStart <:+: html ∧ ¬ keepMark <:+: html ∧ minify html = .ok out ∧
      minify out = .ok out := by
  intro html out
  have hcomment : ¬ commentStart <:+: html := by decide
  have hmark : ¬ keepMark <:+: html := by decide
  have hout : minify html = .ok out := by decide
  obtain ⟨out', hminify, hagain⟩ := minify_minify hcomment hmark
  obtain rfl : out' = out := Except.ok.inj (hminify.symm.trans hout)
  exact ⟨hcomment, hmark, hout, hagain⟩

end Pageloom.Html
