import Mathlib.Data.List.Chain
import Pageloom.Proofs.Html.Split

/-!
# What is left of the blanks

Whatever a text is, minifying leaves it tight: each run of blanks is one space, no space stands
alone between two tags, and none at the ends. The three steps that thin out blanks make one of these
true after the other, and none of them spoils what an earlier one made: behind the end of a tag and
before the start of one there is no blank, so dropping what is between them brings no blanks
together.

Without comments nothing else happens to a text. So a text without comments, and without the mark of
a kept element, is minified to the same elements with the same content between them, and is tight.

## Main definitions

* `Html.IsTight`: pieces whose blanks are thinned out.

## Main results

* `Html.isTight_minifiedPieces`: what is left of a text is tight.
* `Html.minify_without_comments`: minifying a text without comments.
-/

namespace Pageloom.Html

variable {t u : Text} {ps qs : List Piece} {p q : Piece} {inside afterTag : Bool}

/-- Pieces whose blanks are thinned out. A kept element begins with a `<` and ends with a `>`, so it
counts as a tag at both of its borders. -/
structure IsTight (ps : List Piece) : Prop where
  /-- Every blank is a space. -/
  space : ∀ p ∈ ps, p.isBlank → p = .char ' '
  /-- No two blanks stand side by side. -/
  single : ps.IsChain fun p q => ¬ (p.isBlank ∧ q.isBlank)
  /-- No blank stands alone between two tags. -/
  apart : ∀ p b q, [p, b, q] <:+: ps → b.isBlank → ¬ (p.endsTag ∧ q.opensTag)
  /-- No blank stands first. -/
  first : ∀ p, ps.head? = some p → ¬ p.isBlank
  /-- No blank stands last. -/
  last : ∀ p, ps.getLast? = some p → ¬ p.isBlank

theorem not_isBlank_of_opensTag (h : p.opensTag) : ¬ p.isBlank := by
  cases p with
  | kept element => exact Bool.false_ne_true
  | char c =>
    have hc : c = '<' := by simpa [Piece.opensTag] using h
    rw [hc]
    decide

theorem not_isBlank_of_endsTag (h : p.endsTag) : ¬ p.isBlank := by
  cases p with
  | kept element => exact Bool.false_ne_true
  | char c =>
    have hc : c = '>' := by simpa [Piece.endsTag] using h
    rw [hc]
    decide

/-! ### One space for each run -/

theorem eq_space_of_mem_squeezeBlanksFrom (hp : p ∈ squeezeBlanksFrom inside ps)
    (hblank : p.isBlank) : p = .char ' ' := by
  induction ps generalizing inside with
  | nil => cases hp
  | cons q ps ih =>
    rw [squeezeBlanksFrom] at hp
    split_ifs at hp with hq hinside
    · exact ih hp
    · rcases List.mem_cons.mp hp with rfl | hp
      · rfl
      · exact ih hp
    · rcases List.mem_cons.mp hp with rfl | hp
      · exact absurd hblank hq
      · exact ih hp

/-- Behind a blank the run goes on, and what comes first is none. -/
theorem not_isBlank_of_head?_squeezeBlanksFrom
    (hp : (squeezeBlanksFrom true ps).head? = some p) : ¬ p.isBlank := by
  induction ps with
  | nil => cases hp
  | cons q ps ih =>
    rw [squeezeBlanksFrom] at hp
    by_cases hq : q.isBlank
    · rw [if_pos hq, if_pos rfl] at hp
      exact ih hp
    · rw [if_neg hq] at hp
      exact Option.some.inj hp ▸ hq

theorem isChain_squeezeBlanksFrom (inside : Bool) (ps : List Piece) :
    (squeezeBlanksFrom inside ps).IsChain fun p q => ¬ (p.isBlank ∧ q.isBlank) := by
  induction ps generalizing inside with
  | nil => exact .nil
  | cons p ps ih =>
    rw [squeezeBlanksFrom]
    split_ifs with hp hinside
    · exact ih true
    · exact List.isChain_cons.mpr ⟨fun q hq hboth =>
        not_isBlank_of_head?_squeezeBlanksFrom hq hboth.2, ih true⟩
    · exact List.isChain_cons.mpr ⟨fun q _ hboth => hp hboth.1, ih false⟩

/-! ### Blanks between tags -/

theorem joinTagsFrom_sublist (afterTag : Bool) (ps : List Piece) :
    (joinTagsFrom afterTag ps).Sublist ps := by
  induction ps generalizing afterTag with
  | nil => exact List.Sublist.refl []
  | cons p ps ih =>
    rw [joinTagsFrom]
    split_ifs with hdrop
    · exact (ih false).cons p
    · exact (ih _).cons_cons p

/-- What comes first is what came first, or it begins a tag. -/
theorem head?_joinTagsFrom (hq : q ∈ (joinTagsFrom afterTag ps).head?) :
    q ∈ ps.head? ∨ q.opensTag := by
  cases ps with
  | nil => cases hq
  | cons p ps =>
    rw [joinTagsFrom] at hq
    split_ifs at hq with hdrop
    · cases ps with
      | nil => cases hq
      | cons p' ps =>
        simp only [Bool.and_eq_true, List.head?_cons, Option.any_some] at hdrop
        obtain rfl : p' = q := Option.some.inj hq
        exact .inr hdrop.2
    · exact .inl hq

theorem isChain_joinTagsFrom (h : ps.IsChain fun p q => ¬ (p.isBlank ∧ q.isBlank))
    (afterTag : Bool) :
    (joinTagsFrom afterTag ps).IsChain fun p q => ¬ (p.isBlank ∧ q.isBlank) := by
  induction ps generalizing afterTag with
  | nil => exact .nil
  | cons p ps ih =>
    obtain ⟨hhead, hrest⟩ := List.isChain_cons.mp h
    rw [joinTagsFrom]
    split_ifs with hdrop
    · exact ih hrest false
    · refine List.isChain_cons.mpr ⟨fun q hq hboth => ?_, ih hrest _⟩
      rcases head?_joinTagsFrom hq with hq | hopen
      · exact hhead q hq hboth
      · exact not_isBlank_of_opensTag hopen hboth.2

/-- Right behind a tag, no blank is left with another tag behind it. -/
theorem not_prefix_joinTagsFrom {b : Piece} (hb : b.isBlank) (hq : q.opensTag) :
    ¬ [b, q] <+: joinTagsFrom true ps := by
  intro hpre
  cases ps with
  | nil => simp [joinTagsFrom] at hpre
  | cons p ps =>
    rw [joinTagsFrom] at hpre
    split_ifs at hpre with hdrop
    · simp only [Bool.true_and, Bool.and_eq_true] at hdrop
      cases ps with
      | nil => cases hdrop.2
      | cons p' ps =>
        have hhead := (List.cons_prefix_cons.mp hpre).1
        rw [hhead] at hb
        exact not_isBlank_of_opensTag hdrop.2 hb
    · obtain ⟨rfl, hrest⟩ := List.cons_prefix_cons.mp hpre
      have hopen : ¬ b.endsTag := fun hends => not_isBlank_of_endsTag hends hb
      rw [Bool.not_eq_true] at hopen
      rw [hopen] at hrest
      cases ps with
      | nil => simp [joinTagsFrom] at hrest
      | cons p' ps =>
        have hhead := (List.cons_prefix_cons.mp hrest).1
        rw [hhead] at hq
        simp [hb, hq] at hdrop

theorem not_alone_joinTagsFrom {b : Piece} (hb : b.isBlank) (hp : p.endsTag) (hq : q.opensTag) :
    ¬ [p, b, q] <:+: joinTagsFrom afterTag ps := by
  induction ps generalizing afterTag with
  | nil => simp [joinTagsFrom]
  | cons p' ps ih =>
    rw [joinTagsFrom]
    split_ifs with hdrop
    · exact ih
    · rw [List.infix_cons_iff, not_or]
      refine ⟨fun hpre => ?_, ih⟩
      obtain ⟨rfl, hrest⟩ := List.cons_prefix_cons.mp hpre
      rw [hp] at hrest
      exact not_prefix_joinTagsFrom hb hq hrest

/-! ### The ends -/

theorem not_isBlank_of_head?_dropWhile (h : (ps.dropWhile Piece.isBlank).head? = some p) :
    ¬ p.isBlank := by
  have hhead := List.head?_dropWhile_not Piece.isBlank ps
  rw [h] at hhead
  simpa using hhead

theorem not_isBlank_of_head?_trimBlanks (h : (trimBlanks ps).head? = some p) : ¬ p.isBlank := by
  obtain ⟨rest, hrest⟩ := List.rdropWhile_prefix Piece.isBlank (ps.dropWhile Piece.isBlank)
  have hhead : (ps.dropWhile Piece.isBlank).head? = some p := by
    rw [← hrest, List.head?_append]
    exact Option.or_eq_some_iff.mpr (.inl h)
  exact not_isBlank_of_head?_dropWhile hhead

theorem not_isBlank_of_getLast?_trimBlanks (h : (trimBlanks ps).getLast? = some p) :
    ¬ p.isBlank := by
  rw [trimBlanks, List.getLast?_reverse] at h
  exact not_isBlank_of_head?_dropWhile h

/-- **What is left of a text is tight**, with comments and without. -/
theorem isTight_minifiedPieces (t : Text) : IsTight (minifiedPieces t) := by
  have hleft := trimBlanks_isInfix (joinTags (squeezeBlanks (dropComments (pieces t))))
  refine ⟨fun p hp hblank => ?_, ?_, fun p b q hmem hblank hboth => ?_, fun p hp => ?_,
    fun p hp => ?_⟩
  · exact eq_space_of_mem_squeezeBlanksFrom
      ((joinTagsFrom_sublist false _).subset (hleft.subset hp)) hblank
  · exact List.IsChain.infix (isChain_joinTagsFrom (isChain_squeezeBlanksFrom false _) false) hleft
  · exact not_alone_joinTagsFrom hblank hboth.1 hboth.2 (hmem.trans hleft)
  · exact not_isBlank_of_head?_trimBlanks hp
  · exact not_isBlank_of_getLast?_trimBlanks hp

/-! ### Elements and the content between them -/

/-- The split whose texts are changed by a function. -/
def Split.mapTexts (f : Text → Text) (s : Split) : Split :=
  ⟨f s.before, s.elements.map fun (element, behind) => (element, f behind)⟩

theorem solid_append (ps qs : List Piece) : solid (ps ++ qs) = solid ps ++ solid qs :=
  List.filter_append ..

theorem solid_map_char (t : Text) : solid (t.map .char) = (content t).map .char := by
  rw [solid, content, List.filter_map]
  rfl

theorem Split.solid_pieces (s : Split) : solid s.pieces = (s.mapTexts content).pieces := by
  obtain ⟨before, elements⟩ := s
  induction elements generalizing before with
  | nil => rw [pieces_mk_nil, solid_map_char, mapTexts, List.map_nil, pieces_mk_nil]
  | cons p elements ih =>
    obtain ⟨element, behind⟩ := p
    have hkept : solid (.kept element :: (Split.mk behind elements).pieces) =
        .kept element :: solid (Split.mk behind elements).pieces := rfl
    rw [pieces_mk_cons, solid_append, solid_map_char, hkept, ih, mapTexts, mapTexts, List.map_cons,
      pieces_mk_cons]

/-- Splits with the same solid pieces have the same elements with the same content between them. -/
theorem Split.same_of_solid {s s' : Split} (h : solid s.pieces = solid s'.pieces) :
    s.elements.map Prod.fst = s'.elements.map Prod.fst ∧
      s.texts.map content = s'.texts.map content := by
  have hmap : s.mapTexts content = s'.mapTexts content := by
    rw [← ofPieces_pieces (s.mapTexts content), ← solid_pieces, h, solid_pieces, ofPieces_pieces]
  obtain ⟨hbefore, helements⟩ := Split.mk.inj hmap
  constructor
  · have hfst := congrArg (List.map Prod.fst) helements
    simpa [List.map_map, Function.comp_def] using hfst
  · have hsnd := congrArg (List.map Prod.snd) helements
    rw [texts, texts, List.map_cons, List.map_cons, hbefore]
    simpa [List.map_map, Function.comp_def] using hsnd

/-! ### Texts without comments -/

/-- Without the start of a comment no comment is found. -/
theorem dropComments_of_free (h : ¬ commentStart.map .char <:+: ps) : dropComments ps = ps := by
  induction ps with
  | nil => rfl
  | cons p ps ih =>
    obtain ⟨hpre, hrest⟩ := not_or.mp (List.infix_cons_iff.not.mp h)
    have hstart : dropLiteral? commentStart (p :: ps) = none := by
      rw [Option.eq_none_iff_forall_ne_some]
      intro qs hqs
      exact hpre ⟨qs, (dropLiteral?_eq_some_iff.mp hqs).symm⟩
    have hnone : commentLength? (p :: ps) = none := by
      rw [commentLength?, ← commentStart, hstart, Option.bind_none]
    rw [dropComments_cons_of_none hnone, ih hrest]

/-- **Minifying a text without comments** and without the mark of a kept element. The text has one
leftmost split. It is minified to a text that is made of the same elements, each of them once and in
order, with texts between them that have the same content; and its blanks are thinned out. -/
theorem minify_without_comments {html : Text} (hcomment : ¬ commentStart <:+: html)
    (hmark : ¬ keepMark <:+: html) :
    ∃ s : Split, (∀ s' : Split, s'.IsLeftmost ∧ s'.print = html ↔ s' = s) ∧
      ∃ m : Split, minify html = .ok m.print ∧
        m.elements.map Prod.fst = s.elements.map Prod.fst ∧
        m.texts.map content = s.texts.map content ∧ IsTight m.pieces := by
  obtain ⟨s, ⟨hs, hprint⟩, hunique⟩ := existsUnique_split html
  obtain ⟨m, hm⟩ : ∃ m : Split, m.pieces = minifiedPieces html := ⟨_, Split.pieces_ofPieces _⟩
  have hsame : dropComments (pieces html) = pieces html := dropComments_of_free fun hinf =>
    hcomment (print_pieces html ▸ infix_print hinf)
  have hfree : ¬ keepMark.map .char <:+: m.pieces := fun hinf => by
    rw [hm] at hinf
    have hkeep := infix_print (infix_of_infix_minifiedPieces hinf)
    rw [hsame, print_pieces] at hkeep
    exact hmark hkeep
  have hsolid : solid m.pieces = solid s.pieces := by
    rw [hm, solid_minifiedPieces, hsame, ← hprint, pieces_print hs]
  obtain ⟨helements, htexts⟩ := Split.same_of_solid hsolid
  refine ⟨s, fun s' => ⟨hunique s', fun h => h ▸ ⟨hs, hprint⟩⟩, m, ?_, helements, htexts,
    hm ▸ isTight_minifiedPieces html⟩
  rw [minify, ← hm, restore_of_free _ hfree, Split.print_pieces]

/-- Elements beside each other, with blanks between tags around them, and names in any case. -/
theorem minify_without_comments_of_two_elements :
    let html : Text := " <p>\n  a <PRE> b\n </Pre >\t<style></style> </p> c  <pre d "
    ¬ commentStart <:+: html ∧ ¬ keepMark <:+: html ∧
      ∃ m : Split, m.print = "<p> a <PRE> b\n </Pre ><style></style></p> c <pre d".toList ∧
        m.elements.map Prod.fst = ["<PRE> b\n </Pre >".toList, "<style></style>".toList] ∧
        m.texts.map content = ["<p>a".toList, [], "</p>c<pred".toList] ∧ IsTight m.pieces := by
  intro html
  have hcomment : ¬ commentStart <:+: html := by decide
  have hmark : ¬ keepMark <:+: html := by decide
  have hout : minify html = .ok "<p> a <PRE> b\n </Pre ><style></style></p> c <pre d".toList := by
    decide
  have helements : (Split.ofPieces (pieces html)).elements.map Prod.fst =
      ["<PRE> b\n </Pre >".toList, "<style></style>".toList] := by decide
  have htexts : (Split.ofPieces (pieces html)).texts.map content =
      ["<p>a".toList, [], "</p>c<pred".toList] := by decide
  obtain ⟨s, hs, m, hminify, hsame, hcontent, htight⟩ := minify_without_comments hcomment hmark
  have hsplit : Split.ofPieces (pieces html) = s :=
    (hs _).mp ⟨isLeftmost_ofPieces html, print_ofPieces html⟩
  refine ⟨hcomment, hmark, m, Except.ok.inj (hminify.symm.trans hout), ?_, ?_, htight⟩
  · rw [hsame, ← hsplit, helements]
  · rw [hcontent, ← hsplit, htexts]

end Pageloom.Html
