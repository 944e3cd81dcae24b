import Pageloom.Proofs.Html.Stability
import Pageloom.Proofs.Text.Runs

/-!
# Minifying text without tags

Without a tag mark a text has no elements and no comments, so minifying is squeezing its blanks and
nothing else: what is left are its words, with one space between two of them.

HTML has five characters of white space, and any run of them shows as one space. Blanks are a larger
class. Those that are not white space to HTML show as what they are, a no-break space as well as an
ideographic one, and minifying takes them away like the others. So a text keeps its characters if
every blank in it is white space to HTML, and only then.

## Main definitions

* `Html.isHtmlSpace`: the white space of HTML.
* `Html.shown`: the characters of a text that are not white space to HTML.

## Main results

* `Html.minify_of_notMem`: minifying a text without tags.
-/

namespace Pageloom

namespace Html

variable {t html : Text} {c : Char}

/-- The white space of HTML: space, tab, line feed, form feed and carriage return. -/
def isHtmlSpace (c : Char) : Bool := c ∈ [' ', '\t', '\n', '\x0c', '\r']

/-- The characters of a text that are not white space to HTML, in order. -/
def shown (t : Text) : Text := t.filter fun c => !isHtmlSpace c

/-! ### Pieces without elements -/

theorem squeezeBlanksFrom_map_char (inside : Bool) (t : Text) :
    squeezeBlanksFrom inside (t.map .char) = (Text.squeezeFrom isBlank ' ' inside t).map .char := by
  induction t generalizing inside with
  | nil => rfl
  | cons c t ih =>
    cases hc : isBlank c <;>
      cases inside <;> simp [squeezeBlanksFrom, Text.squeezeFrom, Piece.isBlank, hc, ih]

theorem trimBlanks_map_char (t : Text) :
    trimBlanks (t.map .char) = (Text.strip t).map .char := by
  rw [trimBlanks, Text.strip, Text.trim, Text.trimEnd, Text.trimStart, List.map_reverse,
    List.dropWhile_map, ← List.map_reverse, List.dropWhile_map]
  rfl

/-- Without tags no comment goes, and what is left are the characters. -/
theorem dropComments_pieces_of_notMem (h : '<' ∉ html) :
    dropComments (pieces html) = html.map .char := by
  have hpieces := pieces_append_of_notMem h []
  rw [List.append_nil, show pieces [] = [] from rfl, List.append_nil] at hpieces
  rw [hpieces]
  refine dropComments_of_free fun hinf => ?_
  have hstart := infix_print hinf
  rw [print_map_char] at hstart
  exact h (hstart.subset (show '<' ∈ commentStart by decide))

/-- **The pieces that are left** of a text without tags are the characters of its words, with one
space between two words. -/
theorem minifiedPieces_of_notMem (h : '<' ∉ html) :
    minifiedPieces html = (Text.join " " (Text.words html)).map .char := by
  have hsqueeze : squeezeBlanks (html.map .char) = (Text.squeeze isBlank ' ' html).map .char :=
    squeezeBlanksFrom_map_char false html
  have hjoin : joinTags ((Text.squeeze isBlank ' ' html).map .char) =
      (Text.squeeze isBlank ' ' html).map .char := by
    refine joinTags_of_isTight ?_
    rintro p b q hinf - ⟨-, hopens⟩
    obtain ⟨c, hc, rfl⟩ := List.mem_map.mp (hinf.subset (show q ∈ [p, b, q] by simp))
    obtain rfl : c = '<' := eq_of_beq hopens
    rcases Text.mem_squeeze hc with hspace | hmem
    · cases hspace
    · exact h hmem
  rw [minifiedPieces, dropComments_pieces_of_notMem h, hsqueeze, hjoin, trimBlanks_map_char,
    Text.strip, Text.trim_squeeze (by decide)]
  rfl

/-! ### What is kept -/

theorem isBlank_of_isHtmlSpace (h : isHtmlSpace c) : isBlank c := by
  have hall : [' ', '\t', '\n', '\x0c', '\r'].all isBlank := by decide
  exact List.all_eq_true.mp hall c (of_decide_eq_true h)

/-- Content is shown, since what is not blank is not white space to HTML. -/
theorem content_shown (t : Text) : content (shown t) = content t := by
  rw [content, shown, List.filter_filter, content]
  refine List.filter_congr fun c _ => ?_
  cases hc : isHtmlSpace c with
  | false => simp
  | true => simp [isBlank_of_isHtmlSpace hc]

/-- Only content is shown if every blank is white space to HTML. -/
theorem shown_eq_content_iff : shown t = content t ↔ ∀ c ∈ t, isBlank c → isHtmlSpace c := by
  constructor
  · intro h c hc hblank
    by_contra hspace
    have hshown : c ∈ shown t := List.mem_filter.mpr ⟨hc, by simpa using hspace⟩
    rw [h] at hshown
    simp [content, hblank] at hshown
  · intro h
    refine List.filter_congr fun c hc => ?_
    cases hspace : isHtmlSpace c with
    | true => rw [isBlank_of_isHtmlSpace hspace]
    | false =>
      have hblank : isBlank c = false := by
        by_contra hblank
        simp [h c hc (by simpa using hblank)] at hspace
      rw [hblank]

/-- Where a text with the same content shows nothing else, what is shown is kept in it if every
blank is white space to HTML, and only then. -/
theorem shown_sublist_iff {out : Text} (hout : shown out = content out)
    (hsame : content out = content t) :
    (shown t).Sublist out ↔ ∀ c ∈ t, isBlank c → isHtmlSpace c := by
  rw [← shown_eq_content_iff]
  constructor
  · intro hkept
    have hshown := hkept.filter fun c => !isHtmlSpace c
    rw [← shown, ← shown, hout, hsame, shown, shown, List.filter_filter] at hshown
    simp only [Bool.and_self] at hshown
    refine List.Sublist.antisymm hshown ?_
    rw [← content_shown]
    exact List.filter_sublist
  · intro hshown
    rw [hshown, ← hsame]
    exact List.filter_sublist

/-- **Minifying text without tags** leaves its words, with one space between two of them. The
characters that are not white space to HTML are kept in order if every blank in the text is white
space to HTML, and only then. -/
theorem minify_of_notMem (h : '<' ∉ html) :
    minify html = .ok (Text.join " " (Text.words html)) ∧
      ((shown html).Sublist (Text.join " " (Text.words html)) ↔
        ∀ c ∈ html, isBlank c → isHtmlSpace c) := by
  have hdrop := dropComments_pieces_of_notMem h
  have hleft := minifiedPieces_of_notMem h
  have hprint := congrArg print hleft
  rw [print_map_char] at hprint
  have hfree : ¬ keepMark.map .char <:+: minifiedPieces html := fun hinf => by
    have hmark := infix_print (infix_of_infix_minifiedPieces hinf)
    rw [hdrop, print_map_char] at hmark
    exact h (hmark.subset (show '<' ∈ keepMark by decide))
  have hcontent : content (print (minifiedPieces html)) = content html := by
    rw [← content_print_solid, solid_minifiedPieces, content_print_solid, hdrop, print_map_char]
  rw [hprint] at hcontent
  refine ⟨hprint ▸ restore_of_free _ hfree, shown_sublist_iff ?_ hcontent⟩
  -- The only blanks of the result are spaces.
  refine shown_eq_content_iff.mpr fun c hc hblank => ?_
  have hpiece : Piece.char c ∈ minifiedPieces html := hleft ▸ List.mem_map_of_mem hc
  rw [Piece.char.inj ((isTight_minifiedPieces html).space _ hpiece hblank)]
  decide

/-- A no-break space goes, alone and among other blanks. -/
theorem minify_of_notMem_noBreakSpace :
    let html : Text := "10\u00a0kg \u3000 of\ttea"
    '<' ∉ html ∧ minify html = .ok "10 kg of tea".toList ∧
      ¬ (shown html).Sublist "10 kg of tea".toList := by
  intro html
  have hmark : '<' ∉ html := by decide
  obtain ⟨hminify, hshown⟩ := minify_of_notMem hmark
  have hwords : Text.join " " (Text.words html) = "10 kg of tea".toList := by decide
  have hlost : ¬ ∀ c ∈ html, isBlank c → isHtmlSpace c := fun h =>
    absurd (h '\u00a0' (by decide) (by decide)) (by decide)
  rw [hwords] at hminify hshown
  exact ⟨hmark, hminify, fun h => hlost (hshown.mp h)⟩

end Html

end Pageloom
