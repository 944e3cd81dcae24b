import Pageloom.Proofs.Html.Content
import Pageloom.Proofs.Text.Parts

/-!
# Comments and kept elements in one scan

A reader goes through a text from left to right. A comment that begins outside of a kept element
runs to its end, whatever stands in it, and a kept element that begins outside of a comment does the
same. This scan says which characters are comments.

Minifying looks for the elements first, and for comments in what is left. Both ways come to the same
as long as no element that begins in a comment goes over its end. Otherwise the end of the comment
is hidden in the element, and what is dropped goes on to the next `-->`, or nothing is dropped.

## Main definitions

* `Html.Part`, `Html.parts`: the scan; `Html.outside`: the text without its comments.
* `Html.IsAligned`: no element that begins in a comment goes over its end.

## Main results

* `Html.print_dropComments_of_isAligned`: then what is dropped are the comments of the scan.
* `Html.minify_keeps_content`: and minifying loses nothing else but blanks.
-/

namespace Pageloom.Html

variable {t inner behind element word : Text} {ps qs : List Piece} {n : ℕ}

/-! ### The scan -/

/-- A part of a text: a character, a kept element, or a comment between its marks. -/
inductive Part where
  | char (c : Char)
  | element (text : Text)
  | comment (inner : Text)
deriving Repr, DecidableEq

/-- What a comment begins with. -/
def commentStart : Text := "<!--"

/-- What a comment ends with. -/
def commentEnd : Text := "-->"

/-- What stands inside a comment at the start of a text, up to the first end of a comment. A
conditional comment, which begins with `[if`, is none. -/
def comment? (t : Text) : Option Text :=
  (Text.dropPrefix? commentStart t).bind fun rest =>
    if Text.startsWith "[if" rest then none else (Text.cut? commentEnd rest).map Prod.fst

/-- The parts of a text whose first `skip` characters belong to an element or a comment. -/
def partsFrom : (skip : Nat) → Text → List Part
  | _, [] => []
  | n + 1, _ :: cs => partsFrom n cs
  | 0, c :: cs =>
    match comment? (c :: cs), elementLength? (c :: cs) with
    | some inner, _ => .comment inner :: partsFrom (inner.length + 6) cs
    | none, some n => .element ((c :: cs).take n) :: partsFrom (n - 1) cs
    | none, none => .char c :: partsFrom 0 cs

/-- The characters, kept elements and comments of a text, in order. -/
def parts (t : Text) : List Part := partsFrom 0 t

/-- What a part is outside of comments. -/
def Part.outside : Part → Text
  | .char c => [c]
  | .element text => text
  | .comment _ => []

/-- The text without its comments. -/
def outside (t : Text) : Text := (parts t).flatMap Part.outside

/-- The pieces of a part. -/
def Part.pieces : Part → List Piece
  | .char c => [.char c]
  | .element text => [.kept text]
  | .comment inner =>
    commentStart.map .char ++ Html.pieces inner ++ commentEnd.map .char

/-- The elements that begin in a comment end in it: the pieces of the text are those of its
parts. -/
def IsAligned (t : Text) : Prop := pieces t = (parts t).flatMap Part.pieces

instance (t : Text) : Decidable (IsAligned t) := inferInstanceAs (Decidable (_ = _))

/-! ### One piece -/

theorem piecesFrom_eq_drop (n : ℕ) (t : Text) : piecesFrom n t = pieces (t.drop n) := by
  induction n generalizing t with
  | zero => rfl
  | succ n ih =>
    cases t with
    | nil => simp [pieces, piecesFrom]
    | cons c t => exact ih t

theorem partsFrom_eq_drop (n : ℕ) (t : Text) : partsFrom n t = parts (t.drop n) := by
  induction n generalizing t with
  | zero => rfl
  | succ n ih =>
    cases t with
    | nil => simp [parts, partsFrom]
    | cons c t => exact ih t

theorem dropCommentsFrom_eq_drop (n : ℕ) (ps : List Piece) :
    dropCommentsFrom n ps = dropComments (ps.drop n) := by
  induction n generalizing ps with
  | zero => rfl
  | succ n ih =>
    cases ps with
    | nil => simp [dropComments, dropCommentsFrom]
    | cons p ps => exact ih ps

theorem elementLength?_pos (h : elementLength? t = some n) : 0 < n := by
  unfold elementLength? at h
  split at h
  · obtain ⟨name, -, h⟩ := List.exists_of_findSome?_eq_some h
    obtain ⟨⟨spelling, rest⟩, -, h⟩ := Option.bind_eq_some_iff.mp h
    dsimp only at h
    split at h
    · cases h
    · obtain ⟨k, -, rfl⟩ := Option.map_eq_some_iff.mp h
      omega
  · cases h

/-- An element begins with a tag mark and a letter. -/
theorem elementLength?_of_ne {c : Char} (hc : c ≠ '<') : elementLength? (c :: t) = none := by
  unfold elementLength?
  split
  · next heq => exact absurd (List.cons.inj heq).1 hc
  · rfl

theorem pieces_cons_of_none {c : Char} (h : elementLength? (c :: t) = none) :
    pieces (c :: t) = .char c :: pieces t := by
  rw [pieces, piecesFrom, h, pieces]

theorem pieces_of_element (h : elementLength? t = some n) :
    pieces t = .kept (t.take n) :: pieces (t.drop n) := by
  cases t with
  | nil => cases h
  | cons c t =>
    obtain ⟨k, rfl⟩ := Nat.exists_eq_add_one_of_ne_zero (elementLength?_pos h).ne'
    rw [pieces, piecesFrom, h, List.drop_succ_cons, ← piecesFrom_eq_drop]
    rfl

/-- Nothing of a text is lost in the cut. -/
theorem print_pieces (t : Text) : print (pieces t) = t := by
  induction hn : t.length using Nat.strong_induction_on generalizing t with
  | _ k ih =>
    cases t with
    | nil => rfl
    | cons c t =>
      cases hlength : elementLength? (c :: t) with
      | none =>
        rw [pieces_cons_of_none hlength, print_cons, ih t.length (by simp at hn; omega) t rfl]
        rfl
      | some n =>
        have hpos := elementLength?_pos hlength
        rw [pieces_of_element hlength, print_cons,
          ih ((c :: t).drop n).length (by simp at hn ⊢; omega) _ rfl]
        exact List.take_append_drop n (c :: t)

/-- The cut goes on behind some pieces as if the text began there. -/
theorem pieces_print_of_append (h : pieces t = ps ++ qs) : pieces (print qs) = qs := by
  induction ps generalizing t with
  | nil => rw [← List.nil_append qs, ← h, print_pieces]
  | cons p ps ih =>
    cases t with
    | nil => cases h
    | cons c t =>
      cases hlength : elementLength? (c :: t) with
      | none =>
        rw [pieces_cons_of_none hlength] at h
        exact ih (List.cons.inj h).2
      | some n =>
        rw [pieces_of_element hlength] at h
        exact ih (List.cons.inj h).2

/-- Without a tag mark in it, a word is cut into its characters. -/
theorem pieces_append_of_notMem (h : '<' ∉ word) (t : Text) :
    pieces (word ++ t) = word.map .char ++ pieces t := by
  induction word with
  | nil => rfl
  | cons c word ih =>
    obtain ⟨hc, hword⟩ := not_or.mp (List.mem_cons.not.mp h)
    rw [List.cons_append, pieces_cons_of_none (elementLength?_of_ne (Ne.symm hc)), ih hword]
    rfl

/-! ### One comment -/

theorem comment?_eq_some (h : comment? t = some inner) :
    ∃ behind, t = commentStart ++ (inner ++ commentEnd ++ behind) ∧
      ¬ "[if".toList <+: inner ++ commentEnd ++ behind ∧
      ¬ commentEnd <:+: inner ++ commentEnd.dropLast := by
  obtain ⟨rest, hstart, hrest⟩ := Option.bind_eq_some_iff.mp h
  obtain rfl := Text.dropPrefix?_eq_some_iff.mp hstart
  split at hrest
  · cases hrest
  · next hif =>
    obtain ⟨⟨inner, behind⟩, hcut, rfl⟩ := Option.map_eq_some_iff.mp hrest
    obtain ⟨rfl, hfirst⟩ := Text.cut?_eq_some (by decide) hcut
    exact ⟨behind, rfl, fun hpre => hif (Text.startsWith_iff.mpr hpre), hfirst⟩

theorem parts_of_comment
    (h : comment? (commentStart ++ (inner ++ commentEnd ++ behind)) = some inner) :
    parts (commentStart ++ (inner ++ commentEnd ++ behind)) = .comment inner :: parts behind := by
  have hdrop : ('!' :: '-' :: '-' :: (inner ++ commentEnd ++ behind)).drop (inner.length + 6) =
      behind := by
    have hsplit : '!' :: '-' :: '-' :: (inner ++ commentEnd ++ behind) =
        ('!' :: '-' :: '-' :: (inner ++ commentEnd)) ++ behind := rfl
    rw [hsplit]
    exact List.drop_left' (by simp [commentEnd])
  change comment? ('<' :: '!' :: '-' :: '-' :: (inner ++ commentEnd ++ behind)) = _ at h
  change parts ('<' :: '!' :: '-' :: '-' :: (inner ++ commentEnd ++ behind)) = _
  rw [parts, partsFrom, h]
  simp only
  rw [partsFrom_eq_drop, hdrop]

theorem parts_of_element (hcomment : comment? t = none) (h : elementLength? t = some n) :
    parts t = .element (t.take n) :: parts (t.drop n) := by
  cases t with
  | nil => cases h
  | cons c t =>
    obtain ⟨k, rfl⟩ := Nat.exists_eq_add_one_of_ne_zero (elementLength?_pos h).ne'
    rw [parts, partsFrom, hcomment, h, List.drop_succ_cons, ← partsFrom_eq_drop]
    rfl

theorem parts_cons_of_none {c : Char} (hcomment : comment? (c :: t) = none)
    (h : elementLength? (c :: t) = none) : parts (c :: t) = .char c :: parts t := by
  rw [parts, partsFrom, hcomment, h, parts]

/-- The end of a comment is found at its first place, where it does not stand earlier nor across. -/
theorem lengthThrough?_of_first (hne : word ≠ [])
    (h : ¬ word.map .char <:+: ps ++ (word.map Piece.char).dropLast) :
    lengthThrough? word (ps ++ (word.map .char ++ qs)) = some (ps.length + word.length) := by
  induction ps with
  | nil =>
    have hdrop : dropLiteral? word (word.map .char ++ qs) = some qs :=
      dropLiteral?_eq_some_iff.mpr rfl
    cases word with
    | nil => exact absurd rfl hne
    | cons c word =>
      rw [List.map_cons, List.cons_append] at hdrop
      simp [lengthThrough?, hdrop]
  | cons p ps ih =>
    rw [List.cons_append, List.infix_cons_iff, not_or] at h
    have hdrop : dropLiteral? word (p :: (ps ++ (word.map .char ++ qs))) = none := by
      rw [Option.eq_none_iff_forall_ne_some]
      intro rest hrest
      have hword : word.map .char <+: p :: (ps ++ (word.map .char ++ qs)) :=
        ⟨rest, (dropLiteral?_eq_some_iff.mp hrest).symm⟩
      have hfirst : p :: (ps ++ (word.map Piece.char).dropLast) <+:
          p :: (ps ++ (word.map .char ++ qs)) := by
        rw [List.prefix_cons_inj, List.prefix_append_right_inj]
        exact (List.dropLast_prefix _).trans (List.prefix_append _ qs)
      refine h.1 (List.prefix_of_prefix_length_le hword hfirst ?_)
      simp
      omega
    have hlength : lengthThrough? word (p :: (ps ++ (word.map .char ++ qs))) =
        (lengthThrough? word (ps ++ (word.map .char ++ qs))).map (· + 1) := by
      rw [lengthThrough?, hdrop]
      rfl
    rw [List.cons_append, hlength, ih h.2, Option.map_some, List.length_cons, Nat.add_right_comm]

theorem commentLength?_of_comment (hif : ¬ "[if".toList <+: inner ++ commentEnd ++ print qs)
    (hfirst : ¬ commentEnd <:+: inner ++ commentEnd.dropLast) :
    commentLength? (Part.pieces (.comment inner) ++ qs) =
      some (Part.pieces (.comment inner)).length := by
  have hstart : dropLiteral? "<!--".toList (Part.pieces (.comment inner) ++ qs) =
      some (pieces inner ++ (commentEnd.map .char ++ qs)) := by
    rw [dropLiteral?_eq_some_iff, Part.pieces, commentStart, List.append_assoc, List.append_assoc]
  have hopen : dropLiteral? "[if".toList (pieces inner ++ (commentEnd.map .char ++ qs)) = none := by
    rw [Option.eq_none_iff_forall_ne_some]
    intro rest hrest
    refine hif ⟨print rest, ?_⟩
    have htext := congrArg print (dropLiteral?_eq_some_iff.mp hrest)
    simp only [print_append, print_pieces, print_map_char] at htext
    rw [← htext, List.append_assoc]
  have hend : lengthThrough? commentEnd (pieces inner ++ (commentEnd.map .char ++ qs)) =
      some ((pieces inner).length + commentEnd.length) := by
    refine lengthThrough?_of_first (by decide) fun hinf => hfirst ?_
    rw [← List.map_dropLast] at hinf
    simpa only [print_append, print_pieces, print_map_char] using infix_print hinf
  rw [commentEnd] at hend
  simp only [commentLength?, hstart, Option.bind_some, hopen, Option.isSome_none,
    Bool.false_eq_true, if_false]
  rw [commentEnd, hend, Option.map_some, Part.pieces]
  simp [commentStart, commentEnd]

theorem infix_of_lengthThrough? (h : lengthThrough? word ps = some n) :
    word.map .char <:+: ps := by
  induction ps generalizing n with
  | nil => cases h
  | cons p ps ih =>
    rw [lengthThrough?] at h
    split at h
    · next hdrop =>
      obtain ⟨rest, hrest⟩ := Option.isSome_iff_exists.mp hdrop
      exact List.IsPrefix.isInfix ⟨rest, (dropLiteral?_eq_some_iff.mp hrest).symm⟩
    · obtain ⟨k, hk, -⟩ := Option.map_eq_some_iff.mp h
      exact List.infix_cons (ih hk)

/-- What is found to be a comment in the pieces is one in the text. -/
theorem commentLength?_pieces_of_none (h : comment? t = none) :
    commentLength? (pieces t) = none := by
  rw [Option.eq_none_iff_forall_ne_some]
  intro n hn
  obtain ⟨rest, hstart, hrest⟩ := Option.bind_eq_some_iff.mp hn
  have hpieces := dropLiteral?_eq_some_iff.mp hstart
  have hstart' : Text.dropPrefix? commentStart t = some (print rest) := by
    rw [Text.dropPrefix?_eq_some_iff, ← print_pieces t, hpieces, print_append, print_map_char,
      commentStart]
  split at hrest
  · cases hrest
  · next hif =>
    obtain ⟨k, hend, -⟩ := Option.map_eq_some_iff.mp hrest
    have hopen : ¬ Text.startsWith "[if" (print rest) = true := by
      intro hopen
      obtain ⟨behind, hbehind⟩ := Text.startsWith_iff.mp hopen
      -- The cut goes on behind the start of the comment, so it would show the mark as well.
      rw [← pieces_print_of_append hpieces, ← hbehind, pieces_append_of_notMem (by decide),
        dropLiteral?_eq_some_iff.mpr rfl] at hif
      exact hif rfl
    have hcut : Text.cut? commentEnd (print rest) ≠ none := fun hnone =>
      Text.cut?_eq_none_iff.mp hnone (infix_print (infix_of_lengthThrough? hend))
    obtain ⟨cut, hcut⟩ := Option.ne_none_iff_exists'.mp hcut
    rw [comment?, hstart', Option.bind_some, if_neg hopen, hcut] at h
    cases h

/-! ### All comments -/

theorem dropComments_cons_of_none {p : Piece} (h : commentLength? (p :: ps) = none) :
    dropComments (p :: ps) = p :: dropComments ps := by
  rw [dropComments, dropCommentsFrom, h, dropComments]

theorem dropComments_append (h : commentLength? (ps ++ qs) = some ps.length) (hne : ps ≠ []) :
    dropComments (ps ++ qs) = dropComments qs := by
  obtain ⟨p, ps, rfl⟩ := List.exists_cons_of_ne_nil hne
  rw [List.cons_append] at h ⊢
  rw [dropComments, dropCommentsFrom, h]
  simp only
  rw [dropCommentsFrom_eq_drop, List.length_cons, Nat.add_sub_cancel, List.drop_left]

/-- An aligned text is aligned behind its first comment, where the cut goes on. -/
theorem IsAligned.behind_comment {behind : Text} (h : IsAligned t)
    (hparts : parts t = .comment inner :: parts behind)
    (ht : t = commentStart ++ (inner ++ commentEnd ++ behind)) :
    pieces t = Part.pieces (.comment inner) ++ pieces behind ∧ IsAligned behind := by
  rw [IsAligned, hparts, List.flatMap_cons] at h
  have hbehind : print ((parts behind).flatMap Part.pieces) = behind := by
    have htext := congrArg print h
    rw [ht] at htext
    simp only [print_append, print_pieces, print_map_char, Part.pieces, List.append_assoc,
      List.append_cancel_left_eq] at htext
    exact htext.symm
  have hrest := pieces_print_of_append h
  rw [hbehind] at hrest
  exact ⟨hrest ▸ h, hrest⟩

/-- **Comments are found in the pieces as in the text**, as long as no element that begins in one
goes over its end. -/
theorem print_dropComments_of_isAligned (h : IsAligned t) :
    print (dropComments (pieces t)) = outside t := by
  induction hn : t.length using Nat.strong_induction_on generalizing t with
  | _ k ih =>
    cases hcomment : comment? t with
    | some inner =>
      obtain ⟨behind, rfl, hif, hfirst⟩ := comment?_eq_some hcomment
      have hparts := parts_of_comment hcomment
      obtain ⟨hpieces, haligned⟩ := h.behind_comment hparts rfl
      rw [hpieces, dropComments_append (commentLength?_of_comment ?_ hfirst) ?_,
        ih behind.length ?_ haligned rfl, outside, outside, hparts]
      · rfl
      · rw [← hn]
        simp [commentStart]
        omega
      · rwa [print_pieces]
      · exact List.cons_ne_nil _ _
    | none =>
      have hpieces := commentLength?_pieces_of_none hcomment
      cases t with
      | nil => rfl
      | cons c t =>
        cases hlength : elementLength? (c :: t) with
        | some n =>
          have hparts := parts_of_element hcomment hlength
          have hpos := elementLength?_pos hlength
          rw [pieces_of_element hlength] at hpieces
          rw [IsAligned, hparts, pieces_of_element hlength] at h
          rw [pieces_of_element hlength, dropComments_cons_of_none hpieces, print_cons,
            ih _ ?_ (List.cons.inj h).2 rfl, outside, outside, hparts]
          · rfl
          · rw [← hn]
            simp
            omega
        | none =>
          have hparts := parts_cons_of_none hcomment hlength
          rw [pieces_cons_of_none hlength] at hpieces
          rw [IsAligned, hparts, pieces_cons_of_none hlength] at h
          rw [pieces_cons_of_none hlength, dropComments_cons_of_none hpieces, print_cons,
            ih t.length (by simp at hn; omega) (List.cons.inj h).2 rfl, outside, outside, hparts]
          rfl

/-- **Minifying loses no content.** If the text does not spell the mark of a kept element outside of
its comments, and no element that begins in a comment goes over its end, then minifying succeeds.
What is left are the characters outside of comments that are not blank, each of them once and in
order. -/
theorem minify_keeps_content (hfree : ¬ keepMark <:+: outside t) (haligned : IsAligned t) :
    ∃ out, minify t = .ok out ∧ content out = content (outside t) := by
  have hprint := print_dropComments_of_isAligned haligned
  rw [← hprint] at hfree ⊢
  exact exists_minify_of_free hfree

/-- An element that ends inside of its comment goes with it, and a comment that stands in an element
stays. -/
theorem minify_element_in_comment :
    let t : Text := "<p> a <!-- <pre> b </pre> --> c </p> <PRE> <!-- d --></PRE>"
    ¬ keepMark <:+: outside t ∧ IsAligned t ∧
      ∃ out, minify t = .ok out ∧ content out = "<p>ac</p><PRE><!--d--></PRE>" := by
  intro t
  have hfree : ¬ keepMark <:+: outside t := by decide
  have haligned : IsAligned t := by decide
  obtain ⟨out, hminify, hcontent⟩ := minify_keeps_content hfree haligned
  exact ⟨hfree, haligned, out, hminify, hcontent.trans (by decide)⟩

/-- Without alignment text is lost: the element hides the end of the comment. -/
example : minify "<!--<pre>--> a </pre> b --> c" = .ok "c" ∧
    content (outside "<!--<pre>--> a </pre> b --> c") = "a</pre>b-->c" := by decide

end Pageloom.Html
