import Pageloom.Proofs.Html.Stability

/-!
# Comments that are left

Comments are dropped in one pass from left to right, between the elements that are kept. What stood
before a comment and what stood behind it come together when it goes. They may make up the start of
another comment, or of an element that ends in the middle of what was kept before. The pass is over
by then, so a comment is left in the result.

Nothing else matters for that. Blanks that go later on make no comment and no element, and destroy
none: both are found in a text exactly if they are found in the thin text. So a text is minified to
one without comments if there is none when the comments of the one pass are gone, and only then.

## Main definitions

* `Html.BeginsComment`, `Html.HasComment`: a comment stands in a text, outside of its kept elements.
* `Html.HoldsCommentEnd`: the end of a comment stands there.

## Main results

* `Html.isSome_commentLength?_iff`: a comment is found exactly where one begins.
* `Html.exists_of_beginsComment`: what the one pass leaves behind was torn.
* `Html.hasComment_thinFrom`: a thin text has a comment if the text has one.
* `Html.minify_hasComment_iff`: when a comment is left.
-/

namespace Pageloom.Html

variable {t u w html element name inner : Text} {c : Char} {p : Piece} {ps qs : List Piece}

/-- A comment begins the pieces: its start is not followed by `[if`, and its end follows
somewhere. -/
def BeginsComment (ps : List Piece) : Prop :=
  ∃ behind, ps = commentStart.map .char ++ behind ∧ ¬ "[if".toList.map .char <+: behind ∧
    commentEnd.map .char <:+: behind

/-- A comment stands in the text, outside of the elements that are kept. -/
def HasComment (t : Text) : Prop := ∃ ps, ps <:+ pieces t ∧ BeginsComment ps

/-- The end of a comment stands in the text, outside of the elements that are kept. -/
def HoldsCommentEnd (t : Text) : Prop := commentEnd.map .char <:+: pieces t

/-! ### Finding comments -/

theorem isSome_dropLiteral?_iff : (dropLiteral? w ps).isSome ↔ w.map .char <+: ps := by
  rw [Option.isSome_iff_exists]
  exact exists_congr fun rest => dropLiteral?_eq_some_iff.trans eq_comm

theorem isSome_lengthThrough?_iff (hne : w ≠ []) :
    (lengthThrough? w ps).isSome ↔ w.map .char <:+: ps := by
  induction ps with
  | nil => simp [lengthThrough?, hne]
  | cons p ps ih =>
    rw [lengthThrough?, List.infix_cons_iff, ← isSome_dropLiteral?_iff, ← ih]
    split <;> simp [*]

/-- **A comment is found** exactly where one begins. -/
theorem isSome_commentLength?_iff : (commentLength? ps).isSome ↔ BeginsComment ps := by
  have hend (behind : List Piece) :
      (lengthThrough? "-->" behind).isSome ↔ commentEnd.map .char <:+: behind :=
    isSome_lengthThrough?_iff (by decide)
  rw [commentLength?, Option.isSome_bind, Option.any_eq_true]
  refine exists_congr fun behind => and_congr dropLiteral?_eq_some_iff ?_
  rw [← isSome_dropLiteral?_iff, ← hend]
  split
  · next hif => exact iff_of_false Bool.false_ne_true fun h => h.1 hif
  · next hif => rw [Option.isSome_map, and_iff_right hif]

instance (ps : List Piece) : Decidable (BeginsComment ps) :=
  decidable_of_iff _ isSome_commentLength?_iff

instance (t : Text) : Decidable (HasComment t) :=
  decidable_of_iff (∃ ps ∈ (pieces t).tails, BeginsComment ps) <|
    exists_congr fun _ => and_congr_left' (List.mem_tails _ _)

/-! ### What one pass leaves -/

theorem dropComments_cons_of_not (h : ¬ BeginsComment (p :: ps)) :
    dropComments (p :: ps) = p :: dropComments ps :=
  dropComments_cons_of_none (by simpa [← isSome_commentLength?_iff] using h)

theorem BeginsComment.isPrefix (h : BeginsComment ps) : commentStart.map .char <+: ps := by
  obtain ⟨behind, rfl, -⟩ := h
  exact List.prefix_append _ behind

theorem not_beginsComment_cons_of_ne (hp : p ≠ .char '<') : ¬ BeginsComment (p :: ps) :=
  fun h => hp (List.cons_prefix_cons.mp h.isPrefix).1.symm

/-- Without a mark in it, a word in front stays there. -/
theorem dropComments_append_of_notMem (hw : '<' ∉ w) (ps : List Piece) :
    dropComments (w.map .char ++ ps) = w.map .char ++ dropComments ps := by
  induction w with
  | nil => rfl
  | cons c w ih =>
    obtain ⟨hc, hw⟩ := not_or.mp (List.mem_cons.not.mp hw)
    have hne : Piece.char c ≠ .char '<' := fun heq => hc (Piece.char.inj heq).symm
    rw [List.map_cons, List.cons_append,
      dropComments_cons_of_not (not_beginsComment_cons_of_ne hne), ih hw, List.cons_append]

/-- Without the end of a comment no comment goes. -/
theorem dropComments_of_endless (h : ¬ commentEnd.map .char <:+: ps) : dropComments ps = ps := by
  induction ps with
  | nil => rfl
  | cons p ps ih =>
    have hnone : ¬ BeginsComment (p :: ps) := by
      rintro ⟨behind, heq, -, hend⟩
      exact h (heq ▸ hend.trans (List.suffix_append _ behind).isInfix)
    rw [dropComments_cons_of_not hnone, ih fun hinf => h (List.infix_cons hinf)]

/-- A word that begins what one pass leaves began the pieces before, or a comment tore it. -/
theorem exists_of_dropComments_eq (h : dropComments ps = w.map .char ++ qs) :
    (∃ rest, ps = w.map .char ++ rest ∧ dropComments rest = qs) ∨
      ∃ part rest, part <+: w ∧ part ≠ w ∧ ps = part.map .char ++ rest ∧ BeginsComment rest := by
  induction w generalizing ps with
  | nil => exact .inl ⟨ps, rfl, h⟩
  | cons c w ih =>
    by_cases hcomment : BeginsComment ps
    · exact .inr ⟨[], ps, List.nil_prefix, (List.cons_ne_nil c w).symm, rfl, hcomment⟩
    · cases ps with
      | nil => cases h
      | cons p ps =>
        rw [dropComments_cons_of_not hcomment, List.map_cons, List.cons_append] at h
        obtain ⟨rfl, htail⟩ := List.cons.inj h
        rcases ih htail with ⟨rest, rfl, hrest⟩ | ⟨part, rest, hpart, hne, rfl, hrest⟩
        · exact .inl ⟨rest, rfl, hrest⟩
        · exact .inr ⟨c :: part, rest, List.cons_prefix_cons.mpr ⟨rfl, hpart⟩,
            fun heq => hne (List.cons.inj heq).2, rfl, hrest⟩

/-- **A comment that one pass leaves behind was torn**: right behind a part of its start another
comment began. -/
theorem exists_of_beginsComment (hqs : qs <:+ dropComments ps) (hcomment : BeginsComment qs) :
    ∃ part, part <+: commentStart ∧ part ≠ [] ∧ part ≠ commentStart ∧
      (part ++ commentStart).map .char <:+: ps := by
  induction hn : ps.length using Nat.strong_induction_on generalizing ps with
  | _ n ih =>
    cases ps with
    | nil =>
      obtain rfl := List.suffix_nil.mp hqs
      cases List.prefix_nil.mp hcomment.isPrefix
    | cons p ps =>
      have hrest (rest : List Piece) (hsuffix : rest <:+ ps) (hqs : qs <:+ dropComments rest) :
          ∃ part, part <+: commentStart ∧ part ≠ [] ∧ part ≠ commentStart ∧
            (part ++ commentStart).map .char <:+: p :: ps := by
        have hlt : rest.length < n := by
          have := hsuffix.length_le
          rw [List.length_cons] at hn
          omega
        obtain ⟨part, hpart, hne, hne', hinf⟩ := ih rest.length hlt hqs rfl
        exact ⟨part, hpart, hne, hne',
          hinf.trans (hsuffix.trans (List.suffix_cons p ps)).isInfix⟩
      cases hlength : commentLength? (p :: ps) with
      | some k =>
        rw [dropComments, dropCommentsFrom, hlength] at hqs
        simp only [dropCommentsFrom_eq_drop] at hqs
        exact hrest _ (List.drop_suffix _ ps) hqs
      | none =>
        have hnone : ¬ BeginsComment (p :: ps) := by
          rw [← isSome_commentLength?_iff, hlength]
          exact Bool.false_ne_true
        rw [dropComments_cons_of_not hnone] at hqs
        rcases List.suffix_cons_iff.mp hqs with rfl | hqs
        · obtain ⟨behind, heq, hif, hend⟩ := hcomment
          rw [← dropComments_cons_of_not hnone] at heq
          rcases exists_of_dropComments_eq heq with
            ⟨rest, hps, rfl⟩ | ⟨part, rest, hpart, hne, hps, hrest⟩
          · -- The start was there before, so the comment was one before.
            refine absurd ⟨rest, hps, ?_, ?_⟩ hnone
            · rintro ⟨behind, rfl⟩
              exact hif ⟨_, (dropComments_append_of_notMem (by decide) behind).symm⟩
            · by_contra hendless
              exact hendless (dropComments_of_endless hendless ▸ hend)
          · refine ⟨part, hpart, ?_, hne, ?_⟩
            · rintro rfl
              exact hnone (hps ▸ hrest)
            · rw [hps, List.map_append]
              exact (List.prefix_append_right_inj _ |>.mpr hrest.isPrefix).isInfix
        · exact hrest ps List.suffix_rfl hqs

/-! ### One piece after the other -/

theorem prefix_pieces_iff (hw : '<' ∉ w) : w.map .char <+: pieces t ↔ w <+: t := by
  constructor
  · rintro ⟨rest, hrest⟩
    rw [← print_pieces t, ← hrest, print_append, print_map_char]
    exact List.prefix_append w _
  · rintro ⟨rest, rfl⟩
    rw [pieces_append_of_notMem hw]
    exact List.prefix_append _ _

/-- Where a mark begins no element, the text behind it tells whether it begins a comment. -/
theorem beginsComment_mark_iff :
    BeginsComment (.char '<' :: pieces t) ↔ ∃ behind, t = "!--".toList ++ behind ∧
      ¬ "[if".toList <+: behind ∧ HoldsCommentEnd behind := by
  have hstart : commentStart.map Piece.char = .char '<' :: "!--".toList.map .char := rfl
  simp only [BeginsComment, hstart, List.cons_append, List.cons.injEq, true_and]
  constructor
  · rintro ⟨behind, heq, hif, hend⟩
    have hbehind := pieces_print_of_append heq
    refine ⟨print behind, ?_, ?_, ?_⟩
    · rw [← print_pieces t, heq, print_append, print_map_char]
    · rwa [← prefix_pieces_iff (by decide), hbehind]
    · rwa [HoldsCommentEnd, hbehind]
  · rintro ⟨behind, rfl, hif, hend⟩
    refine ⟨pieces behind, pieces_append_of_notMem (by decide) behind, ?_, hend⟩
    rwa [prefix_pieces_iff (by decide)]

/-- A comment stands at the first piece or behind it. -/
theorem hasComment_of_pieces (h : pieces t = p :: pieces u) :
    HasComment t ↔ BeginsComment (p :: pieces u) ∨ HasComment u := by
  simp only [HasComment, h, List.suffix_cons_iff, or_and_right, exists_or, exists_eq_left]

theorem hasComment_of_pieces_ne (h : pieces t = p :: pieces u) (hp : p ≠ .char '<') :
    HasComment t ↔ HasComment u := by
  rw [hasComment_of_pieces h, or_iff_right (not_beginsComment_cons_of_ne hp)]

/-- The end of a comment stands at the first piece or behind it. -/
theorem holdsCommentEnd_of_pieces (h : pieces t = p :: pieces u) :
    HoldsCommentEnd t ↔ commentEnd.map .char <+: p :: pieces u ∨ HoldsCommentEnd u := by
  rw [HoldsCommentEnd, HoldsCommentEnd, h, List.infix_cons_iff]

theorem holdsCommentEnd_of_pieces_ne (h : pieces t = p :: pieces u) (hp : p ≠ .char '-') :
    HoldsCommentEnd t ↔ HoldsCommentEnd u := by
  rw [holdsCommentEnd_of_pieces h, or_iff_right]
  exact fun hpre => hp (List.cons_prefix_cons.mp hpre).1.symm

/-! ### Thin texts -/

/-- No closing tag ends in the mark of another one. -/
theorem holdsClosingTag_concat : HoldsClosingTag name (t ++ ['<']) ↔ HoldsClosingTag name t := by
  refine exists_congr fun tag => and_congr_right fun htag => ?_
  rw [List.infix_concat_iff, or_iff_right]
  obtain ⟨again, blanks, rfl, -⟩ := htag
  rintro ⟨before, hbefore⟩
  have hsplit : (before ++ '<' :: '/' :: (again ++ blanks)) ++ ['>'] = t ++ ['<'] := by
    rw [← hbefore]
    simp
  exact absurd (List.append_inj' hsplit rfl).2 (by decide)

theorem border_concat (t : Text) : (t ++ ['<']).head?.any isWordChar = t.head?.any isWordChar := by
  cases t with
  | nil => decide
  | cons c t => rfl

/-- The end of a closing tag has blanks before it or not. -/
theorem exists_thinFrom_end {blanks : Text} (hblanks : ∀ c ∈ blanks, isBlank c) :
    ∃ spaces, thinFrom false false (blanks ++ ['>']) = spaces ++ ['>'] ∧
      ∀ c ∈ spaces, isBlank c := by
  cases blanks with
  | nil => exact ⟨[], rfl, nofun⟩
  | cons c blanks =>
    obtain ⟨hc, hblanks⟩ := List.forall_mem_cons.mp hblanks
    refine ⟨[' '], ?_, List.forall_mem_singleton.mpr (by decide)⟩
    rw [List.cons_append, thinFrom_blank hc, thinFrom_blank_append hblanks]
    rfl

/-- **An element stays an element** when its blanks are thinned out. -/
theorem isElement_thinFrom (h : IsElement element) : IsElement (thinFrom false false element) := by
  obtain ⟨word, hword, name, inner, tag, rfl, hspells, hborder, htag, hinner⟩ := h
  have hname := hspells.isBareName hword
  obtain ⟨again, blanks, rfl, hagain, hblanks⟩ := htag
  have hslash : IsBare ('/' :: again) := isBare_cons_iff.mpr ⟨by decide, hname again hagain⟩
  have hmark : isBlank '<' = false := by decide
  obtain ⟨inner', hthin⟩ := exists_thinFrom_concat hmark false false inner
  obtain ⟨spaces, hend, hspaces⟩ := exists_thinFrom_end hblanks
  refine ⟨word, hword, name, inner', '<' :: '/' :: (again ++ (spaces ++ ['>'])), ?_, hspells, ?_,
    ⟨again, spaces, rfl, hagain, hspaces⟩, fun tag htag hinfix => ?_⟩
  · have htag := thinFrom_append_of_isBare hslash (blanks ++ ['>'])
    rw [List.cons_append] at htag
    have hopen : ('<' == '>') = false := by decide
    rw [thinFrom_cons hmark, hopen, thinFrom_append_of_isBare hname.isBare,
      thinFrom_append_cons hmark, hopen, hthin, htag, hend]
    simp
  · rwa [← border_concat, ← hthin, border_thinFrom, border_concat]
  · have hholds : HoldsClosingTag name inner' := ⟨tag, htag, hinfix⟩
    rw [← holdsClosingTag_concat, ← hthin, holdsClosingTag_thinFrom hname,
      holdsClosingTag_concat] at hholds
    obtain ⟨tag, htag, hinfix⟩ := hholds
    exact hinner tag htag hinfix

/-- What can be told from one character or element to the next, and does not depend on blanks, holds
of a thin text if it holds of the text. -/
theorem iff_thinFrom {P : Text → Prop} (hblank : ∀ c t, isBlank c → (P (c :: t) ↔ P t))
    (hsolid : ∀ c t, isBlank c = false → elementLength? (c :: t) = none →
      elementLength? (c :: thinFrom (c == '>') false t) = none →
      (P (thinFrom (c == '>') false t) ↔ P t) → (P (c :: thinFrom (c == '>') false t) ↔ P (c :: t)))
    (helement : ∀ element t, IsElement element → (P (element ++ t) ↔ P t))
    (afterTag gap : Bool) (t : Text) : P (thinFrom afterTag gap t) ↔ P t := by
  induction hn : t.length using Nat.strong_induction_on generalizing afterTag gap t with
  | _ n ih =>
    cases t with
    | nil => rfl
    | cons c t =>
      have hrest (afterTag gap : Bool) : P (thinFrom afterTag gap t) ↔ P t :=
        ih t.length (by rw [← hn]; simp) afterTag gap t rfl
      cases hc : isBlank c with
      | true => rw [thinFrom_blank hc, hblank c t hc, hrest]
      | false =>
        have hcons : P (c :: thinFrom (c == '>') false t) ↔ P (c :: t) := by
          have hthin := isSome_elementLength?_thinFrom hc t
          cases hlength : elementLength? (c :: t) with
          | none =>
            rw [hlength, Option.isSome_none, Option.isSome_eq_false_iff,
              Option.isNone_iff_eq_none] at hthin
            exact hsolid c t hc hlength hthin (hrest (c == '>') false)
          | some k =>
            obtain ⟨element, rest, ht, helem, -⟩ := elementLength?_eq_some_iff.mp hlength
            have hpos := List.length_pos_of_ne_nil helem.ne_nil
            have hshort : rest.length < n := by rw [← hn, ht, List.length_append]; omega
            have hopen := helem.thinFrom_append false false rest
            rw [← ht, thinFrom_cons hc] at hopen
            rw [hopen, ht, helement _ _ (isElement_thinFrom helem), helement _ _ helem]
            exact ih rest.length hshort true false rest rfl
        rw [thinFrom_solid hc]
        split
        · rw [List.singleton_append, hblank ' ' _ (by decide), hcons]
        · exact hcons

theorem pieces_cons_of_isBlank (hc : isBlank c) (t : Text) :
    pieces (c :: t) = .char c :: pieces t :=
  pieces_cons_of_none (elementLength?_of_ne fun heq => absurd (heq ▸ hc) (by decide))

theorem holdsCommentEnd_thinFrom (afterTag gap : Bool) (t : Text) :
    HoldsCommentEnd (thinFrom afterTag gap t) ↔ HoldsCommentEnd t := by
  refine iff_thinFrom ?_ ?_ ?_ afterTag gap t
  · intro c t hc
    refine holdsCommentEnd_of_pieces_ne (pieces_cons_of_isBlank hc t) fun heq => ?_
    exact absurd (Piece.char.inj heq ▸ hc) (by decide)
  · intro c t hc hnone hthin hrest
    have hpre := prefix_thinFrom_iff (w := commentEnd) (List.all_iff_forall_prop.mp (by decide))
      (by decide) false (c :: t)
    rw [thinFrom_cons hc, ← prefix_pieces_iff (by decide), ← prefix_pieces_iff (by decide),
      pieces_cons_of_none hthin, pieces_cons_of_none hnone] at hpre
    rw [holdsCommentEnd_of_pieces (pieces_cons_of_none hthin),
      holdsCommentEnd_of_pieces (pieces_cons_of_none hnone), hrest, hpre]
  · intro element t helement
    exact holdsCommentEnd_of_pieces_ne (pieces_append_of_isElement helement t) Piece.noConfusion

theorem beginsComment_thinFrom :
    BeginsComment (.char '<' :: pieces (thinFrom false false t)) ↔
      BeginsComment (.char '<' :: pieces t) := by
  have hmark : IsBare "!--".toList := by decide
  have hif : IsBare "[if".toList := by decide
  have hopens (behind : Text) :
      "[if".toList <+: thinFrom false false behind ↔ "[if".toList <+: behind :=
    prefix_thinFrom_iff (fun c hc => (hif c hc).1) (by decide) false behind
  rw [beginsComment_mark_iff, beginsComment_mark_iff]
  constructor
  · rintro ⟨behind, heq, hopen, hend⟩
    obtain ⟨behind, rfl, rfl⟩ := exists_of_thinFrom_eq_append hmark heq
    rw [hopens] at hopen
    rw [holdsCommentEnd_thinFrom] at hend
    exact ⟨behind, rfl, hopen, hend⟩
  · rintro ⟨behind, rfl, hopen, hend⟩
    refine ⟨thinFrom false false behind, thinFrom_append_of_isBare hmark behind, ?_, ?_⟩
    · rwa [hopens]
    · rwa [holdsCommentEnd_thinFrom]

/-- **Comments in thin texts**: a thin text has a comment if the text has one, and only then. -/
theorem hasComment_thinFrom (afterTag gap : Bool) (t : Text) :
    HasComment (thinFrom afterTag gap t) ↔ HasComment t := by
  refine iff_thinFrom ?_ ?_ ?_ afterTag gap t
  · intro c t hc
    refine hasComment_of_pieces_ne (pieces_cons_of_isBlank hc t) fun heq => ?_
    exact absurd (Piece.char.inj heq ▸ hc) (by decide)
  · intro c t hc hnone hthin hrest
    rw [hasComment_of_pieces (pieces_cons_of_none hthin),
      hasComment_of_pieces (pieces_cons_of_none hnone), hrest]
    refine or_congr_left ?_
    by_cases hmark : c = '<'
    · subst hmark
      exact beginsComment_thinFrom
    · have hne : Piece.char c ≠ .char '<' := fun heq => hmark (Piece.char.inj heq)
      exact iff_of_false (not_beginsComment_cons_of_ne hne) (not_beginsComment_cons_of_ne hne)
  · intro element t helement
    exact hasComment_of_pieces_ne (pieces_append_of_isElement helement t) Piece.noConfusion

/-! ### Minifying -/

theorem dropCommentsFrom_sublist (skip : ℕ) (ps : List Piece) :
    (dropCommentsFrom skip ps).Sublist ps := by
  fun_induction dropCommentsFrom skip ps with
  | case1 => exact List.Sublist.slnil
  | case2 n p ps ih => exact ih.cons p
  | case3 p ps n hlength ih => exact ih.cons p
  | case4 p ps hlength ih => exact ih.cons_cons p

theorem keepsElements_dropComments (t : Text) : KeepsElements (dropComments (pieces t)) :=
  fun element hmem =>
    keepsElements_pieces t element ((dropCommentsFrom_sublist 0 _).subset hmem)

/-- **A comment is left** in the result if there is one in the text when its comments are gone, and
only then. Then dropping them has made up another element, or in the text a comment begins right
behind a part of the start of another one. This holds of every text in which no written form of a
kept element comes up. -/
theorem minify_hasComment_iff (hfree : ∀ digits, ¬ IsLookalike (minifiedPieces html) digits) :
    ∃ out, minify html = .ok out ∧
      (HasComment out ↔ HasComment (print (dropComments (pieces html)))) ∧
      (HasComment out → ¬ IsCut (dropComments (pieces html)) ∨
        ∃ part, part <+: commentStart ∧ part ≠ [] ∧ part ≠ commentStart ∧
          part ++ commentStart <:+: html) := by
  have hsame : HasComment (print (minifiedPieces html)) ↔
      HasComment (print (dropComments (pieces html))) := by
    have hthin := thinFrom_thinned (keepsElements_dropComments html) false
    rw [← hasComment_thinFrom false true, minifiedPieces, hthin, hasComment_thinFrom]
  refine ⟨print (minifiedPieces html),
    (restore_eq_print_iff (fun element => isElement_of_mem_keptElements) _).mpr hfree, hsame, ?_⟩
  intro hleft
  by_cases hcut : IsCut (dropComments (pieces html))
  · obtain ⟨qs, hqs, hcomment⟩ := hsame.mp hleft
    rw [hcut] at hqs
    obtain ⟨part, hpart, hne, hne', hinf⟩ := exists_of_beginsComment hqs hcomment
    exact .inr ⟨part, hpart, hne, hne', print_pieces html ▸ infix_print hinf⟩
  · exact .inl hcut

/-- The start of a comment in two parts, with another comment between them. -/
theorem minify_hasComment_of_torn :
    let html : Text := "<!<!--x-->--y -->"
    let out : Text := "<!--y -->"
    (∀ digits, ¬ IsLookalike (minifiedPieces html) digits) ∧ minify html = .ok out ∧
      HasComment out := by
  intro html out
  have hfree : ∀ digits, ¬ IsLookalike (minifiedPieces html) digits :=
    (restore_eq_print_iff (fun element => isElement_of_mem_keptElements) _).mp
      (show minify html = .ok (print (minifiedPieces html)) by decide)
  have hleft : HasComment (print (dropComments (pieces html))) := by decide
  have hout : minify html = .ok out := by decide
  obtain ⟨out', hminify, hcomment, -⟩ := minify_hasComment_iff hfree
  obtain rfl : out' = out := Except.ok.inj (hminify.symm.trans hout)
  exact ⟨hfree, hout, hcomment.mpr hleft⟩

-- The start of an element in two parts: it ends where the kept element goes on.
example : minify "<scr<!--x-->ipt><pre></script><!--y--></pre>" =
    .ok "<script><pre></script><!--y--></pre>" ∧
    HasComment "<script><pre></script><!--y--></pre>" := by decide

-- What looks like a comment in an element is none, and neither is a conditional one.
example : ¬ HasComment "<pre><!-- a --></pre> <!--[if IE]> b <![endif]-->" := by decide

end Pageloom.Html
