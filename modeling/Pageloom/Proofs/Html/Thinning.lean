import Pageloom.Proofs.Html.WrittenForm

/-!
# Texts without their superfluous blanks

Thinning out the blanks of a text leaves one space of each run, and none between two tags or at the
end. Here that is one scan of the whole text, kept elements not excepted: it carries whether a tag
has just ended and whether blanks have come up since, and decides about the space when the next
character comes.

It gives a normal form. Texts that differ in superfluous blanks only have the same thin text; and
what a reader of tags looks for is found in a text exactly if it is found in the thin text. For a
word without blanks that is plain, and so for the name of an element. A closing tag may hold blanks
behind its name, but as many as it likes. So no tag comes up when blanks go, none is lost, and
elements end where they ended.

## Main definitions

* `Html.thinFrom`: the scan.
* `Html.HoldsClosingTag`: a closing tag of a name stands in a text.
* `Html.KeepsElements`: the kept ones among some pieces are elements.

## Main results

* `Html.holdsClosingTag_thinFrom`: closing tags in a thin text.
* `Html.isSome_elementLength?_thinFrom`: elements at the beginning of a thin text.
* `Html.thinFrom_thinned`: pieces of which blanks are thinned out keep their thin text.
-/

namespace Pageloom.Html

variable {t u w name rest element : Text} {c : Char} {p : Piece} {ps : List Piece}
  {afterTag gap : Bool}

/-- The text with one space for each run of blanks, and none at the end and between two tags;
`afterTag` tells whether the last character before it that is not blank ends a tag, and `gap`
whether blanks stand behind that. -/
def thinFrom : (afterTag gap : Bool) → Text → Text
  | _, _, [] => []
  | afterTag, gap, c :: t =>
    if isBlank c then thinFrom afterTag true t
    else (if gap && !(afterTag && c == '<') then [' '] else []) ++ c :: thinFrom (c == '>') false t

/-! ### One character -/

theorem thinFrom_blank (hc : isBlank c) (t : Text) :
    thinFrom afterTag gap (c :: t) = thinFrom afterTag true t := if_pos hc

theorem thinFrom_solid (hc : isBlank c = false) (t : Text) :
    thinFrom afterTag gap (c :: t) =
      (if gap && !(afterTag && c == '<') then [' '] else []) ++
        c :: thinFrom (c == '>') false t := by
  rw [thinFrom, if_neg (by simp [hc])]

/-- A character that follows without a gap follows in the thin text. -/
theorem thinFrom_cons (hc : isBlank c = false) (t : Text) :
    thinFrom afterTag false (c :: t) = c :: thinFrom (c == '>') false t := by
  rw [thinFrom_solid hc]
  rfl

/-- Behind a tag it makes no difference whether there is a gap before the next tag. -/
theorem thinFrom_mark (gap : Bool) (t : Text) :
    thinFrom true gap ('<' :: t) = '<' :: thinFrom false false t := by
  rw [thinFrom_solid (by decide)]
  simp

theorem thinFrom_of_blank {b : Text} (hb : ∀ c ∈ b, isBlank c) (afterTag gap : Bool) :
    thinFrom afterTag gap b = [] := by
  induction b generalizing gap with
  | nil => rfl
  | cons c b ih =>
    obtain ⟨hc, hb⟩ := List.forall_mem_cons.mp hb
    rw [thinFrom_blank hc, ih hb]

/-- Blanks in front widen the gap. -/
theorem thinFrom_blank_append {b : Text} (hb : ∀ c ∈ b, isBlank c) (afterTag : Bool) (t : Text) :
    thinFrom afterTag true (b ++ t) = thinFrom afterTag true t := by
  induction b with
  | nil => rfl
  | cons c b ih =>
    obtain ⟨hc, hb⟩ := List.forall_mem_cons.mp hb
    rw [List.cons_append, thinFrom_blank hc, ih hb]

/-- The scan starts anew behind a character that is not blank. -/
theorem thinFrom_append_cons (hc : isBlank c = false) (afterTag gap : Bool) (t u : Text) :
    thinFrom afterTag gap (t ++ c :: u) =
      thinFrom afterTag gap (t ++ [c]) ++ thinFrom (c == '>') false u := by
  induction t generalizing afterTag gap with
  | nil =>
    rw [List.nil_append, List.nil_append, thinFrom_solid hc, thinFrom_solid hc, List.append_assoc]
    rfl
  | cons d t ih =>
    rw [List.cons_append, List.cons_append]
    cases hd : isBlank d with
    | true => rw [thinFrom_blank hd, thinFrom_blank hd, ih]
    | false => rw [thinFrom_solid hd, thinFrom_solid hd, ih, List.append_assoc, List.cons_append]

/-- A character that is not blank stays the last one. -/
theorem exists_thinFrom_concat (hc : isBlank c = false) (afterTag gap : Bool) (t : Text) :
    ∃ u, thinFrom afterTag gap (t ++ [c]) = u ++ [c] := by
  induction t generalizing afterTag gap with
  | nil => exact ⟨_, thinFrom_solid hc []⟩
  | cons d t ih =>
    rw [List.cons_append]
    cases hd : isBlank d with
    | true => exact (thinFrom_blank hd (t ++ [c])).symm ▸ ih afterTag true
    | false =>
      obtain ⟨u, hu⟩ := ih (d == '>') false
      rw [thinFrom_solid hd, hu, ← List.cons_append, ← List.append_assoc]
      exact ⟨_, rfl⟩

/-- Blanks at the end go. -/
theorem thinFrom_append_of_blank {b : Text} (hb : ∀ c ∈ b, isBlank c) (afterTag gap : Bool)
    (t : Text) : thinFrom afterTag gap (t ++ b) = thinFrom afterTag gap t := by
  induction t generalizing afterTag gap with
  | nil => exact thinFrom_of_blank hb afterTag gap
  | cons c t ih =>
    rw [List.cons_append]
    cases hc : isBlank c with
    | true => rw [thinFrom_blank hc, thinFrom_blank hc, ih]
    | false => rw [thinFrom_solid hc, thinFrom_solid hc, ih]

/-! ### Words -/

/-- Where blanks stand, a thin text goes on with a space or the mark of a tag. -/
theorem head?_thinFrom_gap (hc : c ≠ ' ') (hmark : c ≠ '<') (afterTag : Bool) (t : Text) :
    (thinFrom afterTag true t).head? ≠ some c := by
  induction t with
  | nil => exact nofun
  | cons d t ih =>
    cases hd : isBlank d with
    | true => rwa [thinFrom_blank hd]
    | false =>
      rw [thinFrom_solid hd]
      split
      · simpa using Ne.symm hc
      · next hopen =>
        have hd : d = '<' := by simp at hopen; exact hopen.2
        simpa [hd] using Ne.symm hmark

theorem isBare_cons_iff :
    IsBare (c :: w) ↔ (isBlank c = false ∧ c ≠ '<' ∧ c ≠ '>') ∧ IsBare w :=
  List.forall_mem_cons

/-- A bare word at the beginning stays there, and what follows it is thinned out. -/
theorem thinFrom_append_of_isBare (hw : IsBare w) (t : Text) :
    thinFrom false false (w ++ t) = w ++ thinFrom false false t := by
  induction w with
  | nil => rfl
  | cons c w ih =>
    obtain ⟨⟨hblank, -, hend⟩, hw⟩ := isBare_cons_iff.mp hw
    rw [List.cons_append, thinFrom_cons hblank, beq_false_of_ne hend, ih hw, List.cons_append]

/-- A bare word at the beginning of a thin text stood at the beginning before. -/
theorem exists_of_thinFrom_eq_append (hw : IsBare w) (h : thinFrom false false t = w ++ u) :
    ∃ rest, t = w ++ rest ∧ thinFrom false false rest = u := by
  induction w generalizing t with
  | nil => exact ⟨t, rfl, h⟩
  | cons c w ih =>
    obtain ⟨⟨hblank, hmark, hend⟩, hrest⟩ := isBare_cons_iff.mp hw
    cases t with
    | nil => cases h
    | cons d t =>
      cases hd : isBlank d with
      | true =>
        rw [thinFrom_blank hd] at h
        have hspace : c ≠ ' ' := fun heq => absurd (heq ▸ hblank) (by decide)
        exact absurd (by rw [h]; rfl) (head?_thinFrom_gap hspace hmark false t)
      | false =>
        rw [thinFrom_cons hd] at h
        obtain ⟨rfl, htail⟩ := List.cons.inj h
        rw [beq_false_of_ne hend] at htail
        obtain ⟨rest, rfl, hthin⟩ := ih hrest htail
        exact ⟨rest, rfl, hthin⟩

theorem prefix_thinFrom_iff (hblank : ∀ c ∈ w, isBlank c = false) (hmark : '<' ∉ w)
    (afterTag : Bool) (t : Text) : w <+: thinFrom afterTag false t ↔ w <+: t := by
  induction w generalizing afterTag t with
  | nil => simp
  | cons c w ih =>
    obtain ⟨hc, hblank⟩ := List.forall_mem_cons.mp hblank
    obtain ⟨hne, hmark⟩ := not_or.mp (List.mem_cons.not.mp hmark)
    cases t with
    | nil => rfl
    | cons d t =>
      cases hd : isBlank d with
      | true =>
        rw [thinFrom_blank hd]
        refine iff_of_false (fun h => ?_) fun h => ?_
        · have hspace : c ≠ ' ' := fun heq => absurd (heq ▸ hc) (by decide)
          obtain ⟨rest, hrest⟩ := h
          exact head?_thinFrom_gap hspace (Ne.symm hne) afterTag t (by rw [← hrest]; rfl)
        · have heq := (List.cons_prefix_cons.mp h).1
          rw [← heq, hc] at hd
          cases hd
      | false =>
        rw [thinFrom_cons hd, List.cons_prefix_cons, List.cons_prefix_cons, ih hblank hmark]

/-! ### Closing tags -/

/-- A closing tag of an element with the given name stands in the text. -/
def HoldsClosingTag (name t : Text) : Prop := ∃ tag, IsClosingTag name tag ∧ tag <:+: t

theorem not_holdsClosingTag_nil : ¬ HoldsClosingTag name [] := by
  rintro ⟨tag, ⟨again, blanks, rfl, -⟩, hinfix⟩
  cases List.infix_nil.mp hinfix

/-- A closing tag begins with a mark, a slash and the name, and the first character that is not
blank behind the name ends it. -/
theorem exists_closingTag_prefix_iff :
    (∃ tag, IsClosingTag name tag ∧ tag <+: c :: t) ↔ c = '<' ∧ ∃ again rest,
      t = '/' :: again ++ rest ∧ IsSameName name again ∧
        (rest.dropWhile isBlank).head? = some '>' := by
  constructor
  · rintro ⟨tag, ⟨again, blanks, rfl, hagain, hblanks⟩, behind, hbehind⟩
    obtain ⟨rfl, rfl⟩ := List.cons.inj hbehind
    refine ⟨rfl, again, blanks ++ '>' :: behind, by simp, hagain, ?_⟩
    rw [List.dropWhile_append_of_pos hblanks, List.dropWhile_cons_of_neg (by decide)]
    rfl
  · rintro ⟨rfl, again, rest, rfl, hagain, hend⟩
    obtain ⟨behind, hbehind⟩ := List.head?_eq_some_iff.mp hend
    have hsplit := List.takeWhile_append_dropWhile (p := isBlank) (l := rest)
    refine ⟨'<' :: '/' :: (again ++ (rest.takeWhile isBlank ++ ['>'])),
      ⟨again, _, rfl, hagain, fun c hc => List.all_eq_true.mp (List.all_takeWhile ..) c hc⟩,
      behind, ?_⟩
    rw [hbehind] at hsplit
    conv_rhs => rw [← hsplit]
    simp

theorem holdsClosingTag_cons_iff :
    HoldsClosingTag name (c :: t) ↔
      (∃ tag, IsClosingTag name tag ∧ tag <+: c :: t) ∨ HoldsClosingTag name t := by
  simp only [HoldsClosingTag, List.infix_cons_iff, and_or_left, exists_or]

theorem holdsClosingTag_cons_of_ne (hc : c ≠ '<') :
    HoldsClosingTag name (c :: t) ↔ HoldsClosingTag name t := by
  rw [holdsClosingTag_cons_iff, or_iff_right]
  exact fun h => hc (exists_closingTag_prefix_iff.mp h).1

/-- Thinning out keeps the first character that is not blank. -/
theorem head?_dropWhile_thinFrom (afterTag gap : Bool) (t : Text) :
    ((thinFrom afterTag gap t).dropWhile isBlank).head? = (t.dropWhile isBlank).head? := by
  induction t generalizing gap with
  | nil => rfl
  | cons c t ih =>
    cases hc : isBlank c with
    | true => rw [thinFrom_blank hc, ih, List.dropWhile_cons_of_pos hc]
    | false =>
      have hneg : ¬ isBlank c = true := by simp [hc]
      rw [thinFrom_solid hc, List.dropWhile_append_of_pos, List.dropWhile_cons_of_neg hneg,
        List.dropWhile_cons_of_neg hneg]
      · rfl
      · intro d hd
        split at hd
        · rw [List.mem_singleton.mp hd]
          decide
        · cases hd

/-- **Closing tags** stand in a thin text if they stood there before. -/
theorem holdsClosingTag_thinFrom (hname : IsBareName name) (afterTag gap : Bool) (t : Text) :
    HoldsClosingTag name (thinFrom afterTag gap t) ↔ HoldsClosingTag name t := by
  induction t generalizing afterTag gap with
  | nil => rfl
  | cons c t ih =>
    cases hc : isBlank c with
    | true =>
      have hmark : c ≠ '<' := fun heq => absurd (heq ▸ hc) (by decide)
      rw [thinFrom_blank hc, ih, holdsClosingTag_cons_of_ne hmark]
    | false =>
      have hcons : HoldsClosingTag name (c :: thinFrom (c == '>') false t) ↔
          HoldsClosingTag name (c :: t) := by
        rw [holdsClosingTag_cons_iff, holdsClosingTag_cons_iff, ih, exists_closingTag_prefix_iff,
          exists_closingTag_prefix_iff]
        refine or_congr_left (and_congr_right ?_)
        rintro rfl
        have hbare {again : Text} (hagain : IsSameName name again) : IsBare ('/' :: again) :=
          isBare_cons_iff.mpr ⟨by decide, hname again hagain⟩
        constructor
        · rintro ⟨again, rest, ht, hagain, hend⟩
          obtain ⟨rest, rfl, rfl⟩ := exists_of_thinFrom_eq_append (hbare hagain) ht
          rw [head?_dropWhile_thinFrom] at hend
          exact ⟨again, rest, rfl, hagain, hend⟩
        · rintro ⟨again, rest, rfl, hagain, hend⟩
          refine ⟨again, _, thinFrom_append_of_isBare (hbare hagain) rest, hagain, ?_⟩
          rwa [head?_dropWhile_thinFrom]
      rw [thinFrom_solid hc]
      split
      · rw [List.singleton_append, holdsClosingTag_cons_of_ne (by decide), hcons]
      · exact hcons

/-! ### Elements -/

theorem isSome_lengthToClosing?_iff :
    (lengthToClosing? name t).isSome ↔ HoldsClosingTag name t := by
  induction t with
  | nil => exact iff_of_false (by simp [lengthToClosing?]) not_holdsClosingTag_nil
  | cons c t ih =>
    have hhere : (closingTag? name (c :: t)).isSome ↔
        ∃ tag, IsClosingTag name tag ∧ tag <+: c :: t := by
      simp only [Option.isSome_iff_exists, closingTag?_eq_some_iff]
      constructor
      · rintro ⟨n, tag, rest, ht, htag, -⟩
        exact ⟨tag, htag, rest, ht.symm⟩
      · rintro ⟨tag, htag, rest, ht⟩
        exact ⟨tag.length, tag, rest, ht.symm, htag, rfl⟩
    rw [holdsClosingTag_cons_iff, ← hhere, ← ih, lengthToClosing?]
    cases closingTag? name (c :: t) <;> simp

/-- An element begins with a mark and its name at a word border, and its closing tag follows. -/
theorem isSome_elementLength?_iff :
    (elementLength? ('<' :: t)).isSome ↔ ∃ word ∈ keptNames, ∃ name rest,
      (t = name ++ rest ∧ Spells word name) ∧ ¬ rest.head?.any isWordChar ∧
        HoldsClosingTag name rest := by
  simp only [elementLength?, List.findSome?_isSome_iff, ← dropWord?_eq_some_iff,
    ← isSome_lengthToClosing?_iff]
  refine exists_congr fun word => and_congr_right fun _ => ?_
  cases Text.dropWord? word t with
  | none => simp
  | some found =>
    obtain ⟨name, rest⟩ := found
    by_cases hborder : rest.head?.any isWordChar <;> simp [hborder]

/-- A thin text begins a word only if the text did. -/
theorem border_thinFrom (t : Text) :
    (thinFrom false false t).head?.any isWordChar = t.head?.any isWordChar := by
  cases t with
  | nil => rfl
  | cons c t =>
    cases hc : isBlank c with
    | true =>
      rw [thinFrom_blank hc, List.head?_cons, Option.any_some, isWordChar_of_isBlank hc,
        Option.any_eq_false]
      intro d hd
      by_contra hword
      refine head?_thinFrom_gap ?_ ?_ false t hd <;> rintro rfl <;> exact hword (by decide)
    | false => rw [thinFrom_cons hc, List.head?_cons, List.head?_cons]

/-- **Elements** begin in a thin text where they began before. -/
theorem isSome_elementLength?_thinFrom (hc : isBlank c = false) (t : Text) :
    (elementLength? (c :: thinFrom (c == '>') false t)).isSome =
      (elementLength? (c :: t)).isSome := by
  by_cases hmark : c = '<'
  · subst hmark
    rw [Bool.eq_iff_iff, isSome_elementLength?_iff, isSome_elementLength?_iff]
    refine exists_congr fun word => and_congr_right fun hword => ?_
    constructor
    · rintro ⟨name, rest, ⟨ht, hspells⟩, hborder, hclosing⟩
      have hname := hspells.isBareName hword
      obtain ⟨rest, rfl, rfl⟩ := exists_of_thinFrom_eq_append hname.isBare ht
      rw [border_thinFrom] at hborder
      rw [holdsClosingTag_thinFrom hname] at hclosing
      exact ⟨name, rest, ⟨rfl, hspells⟩, hborder, hclosing⟩
    · rintro ⟨name, rest, ⟨rfl, hspells⟩, hborder, hclosing⟩
      have hname := hspells.isBareName hword
      refine ⟨name, _, ⟨thinFrom_append_of_isBare hname.isBare rest, hspells⟩, ?_, ?_⟩
      · rwa [border_thinFrom]
      · rwa [holdsClosingTag_thinFrom hname]
  · rw [elementLength?_of_ne hmark, elementLength?_of_ne hmark]

/-! ### Pieces -/

theorem print_char_cons (c : Char) (ps : List Piece) : print (.char c :: ps) = c :: print ps :=
  print_cons (.char c) ps

theorem print_kept_cons (element : Text) (ps : List Piece) :
    print (.kept element :: ps) = element ++ print ps := print_cons (.kept element) ps

/-- The kept pieces are elements. -/
def KeepsElements (ps : List Piece) : Prop := ∀ element, .kept element ∈ ps → IsElement element

theorem keepsElements_pieces (t : Text) : KeepsElements (pieces t) :=
  fun _ => isElement_of_mem_piecesFrom

theorem KeepsElements.tail (h : KeepsElements (p :: ps)) : KeepsElements ps :=
  fun element hmem => h element (List.mem_cons_of_mem p hmem)

theorem KeepsElements.head (h : KeepsElements (.kept element :: ps)) : IsElement element :=
  h element List.mem_cons_self

theorem KeepsElements.squeezeBlanksFrom (h : KeepsElements ps) (inside : Bool) :
    KeepsElements (squeezeBlanksFrom inside ps) := by
  induction ps generalizing inside with
  | nil => exact h
  | cons p ps ih =>
    intro element hmem
    rw [Html.squeezeBlanksFrom] at hmem
    split_ifs at hmem
    · exact ih h.tail true element hmem
    · exact ih h.tail true element (List.mem_of_ne_of_mem Piece.noConfusion hmem)
    · rcases List.mem_cons.mp hmem with rfl | hmem
      · exact h.head
      · exact ih h.tail false element hmem

theorem IsElement.exists_concat (h : IsElement element) : ∃ start, element = start ++ ['>'] := by
  obtain ⟨word, -, name, inner, tag, rfl, -, -, ⟨again, blanks, rfl, -⟩, -⟩ := h
  exact ⟨'<' :: (name ++ (inner ++ '<' :: '/' :: (again ++ blanks))), by simp⟩

theorem IsElement.exists_cons (h : IsElement element) : ∃ rest, element = '<' :: rest := by
  obtain ⟨word, -, name, inner, tag, rfl, -⟩ := h
  exact ⟨_, rfl⟩

/-- The scan starts anew behind an element. -/
theorem IsElement.thinFrom_append (h : IsElement element) (afterTag gap : Bool) (t : Text) :
    thinFrom afterTag gap (element ++ t) =
      thinFrom afterTag gap element ++ thinFrom true false t := by
  obtain ⟨start, rfl⟩ := h.exists_concat
  rw [List.append_assoc, List.singleton_append]
  exact thinFrom_append_cons (by decide) afterTag gap start t

theorem thinFrom_squeezeBlanksFrom (h : KeepsElements ps) (inside afterTag gap : Bool)
    (hgap : inside → gap) :
    thinFrom afterTag gap (print (squeezeBlanksFrom inside ps)) =
      thinFrom afterTag gap (print ps) := by
  induction ps generalizing inside afterTag gap with
  | nil => rfl
  | cons p ps ih =>
    rw [Html.squeezeBlanksFrom]
    cases p with
    | kept element =>
      have hsolid : ¬ (Piece.kept element).isBlank = true := Bool.false_ne_true
      rw [if_neg hsolid, print_kept_cons, print_kept_cons, h.head.thinFrom_append,
        h.head.thinFrom_append, ih h.tail false true false Bool.false_ne_true.elim]
    | char c =>
      cases hc : isBlank c with
      | true =>
        have hblank : (Piece.char c).isBlank = true := hc
        rw [if_pos hblank, print_char_cons, thinFrom_blank hc]
        split
        · next hinside => rw [hgap hinside, ih h.tail true afterTag true fun _ => rfl]
        · rw [print_char_cons, thinFrom_blank (by decide),
            ih h.tail true afterTag true fun _ => rfl]
      | false =>
        have hsolid : ¬ (Piece.char c).isBlank = true := by simp [Piece.isBlank, hc]
        rw [if_neg hsolid, print_char_cons, print_char_cons, thinFrom_solid hc, thinFrom_solid hc,
          ih h.tail false _ false Bool.false_ne_true.elim]

/-- What begins a tag is printed with a mark at its beginning. -/
theorem exists_print_of_opensTag (h : KeepsElements (p :: ps)) (hp : p.opensTag) :
    ∃ t, print (p :: ps) = '<' :: t := by
  cases p with
  | kept element =>
    obtain ⟨rest, rfl⟩ := h.head.exists_cons
    exact ⟨rest ++ print ps, print_kept_cons _ ps⟩
  | char c =>
    obtain rfl : c = '<' := by simpa [Piece.opensTag] using hp
    exact ⟨print ps, print_char_cons _ ps⟩

theorem thinFrom_joinTagsFrom (h : KeepsElements ps) (behindTag afterTag gap : Bool)
    (htag : behindTag → afterTag) :
    thinFrom afterTag gap (print (joinTagsFrom behindTag ps)) =
      thinFrom afterTag gap (print ps) := by
  induction ps generalizing behindTag afterTag gap with
  | nil => rfl
  | cons p ps ih =>
    rw [joinTagsFrom]
    split
    · next hdrop =>
      simp only [Bool.and_eq_true] at hdrop
      obtain ⟨⟨hbehind, hblank⟩, hopens⟩ := hdrop
      rw [htag hbehind, ih h.tail false true gap Bool.false_ne_true.elim]
      cases p with
      | kept element => cases hblank
      | char c =>
        cases ps with
        | nil => cases hopens
        | cons q ps =>
          obtain ⟨t, ht⟩ := exists_print_of_opensTag h.tail hopens
          rw [print_char_cons, thinFrom_blank hblank, ht, thinFrom_mark, thinFrom_mark]
    · cases p with
      | kept element =>
        rw [print_kept_cons, print_kept_cons, h.head.thinFrom_append, h.head.thinFrom_append,
          ih h.tail _ true false fun _ => rfl]
      | char c =>
        rw [print_char_cons, print_char_cons]
        cases hc : isBlank c with
        | true =>
          have hend : (Piece.char c).endsTag = false :=
            beq_false_of_ne fun heq => absurd (heq ▸ hc) (by decide)
          rw [thinFrom_blank hc, thinFrom_blank hc, hend,
            ih h.tail false afterTag true Bool.false_ne_true.elim]
        | false =>
          rw [thinFrom_solid hc, thinFrom_solid hc,
            ih h.tail (Piece.char c).endsTag (c == '>') false fun hends => hends]

theorem isBlank_of_mem_print (hblank : ∀ p ∈ ps, p.isBlank) : ∀ c ∈ print ps, isBlank c := by
  intro c hc
  obtain ⟨p, hp, hmem⟩ := List.mem_flatMap.mp hc
  have hp := hblank p hp
  cases p with
  | kept element => cases hp
  | char d => exact List.mem_singleton.mp hmem ▸ hp

/-- The blanks that trimming takes away from pieces, at both ends. -/
theorem exists_trimBlanks_append (ps : List Piece) :
    ∃ before behind, ps = before ++ (trimBlanks ps ++ behind) ∧ (∀ p ∈ before, p.isBlank) ∧
      ∀ p ∈ behind, p.isBlank := by
  refine ⟨ps.takeWhile Piece.isBlank, (ps.dropWhile Piece.isBlank).rtakeWhile Piece.isBlank, ?_,
    fun p hp => List.all_eq_true.mp (List.all_takeWhile ..) p hp, fun p => List.mem_rtakeWhile_imp⟩
  have hend : trimBlanks ps ++ (ps.dropWhile Piece.isBlank).rtakeWhile Piece.isBlank =
      ps.dropWhile Piece.isBlank := List.rdropWhile_append_rtakeWhile
  rw [hend, List.takeWhile_append_dropWhile]

/-- **Pieces that are thinned out** have the thin text that they had before. -/
theorem thinFrom_thinned (h : KeepsElements ps) (afterTag : Bool) :
    thinFrom afterTag true (print (trimBlanks (joinTags (squeezeBlanks ps)))) =
      thinFrom afterTag true (print ps) := by
  obtain ⟨before, behind, hsplit, hbefore, hbehind⟩ :=
    exists_trimBlanks_append (joinTags (squeezeBlanks ps))
  calc thinFrom afterTag true (print (trimBlanks (joinTags (squeezeBlanks ps))))
      = thinFrom afterTag true (print (joinTags (squeezeBlanks ps))) := by
        conv_rhs => rw [hsplit]
        rw [print_append, print_append, thinFrom_blank_append (isBlank_of_mem_print hbefore),
          thinFrom_append_of_blank (isBlank_of_mem_print hbehind)]
    _ = thinFrom afterTag true (print (squeezeBlanks ps)) :=
        thinFrom_joinTagsFrom (h.squeezeBlanksFrom false) false afterTag true
          Bool.false_ne_true.elim
    _ = thinFrom afterTag true (print ps) :=
        thinFrom_squeezeBlanksFrom h false afterTag true Bool.false_ne_true.elim

end Pageloom.Html
