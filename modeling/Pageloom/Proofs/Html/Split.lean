import Pageloom.Proofs.Html.Element

/-!
# The split of a text at its kept elements

Elements with texts between them are the leftmost split of the text that they make if no element
begins in one of the texts, also none that would go on behind it. Every text has exactly one
leftmost split, and the cut into pieces finds it.

A split is a list of pieces in other words: the characters of a text that stand in a row are one
part. So what is proved of lists of pieces, one piece after the other, can be said of whole texts.

## Main definitions

* `Html.Split`, with `Split.print`, `Split.texts` and `Split.pieces`.
* `Split.IsLeftmost`: the splits in which no text begins an element.

## Main results

* `Html.pieces_print`: the pieces of the text of a leftmost split.
* `Html.existsUnique_split`: every text has exactly one leftmost split.
-/

namespace Pageloom.Html

variable {t rest element : Text} {ps : List Piece}

/-- A text in parts: what stands before the first element, and each element with the text behind
it. -/
structure Split where
  before : Text
  elements : List (Text × Text)

namespace Split

/-- The text of a split. -/
def print (s : Split) : Text :=
  s.before ++ s.elements.flatMap fun (element, behind) => element ++ behind

/-- The texts around the elements, in order: one more than there are elements. -/
def texts (s : Split) : List Text := s.before :: s.elements.map Prod.snd

/-- The pieces of a split. -/
def pieces (s : Split) : List Piece :=
  s.before.map .char ++ s.elements.flatMap fun (element, behind) =>
    .kept element :: behind.map .char

/-- The split that has the given pieces. -/
def ofPieces : List Piece → Split
  | [] => ⟨[], []⟩
  | .char c :: ps => ⟨c :: (ofPieces ps).before, (ofPieces ps).elements⟩
  | .kept element :: ps => ⟨[], (element, (ofPieces ps).before) :: (ofPieces ps).elements⟩

end Split

/-- No element begins in the first text when the second one follows it. -/
def StartsNone (t rest : Text) : Prop :=
  ∀ u v element, t = u ++ v → v ≠ [] → IsElement element → ¬ element <+: v ++ rest

/-- The elements are elements that are kept, and none begins in the texts around them. -/
def IsLeftmostFrom (before : Text) : List (Text × Text) → Prop
  | [] => StartsNone before []
  | (element, behind) :: elements =>
    StartsNone before (element ++ (Split.mk behind elements).print) ∧ IsElement element ∧
      IsLeftmostFrom behind elements

/-- The elements are those that a reader finds from left to right. -/
def Split.IsLeftmost (s : Split) : Prop := IsLeftmostFrom s.before s.elements

@[simp] theorem Split.print_mk_nil (before : Text) : (Split.mk before []).print = before :=
  List.append_nil before

@[simp] theorem Split.print_mk_cons (before behind : Text) (elements : List (Text × Text)) :
    (Split.mk before ((element, behind) :: elements)).print =
      before ++ (element ++ (Split.mk behind elements).print) := by
  simp [Split.print]

@[simp] theorem Split.pieces_mk_nil (before : Text) :
    (Split.mk before []).pieces = before.map .char := List.append_nil _

@[simp] theorem Split.pieces_mk_cons (before behind : Text) (elements : List (Text × Text)) :
    (Split.mk before ((element, behind) :: elements)).pieces =
      before.map .char ++ .kept element :: (Split.mk behind elements).pieces := by
  simp [Split.pieces]

theorem Split.pieces_ofPieces (ps : List Piece) : (ofPieces ps).pieces = ps := by
  induction ps with
  | nil => rfl
  | cons p ps ih =>
    cases p with
    | char c =>
      rw [ofPieces]
      exact congrArg (Piece.char c :: ·) ih
    | kept element =>
      rw [ofPieces, pieces_mk_cons]
      exact congrArg (Piece.kept element :: ·) ih

theorem Split.ofPieces_map_char_append (t : Text) (ps : List Piece) :
    ofPieces (t.map .char ++ ps) = ⟨t ++ (ofPieces ps).before, (ofPieces ps).elements⟩ := by
  induction t with
  | nil => rfl
  | cons c t ih => rw [List.map_cons, List.cons_append, ofPieces, ih, List.cons_append]

theorem Split.ofPieces_pieces (s : Split) : ofPieces s.pieces = s := by
  obtain ⟨before, elements⟩ := s
  induction elements generalizing before with
  | nil =>
    have hsplit := ofPieces_map_char_append before []
    rwa [List.append_nil, ofPieces, List.append_nil, ← pieces_mk_nil] at hsplit
  | cons p elements ih =>
    obtain ⟨element, behind⟩ := p
    rw [pieces_mk_cons, ofPieces_map_char_append, ofPieces, ih, List.append_nil]

theorem Split.print_pieces (s : Split) : Html.print s.pieces = s.print := by
  obtain ⟨before, elements⟩ := s
  induction elements generalizing before with
  | nil => rw [pieces_mk_nil, print_map_char, print_mk_nil]
  | cons p elements ih =>
    obtain ⟨element, behind⟩ := p
    rw [pieces_mk_cons, print_append, print_map_char, print_cons, ih, print_mk_cons]
    rfl

/-! ### The scan of a whole text -/

theorem startsNone_nil (rest : Text) : StartsNone [] rest := by
  intro u v element h hv
  exact absurd (List.append_eq_nil_iff.mp h.symm).2 hv

theorem startsNone_cons_iff {c : Char} :
    StartsNone (c :: t) rest ↔ elementLength? (c :: (t ++ rest)) = none ∧ StartsNone t rest := by
  rw [elementLength?_eq_none_iff]
  constructor
  · intro h
    refine ⟨fun element helement => h [] (c :: t) element rfl (List.cons_ne_nil c t) helement,
      fun u v element ht => h (c :: u) v element (by rw [ht, List.cons_append])⟩
  · rintro ⟨hhere, hrest⟩ u v element ht hv helement
    cases u with
    | nil =>
      obtain rfl := ht
      exact hhere element helement
    | cons d u => exact hrest u v element (List.cons.inj ht).2 hv helement

theorem pieces_append_of_startsNone (h : StartsNone t rest) :
    pieces (t ++ rest) = t.map .char ++ pieces rest := by
  induction t with
  | nil => rfl
  | cons c t ih =>
    obtain ⟨hnone, htail⟩ := startsNone_cons_iff.mp h
    rw [List.cons_append, pieces_cons_of_none hnone, ih htail]
    rfl

/-- **The scan finds the elements of a leftmost split**, and nothing else. -/
theorem pieces_print {s : Split} (hs : s.IsLeftmost) : pieces s.print = s.pieces := by
  obtain ⟨before, elements⟩ := s
  rw [Split.IsLeftmost] at hs
  induction elements generalizing before with
  | nil =>
    have hpieces := pieces_append_of_startsNone hs
    have hnil : pieces [] = [] := rfl
    rw [hnil, List.append_nil, List.append_nil] at hpieces
    rwa [Split.print_mk_nil, Split.pieces_mk_nil]
  | cons p elements ih =>
    obtain ⟨element, behind⟩ := p
    obtain ⟨hnone, helement, hrest⟩ := hs
    rw [Split.print_mk_cons, pieces_append_of_startsNone hnone, pieces_append_of_isElement helement,
      ih behind hrest, Split.pieces_mk_cons]

theorem print_ofPieces (t : Text) : (Split.ofPieces (pieces t)).print = t := by
  rw [← Split.print_pieces, Split.pieces_ofPieces, print_pieces]

/-- The pieces of a text make a leftmost split. The induction is on the text, at whose beginning an
element stands or not. -/
theorem isLeftmost_ofPieces (t : Text) : (Split.ofPieces (pieces t)).IsLeftmost := by
  induction hn : t.length using Nat.strong_induction_on generalizing t with
  | _ k ih =>
    cases t with
    | nil => exact startsNone_nil []
    | cons c t =>
      cases hlength : elementLength? (c :: t) with
      | none =>
        have hrest := ih t.length (by simp at hn; omega) t rfl
        have htext := print_ofPieces t
        rw [pieces_cons_of_none hlength, Split.ofPieces]
        generalize Split.ofPieces (pieces t) = s at hrest htext
        obtain ⟨before, _ | ⟨⟨element, behind⟩, elements⟩⟩ := s
        · rw [Split.print_mk_nil] at htext
          exact startsNone_cons_iff.mpr ⟨by rwa [List.append_nil, htext], hrest⟩
        · rw [Split.print_mk_cons] at htext
          exact ⟨startsNone_cons_iff.mpr ⟨by rwa [htext], hrest.1⟩, hrest.2⟩
      | some n =>
        have hpos := elementLength?_pos hlength
        rw [pieces_of_element hlength, Split.ofPieces]
        exact ⟨startsNone_nil _, isElement_take hlength, ih _ (by simp at hn ⊢; omega) _ rfl⟩

/-- **Every text has exactly one leftmost split.** -/
theorem existsUnique_split (t : Text) : ∃! s : Split, s.IsLeftmost ∧ s.print = t := by
  refine ⟨Split.ofPieces (pieces t), ⟨isLeftmost_ofPieces t, print_ofPieces t⟩, ?_⟩
  rintro s ⟨hs, rfl⟩
  rw [pieces_print hs, Split.ofPieces_pieces]

end Pageloom.Html
