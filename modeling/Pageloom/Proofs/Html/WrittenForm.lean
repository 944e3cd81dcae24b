import Pageloom.Proofs.Html.Split

/-!
# Texts that look like kept elements

A kept element has a written form, `<folio-keep N>` for the `N`-th one, and the last step of
minifying puts the elements in the places of their written forms. It does not know where a written
form comes from. A text may spell one itself, or one comes up when a comment goes that stood inside
of it, or when the blanks in it shrink to the one space; and then it is taken for an element.

So minifying is not total, and not always literal. Both have an exact condition on what is left of
the text when comments and blanks are gone. Minifying succeeds if every look-alike has the number of
an element, which then stands in its place. It is literal only if there is no look-alike at all,
since no element looks like a written form.

Everything rests on one equation for a written form with something before it and behind it. It
needs that two written forms do not overlap: a tag mark stands at the beginning of each and nowhere
else in it.

## Main definitions

* `Html.keepForm`, `Html.IsLookalike`: the written forms, and those among some pieces.
* `Html.named`: the element that a number stands for.

## Main results

* `Html.restore_append_keepForm`: a look-alike is replaced wherever it stands.
* `Html.exists_restore_iff`, `Html.restore_eq_print_iff`: when restoring succeeds, and when it
  changes nothing.
* `Html.minify_isLiteral_iff`: the same of minifying.
-/

namespace Pageloom.Html

variable {t digits digits' element out : Text} {elements : List Text}
  {ps before behind rest v w : List Piece} {p : Piece}

/-! ### Written forms -/

/-- The written form of the element with the given number. -/
def keepForm (digits : Text) : Text := keepMark ++ ' ' :: (digits ++ ['>'])

/-- The digits are those of a number, in any script. -/
def IsNumber (digits : Text) : Prop := digits ≠ [] ∧ ∀ c ∈ digits, isDecimal c

/-- The written form with this number is spelled by characters that stand in a row. -/
def IsLookalike (ps : List Piece) (digits : Text) : Prop :=
  IsNumber digits ∧ (keepForm digits).map .char <:+: ps

theorem length_keepForm (digits : Text) : (keepForm digits).length = digits.length + 13 := by
  have hmark : keepMark.length = 11 := by decide
  simp [keepForm, hmark]
  omega

theorem leadingDigits_of_number (h : ∀ c ∈ digits, isDecimal c) (rest : List Piece) :
    leadingDigits (digits.map .char ++ .char '>' :: rest) = digits := by
  induction digits with
  | nil =>
    have hend : isDecimal '>' = false := by decide
    simp [leadingDigits, hend]
  | cons c digits ih =>
    obtain ⟨hc, hrest⟩ := List.forall_mem_cons.mp h
    simp [leadingDigits, hc, ih hrest]

theorem leadingDigits_spec (ps : List Piece) :
    (∀ c ∈ leadingDigits ps, isDecimal c) ∧
      ps = (leadingDigits ps).map .char ++ ps.drop (leadingDigits ps).length := by
  induction ps with
  | nil => simp [leadingDigits]
  | cons p ps ih =>
    cases p with
    | kept element => simp [leadingDigits]
    | char c =>
      by_cases hc : isDecimal c
      · rw [leadingDigits, if_pos hc]
        exact ⟨List.forall_mem_cons.mpr ⟨hc, ih.1⟩, congrArg (Piece.char c :: ·) ih.2⟩
      · simp [leadingDigits, hc]

theorem map_keepForm (digits : Text) (rest : List Piece) :
    (keepForm digits).map .char ++ rest =
      (keepMark ++ [' ']).map .char ++ (digits.map .char ++ .char '>' :: rest) := by
  simp [keepForm]

/-- The scan finds a written form exactly where one begins. -/
theorem writtenForm?_eq_some_iff :
    writtenForm? ps = some digits ↔ IsNumber digits ∧ (keepForm digits).map .char <+: ps := by
  have hstart : ("<folio-keep " : Text) = keepMark ++ [' '] := by decide
  rw [writtenForm?, hstart]
  constructor
  · intro h
    obtain ⟨rest, hdrop, hrest⟩ := Option.bind_eq_some_iff.mp h
    obtain rfl := dropLiteral?_eq_some_iff.mp hdrop
    obtain ⟨hall, hsplit⟩ := leadingDigits_spec rest
    simp only [Option.ite_none_right_eq_some, Bool.and_eq_true, decide_eq_true_eq,
      Option.some.injEq] at hrest
    obtain ⟨⟨hne, hend⟩, rfl⟩ := hrest
    obtain ⟨behind, hbehind⟩ := List.head?_eq_some_iff.mp hend
    exact ⟨⟨hne, hall⟩, behind, by rw [map_keepForm, ← hbehind, ← hsplit]⟩
  · rintro ⟨⟨hne, hall⟩, behind, rfl⟩
    rw [dropLiteral?_eq_some_iff.mpr (map_keepForm digits behind), Option.bind_some]
    simp [leadingDigits_of_number hall, hne]

theorem writtenForm?_append (h : IsNumber digits) (rest : List Piece) :
    writtenForm? ((keepForm digits).map .char ++ rest) = some digits :=
  writtenForm?_eq_some_iff.mpr ⟨h, List.prefix_append _ _⟩

theorem writtenForm?_eq_none_iff :
    writtenForm? ps = none ↔
      ∀ digits, IsNumber digits → ¬ (keepForm digits).map .char <+: ps := by
  rw [Option.eq_none_iff_forall_ne_some]
  exact forall_congr' fun digits => by rw [Ne, writtenForm?_eq_some_iff, not_and]

/-- A written form begins with a tag mark. -/
theorem keepForm_eq_cons (digits : Text) :
    keepForm digits = '<' :: ("folio-keep" ++ ' ' :: (digits ++ ['>'])) := by
  have hmark : keepMark = '<' :: "folio-keep" := by decide
  rw [keepForm, hmark, List.cons_append]

/-- Two written forms do not overlap: a tag mark stands at the beginning of each and nowhere else in
it, so what is left of one where the other begins is nothing. -/
theorem eq_nil_of_keepForm (hdigits : IsNumber digits) (hv : v ≠ [])
    (h : (keepForm digits).map .char = v ++ w)
    (hw : (keepForm digits').map .char ++ rest = w ++ behind) : w = [] := by
  cases w with
  | nil => rfl
  | cons q w =>
    obtain ⟨p, v, rfl⟩ := List.exists_cons_of_ne_nil hv
    rw [keepForm_eq_cons digits', List.map_cons, List.cons_append, List.cons_append] at hw
    obtain rfl : .char '<' = q := (List.cons.inj hw).1
    rw [keepForm_eq_cons, List.map_cons, List.cons_append] at h
    have hmem : Piece.char '<' ∈ v ++ .char '<' :: w := by simp
    obtain ⟨c, hmark, hc⟩ := List.mem_map.mp ((List.cons.inj h).2 ▸ hmem)
    obtain rfl := Piece.char.inj hc
    have hstart : '<' ∉ ("folio-keep" : Text) := by decide
    have hdecimal : isDecimal '<' = false := by decide
    rcases List.mem_append.mp hmark with hmem | hmem
    · exact absurd hmem hstart
    · have hmem : '<' ∈ digits := by simpa using hmem
      exact absurd (hdigits.2 _ hmem) (by simp [hdecimal])

/-- A written form that begins before another one ends before it. -/
theorem prefix_of_prefix_append (hdigits' : IsNumber digits') (hne : before ≠ [])
    (h : (keepForm digits').map .char <+: before ++ ((keepForm digits).map .char ++ rest)) :
    (keepForm digits').map .char <+: before := by
  obtain ⟨after, hafter⟩ := h
  rcases List.append_eq_append_iff.mp hafter with ⟨v, rfl, -⟩ | ⟨w, hform, hw⟩
  · exact List.prefix_append _ _
  · obtain rfl := eq_nil_of_keepForm hdigits' hne hform hw
    rw [hform, List.append_nil]

theorem not_isLookalike_nil : ¬ IsLookalike [] digits := by
  rintro ⟨-, hinfix⟩
  rw [keepForm_eq_cons] at hinfix
  cases List.infix_nil.mp hinfix

/-- Where no written form begins, the written forms are those of the rest. -/
theorem isLookalike_cons_of_none (h : writtenForm? (p :: ps) = none) :
    IsLookalike (p :: ps) digits ↔ IsLookalike ps digits := by
  refine and_congr_right fun hdigits => ?_
  rw [List.infix_cons_iff, or_iff_right (writtenForm?_eq_none_iff.mp h digits hdigits)]

/-- The written forms in pieces that begin with one are that one and those behind it. -/
theorem isLookalike_append_iff (hdigits : IsNumber digits) :
    IsLookalike ((keepForm digits).map .char ++ rest) digits' ↔
      digits' = digits ∨ IsLookalike rest digits' := by
  constructor
  · rintro ⟨hdigits', before, after, hinfix⟩
    rw [List.append_assoc] at hinfix
    cases before with
    | nil =>
      have hsome := writtenForm?_append hdigits rest
      rw [← hinfix, List.nil_append, writtenForm?_append hdigits' after] at hsome
      exact .inl (Option.some.inj hsome)
    | cons p before =>
      refine .inr ⟨hdigits', ?_⟩
      rcases List.append_eq_append_iff.mp hinfix with ⟨w, hform, hw⟩ | ⟨v, -, rfl⟩
      · obtain rfl := eq_nil_of_keepForm hdigits (List.cons_ne_nil p before) hform hw
        exact ⟨[], after, by rw [List.nil_append, hw, List.nil_append]⟩
      · exact ⟨v, after, by rw [List.append_assoc]⟩
  · rintro (rfl | ⟨hdigits', hinfix⟩)
    · exact ⟨hdigits, (List.prefix_append _ _).isInfix⟩
    · exact ⟨hdigits', hinfix.trans (List.suffix_append _ _).isInfix⟩

/-- Induction from one written form or single piece to the next, as restoring goes. -/
@[elab_as_elim]
theorem formsInduction {P : List Piece → Prop} (nil : P [])
    (piece : ∀ p ps, writtenForm? (p :: ps) = none → P ps → P (p :: ps))
    (form : ∀ digits behind, IsNumber digits → P behind →
      P ((keepForm digits).map .char ++ behind)) (ps : List Piece) : P ps := by
  induction hn : ps.length using Nat.strong_induction_on generalizing ps with
  | _ n ih =>
    cases ps with
    | nil => exact nil
    | cons p ps =>
      cases hform : writtenForm? (p :: ps) with
      | none => exact piece p ps hform (ih ps.length (by simp at hn; omega) ps rfl)
      | some digits =>
        obtain ⟨hdigits, behind, hbehind⟩ := writtenForm?_eq_some_iff.mp hform
        have hlength : behind.length < n := by
          rw [← hn, ← hbehind, List.length_append, List.length_map, length_keepForm]
          omega
        exact hbehind ▸ form digits behind hdigits (ih behind.length hlength behind rfl)

/-! ### Restoring -/

/-- The element that the number stands for. -/
def named (elements : List Text) (digits : Text) : Except MinifyError Text :=
  if Integer.maxDigits < digits.length then .error (.numberTooLong digits.length)
  else
    match elements[Text.valueOf 10 (digits.map decimalValue)]? with
    | none => .error (.noSuchElement (Text.valueOf 10 (digits.map decimalValue)))
    | some element => .ok element

theorem named_eq_ok_iff :
    named elements digits = .ok element ↔ digits.length ≤ Integer.maxDigits ∧
      elements[Text.valueOf 10 (digits.map decimalValue)]? = some element := by
  unfold named
  split
  · simp; omega
  · split <;> simp [*]; omega

theorem restoreFrom_eq_drop (elements : List Text) (n : ℕ) (ps : List Piece) :
    restoreFrom elements n ps = restore elements (ps.drop n) := by
  induction ps generalizing n with
  | nil => cases n <;> rfl
  | cons p ps ih =>
    cases n with
    | zero => rfl
    | succ n => exact ih n

theorem restore_cons_of_none (h : writtenForm? (p :: ps) = none) :
    restore elements (p :: ps) = (restore elements ps).map (p.text ++ ·) := by
  rw [restore, restoreFrom, h]
  cases p <;> rfl

/-- A written form at the beginning is replaced by its element. -/
theorem restore_keepForm_append (hdigits : IsNumber digits) :
    restore elements ((keepForm digits).map .char ++ rest) =
      (named elements digits).bind fun element => (restore elements rest).map (element ++ ·) := by
  have hform := writtenForm?_append hdigits rest
  have hlength : (keepForm digits).length = digits.length + 12 + 1 := length_keepForm digits
  generalize hps : (keepForm digits).map Piece.char ++ rest = ps at hform
  cases ps with
  | nil =>
    rw [keepForm_eq_cons] at hps
    cases hps
  | cons p ps =>
    have hrest : ps.drop (digits.length + 12) = rest := by
      rw [← List.drop_succ_cons (a := p), ← hps, ← hlength, List.drop_left' (by simp)]
    rw [restore, restoreFrom, hform]
    simp only [restoreFrom_eq_drop, hrest, named]
    split
    · rfl
    · split <;> simp [*, Except.bind]

/-- **A look-alike is restored on its own**, whatever stands before it: what is restored before it
comes first, and then what is restored from it on. The induction is on what stands before it. -/
theorem restore_append_keepForm (elements : List Text) (before : List Piece) (digits : Text)
    (rest : List Piece) :
    restore elements (before ++ ((keepForm digits).map .char ++ rest)) =
      (restore elements before).bind fun a =>
        (restore elements ((keepForm digits).map .char ++ rest)).map (a ++ ·) := by
  induction before using formsInduction with
  | nil =>
    rw [List.nil_append, show restore elements [] = .ok [] from rfl]
    cases restore elements ((keepForm digits).map .char ++ rest) <;> rfl
  | piece p before hform ih =>
    have hlong : writtenForm? (p :: (before ++ ((keepForm digits).map .char ++ rest))) = none :=
      writtenForm?_eq_none_iff.mpr fun digits' hdigits' hpre =>
        writtenForm?_eq_none_iff.mp hform digits' hdigits'
          (prefix_of_prefix_append hdigits' (List.cons_ne_nil p before) hpre)
    rw [List.cons_append, restore_cons_of_none hlong, restore_cons_of_none hform, ih]
    cases restore elements before <;>
      cases restore elements ((keepForm digits).map .char ++ rest) <;>
      simp [Except.bind, Except.map]
  | form digits' behind hdigits' ih =>
    rw [List.append_assoc, restore_keepForm_append hdigits', restore_keepForm_append hdigits', ih]
    cases named elements digits' <;> cases restore elements behind <;>
      cases restore elements ((keepForm digits).map .char ++ rest) <;>
      simp [Except.bind, Except.map]

/-- Restoring succeeds if every look-alike has the number of an element, and only then. -/
theorem exists_restore_iff (elements : List Text) (ps : List Piece) :
    (∃ out, restore elements ps = .ok out) ↔
      ∀ digits, IsLookalike ps digits → ∃ element, named elements digits = .ok element := by
  induction ps using formsInduction with
  | nil => exact ⟨fun _ digits h => absurd h not_isLookalike_nil, fun _ => ⟨[], rfl⟩⟩
  | piece p ps hform ih =>
    simp only [isLookalike_cons_of_none hform, ← ih, restore_cons_of_none hform]
    cases restore elements ps <;> simp [Except.map]
  | form digits behind hdigits ih =>
    simp only [restore_keepForm_append hdigits, isLookalike_append_iff hdigits, forall_eq_or_imp,
      ← ih]
    cases named elements digits with
    | error e => simp [Except.bind]
    | ok element => cases restore elements behind <;> simp [Except.bind, Except.map]

/-- No element looks like a written form: its name begins otherwise. -/
theorem IsElement.append_ne_keepForm (h : IsElement element) (t rest : Text) :
    element ++ t ≠ keepForm digits ++ rest := by
  obtain ⟨word, hword, name, inner, tag, rfl, hspells, -⟩ := h
  have hname : word = name.map letterOf :=
    hspells.eq_map (fun w hw => (letter_of_mem_keptNames hword hw).1)
      fun w hw => (letter_of_mem_keptNames hword hw).2.1
  have hnames : ∀ word ∈ keptNames, word ≠ [] ∧ word.head? ≠ some (letterOf 'f') := by decide
  have hstart : ("folio-keep" : Text) = 'f' :: "olio-keep" := by decide
  intro heq
  rw [keepForm_eq_cons, hstart] at heq
  cases name with
  | nil => exact (hnames word hword).1 hname
  | cons c name =>
    obtain rfl : c = 'f' := (List.cons.inj (List.cons.inj heq).2).1
    exact (hnames word hword).2 (by rw [hname, List.map_cons, List.head?_cons])

/-- Restoring changes nothing if there is no look-alike, and only then. -/
theorem restore_eq_print_iff (helements : ∀ element ∈ elements, IsElement element)
    (ps : List Piece) :
    restore elements ps = .ok (print ps) ↔ ∀ digits, ¬ IsLookalike ps digits := by
  induction ps using formsInduction with
  | nil => exact ⟨fun _ digits => not_isLookalike_nil, fun _ => rfl⟩
  | piece p ps hform ih =>
    simp only [isLookalike_cons_of_none hform, ← ih, restore_cons_of_none hform, print_cons]
    cases restore elements ps <;> simp [Except.map]
  | form digits behind hdigits ih =>
    refine iff_of_false ?_ fun hnone =>
      hnone digits ((isLookalike_append_iff hdigits).mpr (.inl rfl))
    rw [restore_keepForm_append hdigits, print_append, print_map_char]
    cases hnamed : named elements digits with
    | error e => simp [Except.bind]
    | ok element =>
      have hmem := List.mem_of_getElem? (named_eq_ok_iff.mp hnamed).2
      cases restore elements behind with
      | error e => simp [Except.bind, Except.map]
      | ok b =>
        intro heq
        exact (helements element hmem).append_ne_keepForm b (print behind) (Except.ok.inj heq)

/-! ### Minifying -/

theorem isElement_of_mem_piecesFrom {n : ℕ} (h : .kept element ∈ piecesFrom n t) :
    IsElement element := by
  fun_induction piecesFrom n t with
  | case1 => cases h
  | case2 n c cs ih => exact ih h
  | case3 c cs n hlength ih =>
    rcases List.mem_cons.mp h with heq | hmem
    · exact Piece.kept.inj heq ▸ isElement_take hlength
    · exact ih hmem
  | case4 c cs hlength ih => exact ih (List.mem_of_ne_of_mem Piece.noConfusion h)

theorem isElement_of_mem_keptElements (h : element ∈ keptElements (pieces t)) :
    IsElement element := by
  obtain ⟨p, hp, helement⟩ := List.mem_filterMap.mp h
  cases p with
  | char c => cases helement
  | kept e => exact isElement_of_mem_piecesFrom (Option.some.inj helement ▸ hp)

/-- **When minifying is total, and when it is literal.** It gives a text if every look-alike that is
left has the number of an element, and the text is what is left, as it stands, if there is no
look-alike; neither holds otherwise. A look-alike with the number of an element is replaced by that
element, wherever it stands. -/
theorem minify_isLiteral_iff (html : Text) :
    ((∃ out, minify html = .ok out) ↔ ∀ digits, IsLookalike (minifiedPieces html) digits →
      digits.length ≤ Integer.maxDigits ∧
        Text.valueOf 10 (digits.map decimalValue) < (keptElements (pieces html)).length) ∧
    (minify html = .ok (print (minifiedPieces html)) ↔
      ∀ digits, ¬ IsLookalike (minifiedPieces html) digits) ∧
    ∀ before digits behind out, IsNumber digits →
      minifiedPieces html = before ++ ((keepForm digits).map .char ++ behind) →
      minify html = .ok out →
      ∃ a element b,
        (keptElements (pieces html))[Text.valueOf 10 (digits.map decimalValue)]? = some element ∧
        restore (keptElements (pieces html)) before = .ok a ∧
        restore (keptElements (pieces html)) behind = .ok b ∧ out = a ++ (element ++ b) := by
  refine ⟨?_, restore_eq_print_iff (fun element => isElement_of_mem_keptElements) _, ?_⟩
  · rw [minify, exists_restore_iff]
    refine forall₂_congr fun digits _ => ?_
    simp only [named_eq_ok_iff, exists_and_left, List.getElem?_eq_some_iff, exists_comm,
      exists_eq', exists_prop, and_true]
  · intro before digits behind out hdigits hleft hout
    rw [minify, hleft, restore_append_keepForm, restore_keepForm_append hdigits] at hout
    generalize keptElements (pieces html) = elements at hout ⊢
    cases ha : restore elements before with
    | error e => simp [ha, Except.bind] at hout
    | ok a =>
      cases helement : named elements digits with
      | error e => simp [ha, helement, Except.bind, Except.map] at hout
      | ok element =>
        cases hb : restore elements behind with
        | error e => simp [ha, helement, hb, Except.bind, Except.map] at hout
        | ok b =>
          refine ⟨a, element, b, (named_eq_ok_iff.mp helement).2, rfl, rfl, ?_⟩
          simpa [ha, helement, hb, Except.bind, Except.map, eq_comm] using hout

-- There is no element at all.
example : minify "<folio-keep 0>" = .error (.noSuchElement 0) := by decide

-- The form comes up when the comment goes.
example : minify "<folio-<!-- -->keep 0><pre>x</pre>" = .ok "<pre>x</pre><pre>x</pre>" := by decide

end Pageloom.Html
