import Pageloom.Proofs.Html.Comment
import Pageloom.Proofs.Text.Blank
import Pageloom.Proofs.Text.Digits

/-!
# The elements that minifying keeps

What a kept element is can be said without a scan: it begins with its name, it ends with a closing
tag of the same name, and there is no such tag inside. The scan looks at every place for the names
one after the other and then for the end of the element; that it finds an element exactly where one
begins rests on two observations. No two names are spellings of each other's beginnings, so at most
one name is found. And a closing tag holds no `<` behind its first character, so none begins in an
element and ends behind it.

## Main definitions

* `Html.Spells`, `Html.IsSameName`: names that are the same but for the case of their letters.
* `Html.IsBare`, `Html.IsBareName`: words and names without blanks and marks of tags.
* `Html.IsClosingTag`, `Html.IsElement`: closing tags, and elements up to the first of them.

## Main results

* `Html.elementLength?_eq_some_iff`: an element is found exactly where one begins.
-/

namespace Pageloom.Html

variable {t u name rest element word : Text} {n : ℕ} {ps qs : List Piece}

/-! ### Names -/

/-- The two names are the same, whatever the case of their letters. -/
def IsSameName (name again : Text) : Prop := again.map lowerChar = name.map lowerChar

instance (name again : Text) : Decidable (IsSameName name again) :=
  inferInstanceAs (Decidable (_ = _))

/-- The name is a spelling of the word, whatever the case of its letters. -/
def Spells (word name : Text) : Prop := List.Forall₂ (fun w c => Text.isFormOf w c = true) word name

instance (word name : Text) : Decidable (Spells word name) :=
  inferInstanceAs (Decidable (List.Forall₂ _ _ _))

theorem sameName?_eq_some_iff :
    sameName? name t = some rest ↔ ∃ again, t = again ++ rest ∧ IsSameName name again := by
  induction name generalizing t with
  | nil => simp [sameName?, IsSameName, eq_comm]
  | cons n name ih =>
    cases t with
    | nil => simp [sameName?, IsSameName]
    | cons c t =>
      rw [sameName?]
      split
      · next heq =>
        rw [ih]
        constructor
        · rintro ⟨again, rfl, hsame⟩
          exact ⟨c :: again, rfl, by rw [IsSameName, List.map_cons, List.map_cons, heq, hsame]⟩
        · rintro ⟨_ | ⟨c', again⟩, ht, hsame⟩
          · cases hsame
          · obtain ⟨rfl, rfl⟩ := List.cons.inj ht
            exact ⟨again, rfl, (List.cons.inj hsame).2⟩
      · next hne =>
        refine iff_of_false (fun h => nomatch h) ?_
        rintro ⟨_ | ⟨c', again⟩, ht, hsame⟩
        · cases hsame
        · obtain ⟨rfl, rfl⟩ := List.cons.inj ht
          exact hne (List.cons.inj hsame).1.symm

theorem dropWord?_eq_some_iff :
    Text.dropWord? word t = some (name, rest) ↔ t = name ++ rest ∧ Spells word name := by
  induction word generalizing t name with
  | nil =>
    constructor
    · intro h
      cases h
      exact ⟨rfl, .nil⟩
    · rintro ⟨rfl, hspells⟩
      cases hspells
      rfl
  | cons w word ih =>
    cases t with
    | nil =>
      refine iff_of_false (fun h => nomatch h) ?_
      rintro ⟨ht, hspells⟩
      cases hspells
      cases ht
    | cons c t =>
      rw [Text.dropWord?]
      constructor
      · intro h
        split at h
        · next hform =>
          obtain ⟨⟨name, rest⟩, hdrop, heq⟩ := Option.map_eq_some_iff.mp h
          cases heq
          obtain ⟨rfl, hspells⟩ := ih.mp hdrop
          exact ⟨rfl, .cons hform hspells⟩
        · cases h
      · rintro ⟨ht, hspells⟩
        cases hspells with
        | @cons _ _ _ name hform hspells =>
          obtain ⟨rfl, htail⟩ := List.cons.inj ht
          have hdrop : Text.dropWord? word t = some (name, rest) := ih.mpr ⟨htail, hspells⟩
          rw [if_pos hform, hdrop]
          rfl

/-- The lower-case ASCII letter that a character is a form of, if it is a form of one. -/
def letterOf (c : Char) : Char :=
  if c.toNat = 0x17F then 's'
  else if c.toNat = 0x130 ∨ c.toNat = 0x131 then 'i'
  else if c.toNat = 0x212A then 'k'
  else c.toLower

theorem isFormOf_cases {w c : Char} (hlower : w.toLower = w) (h : Text.isFormOf w c) :
    c.toLower = w ∨ (w = 's' ∧ c.toNat = 0x17F) ∨ (w = 'i' ∧ (c.toNat = 0x130 ∨ c.toNat = 0x131)) ∨
      (w = 'k' ∧ c.toNat = 0x212A) := by
  simp only [Text.isFormOf, Bool.or_eq_true, Bool.and_eq_true, beq_iff_eq] at h
  rcases h with (((rfl | h) | h) | h) | h
  · exact .inl hlower
  · exact .inl h
  · exact .inr (.inl h)
  · exact .inr (.inr (.inl h))
  · exact .inr (.inr (.inr h))

theorem letterOf_of_isFormOf {w c : Char} (hascii : w.toNat < 128) (hlower : w.toLower = w)
    (h : Text.isFormOf w c) : letterOf c = w := by
  rw [letterOf]
  rcases isFormOf_cases hlower h with rfl | ⟨rfl, hc⟩ | ⟨rfl, hc⟩ | ⟨rfl, hc⟩
  · have hc := toNat_lt_of_toLower hascii
    rw [if_neg (by omega), if_neg (by omega), if_neg (by omega)]
  · rw [if_pos hc]
  · rw [if_neg (by omega), if_pos hc]
  · rw [if_neg (by omega), if_neg (by omega), if_pos hc]

/-- In lower case a form of a letter is that letter, the long s or the dotless i. -/
theorem lowerChar_of_isFormOf {w c : Char} (hascii : w.toNat < 128) (hlower : w.toLower = w)
    (h : Text.isFormOf w c) :
    lowerChar c = w ∨ lowerChar c = Char.ofNat 0x17F ∨ lowerChar c = Char.ofNat 0x131 := by
  have hcode (n : ℕ) (hc : c.toNat = n) : c = Char.ofNat n := by rw [← hc, Char.ofNat_toNat]
  rcases isFormOf_cases hlower h with rfl | ⟨-, hc⟩ | ⟨rfl, hc | hc⟩ | ⟨rfl, hc⟩
  · exact .inl (if_pos (toNat_lt_of_toLower hascii))
  · exact .inr (.inl (by rw [hcode _ hc]; decide))
  · exact .inl (by rw [hcode _ hc]; decide)
  · exact .inr (.inr (by rw [hcode _ hc]; decide))
  · exact .inl (by rw [hcode _ hc]; decide)

/-- A word without blanks and without the marks of tags. -/
def IsBare (w : Text) : Prop := ∀ c ∈ w, isBlank c = false ∧ c ≠ '<' ∧ c ≠ '>'

instance (w : Text) : Decidable (IsBare w) :=
  List.decidableBAll (fun c => isBlank c = false ∧ c ≠ '<' ∧ c ≠ '>') w

theorem lowerChar_of_isBlank {c : Char} (h : isBlank c) : lowerChar c = c :=
  forall_blank (P := fun c => lowerChar c = c) (by decide) h

/-- The letters of the names of kept elements are in ASCII and in lower case. -/
theorem letter_of_mem_keptNames {w : Char} (hword : word ∈ keptNames) (hw : w ∈ word) :
    w.toNat < 128 ∧ w.toLower = w ∧ IsBare [w] := by
  have hall : keptNames.all fun word => word.all fun w =>
      w.toNat < 128 && (w.toLower == w && decide (IsBare [w])) := by decide
  have hw := List.all_eq_true.mp (List.all_eq_true.mp hall word hword) w hw
  simpa using hw

/-- A name that is bare, whatever the case of its letters. -/
def IsBareName (name : Text) : Prop := ∀ again, IsSameName name again → IsBare again

theorem IsBareName.isBare (h : IsBareName name) : IsBare name := h name rfl

/-- The name of a kept element is bare, in any case. -/
theorem Spells.isBareName (hword : word ∈ keptNames) (h : Spells word name) : IsBareName name := by
  have hletters : ∀ w ∈ word, w.toNat < 128 ∧ w.toLower = w ∧ IsBare [w] := fun w hw =>
    letter_of_mem_keptNames hword hw
  clear hword
  induction h with
  | nil =>
    intro again hsame
    obtain rfl := List.map_eq_nil_iff.mp hsame
    nofun
  | @cons w c word name hform hspells ih =>
    intro again hsame
    obtain ⟨⟨hascii, hlower, hbare⟩, hrest⟩ := List.forall_mem_cons.mp hletters
    obtain ⟨d, again, rfl, hd, hagain⟩ := List.map_eq_cons_iff.mp hsame
    have hletter : IsBare [lowerChar d] := by
      rcases lowerChar_of_isFormOf hascii hlower hform with heq | heq | heq <;> rw [hd, heq]
      · exact hbare
      · decide
      · decide
    refine List.forall_mem_cons.mpr ⟨?_, ih hrest again hagain⟩
    have hd := hletter _ List.mem_cons_self
    refine ⟨?_, ?_, ?_⟩
    · by_contra hblank
      rw [Bool.not_eq_false] at hblank
      rw [lowerChar_of_isBlank hblank] at hd
      exact absurd hblank (by simp [hd.1])
    · rintro rfl
      exact hd.2.1 (by decide)
    · rintro rfl
      exact hd.2.2 (by decide)

/-- A spelling tells which word it spells. -/
theorem Spells.eq_map (hascii : ∀ w ∈ word, w.toNat < 128) (hlower : ∀ w ∈ word, w.toLower = w)
    (h : Spells word name) : word = name.map letterOf := by
  induction h with
  | nil => rfl
  | @cons w c word name hform hspells ih =>
    rw [List.forall_mem_cons] at hascii hlower
    rw [List.map_cons, letterOf_of_isFormOf hascii.1 hlower.1 hform, ← ih hascii.2 hlower.2]

/-- Where a kept element has its name, no other name is spelled. -/
theorem eq_of_spells {word' name' : Text} (hword : word ∈ keptNames) (hword' : word' ∈ keptNames)
    (h : Spells word name) (h' : Spells word' name') (hname : name <+: t) (hname' : name' <+: t) :
    word = word' := by
  have hapart : ∀ word ∈ keptNames, ∀ word' ∈ keptNames, word <+: word' → word = word' := by decide
  have hmap {word name : Text} (hword : word ∈ keptNames) (h : Spells word name) :
      word = name.map letterOf :=
    h.eq_map (fun w hw => (letter_of_mem_keptNames hword hw).1)
      fun w hw => (letter_of_mem_keptNames hword hw).2.1
  rcases List.prefix_or_prefix_of_prefix hname hname' with hpre | hpre
  · refine hapart word hword word' hword' ?_
    rw [hmap hword h, hmap hword' h']
    exact hpre.map letterOf
  · refine (hapart word' hword' word hword ?_).symm
    rw [hmap hword h, hmap hword' h']
    exact hpre.map letterOf

/-! ### Closing tags -/

/-- A closing tag of an element with the given name: the name in any case, and blanks behind it. -/
def IsClosingTag (name tag : Text) : Prop :=
  ∃ again blanks, tag = '<' :: '/' :: (again ++ (blanks ++ ['>'])) ∧ IsSameName name again ∧
    ∀ c ∈ blanks, isBlank c

theorem closingTag?_eq_some_iff :
    closingTag? name t = some n ↔ ∃ tag rest, t = tag ++ rest ∧ IsClosingTag name tag ∧
      tag.length = n := by
  constructor
  · intro h
    unfold closingTag? at h
    split at h
    · next rest₀ =>
      obtain ⟨rest, hsame, hrest⟩ := Option.bind_eq_some_iff.mp h
      obtain ⟨again, rfl, hagain⟩ := sameName?_eq_some_iff.mp hsame
      dsimp only at hrest
      split at hrest
      · next hend =>
        cases hrest
        obtain ⟨behind, hbehind⟩ := List.head?_eq_some_iff.mp hend
        have hblanks : rest = rest.takeWhile isBlank ++ '>' :: behind := by
          rw [← hbehind]
          exact (List.prefix_iff_eq_append.mp (List.takeWhile_prefix isBlank)).symm
        refine ⟨'<' :: '/' :: (again ++ (rest.takeWhile isBlank ++ ['>'])), behind, ?_,
          ⟨again, _, rfl, hagain, fun c hc => List.all_eq_true.mp (List.all_takeWhile ..) c hc⟩, ?_⟩
        · simp
          exact hblanks
        · have hlength := congrArg List.length hagain
          simp at hlength ⊢
          omega
      · cases hrest
    · cases h
  · rintro ⟨tag, rest, rfl, ⟨again, blanks, rfl, hagain, hblanks⟩, rfl⟩
    have hsame : sameName? name (again ++ (blanks ++ '>' :: rest)) = some (blanks ++ '>' :: rest) :=
      sameName?_eq_some_iff.mpr ⟨again, rfl, hagain⟩
    have htake : (blanks ++ '>' :: rest).takeWhile isBlank = blanks := by
      rw [List.takeWhile_append_of_pos hblanks, List.takeWhile_cons_of_neg (by decide),
        List.append_nil]
    have hlength := congrArg List.length hagain
    simp at hlength
    simp [closingTag?, hsame, htake, hlength]
    omega

/-- A closing tag is not over before its end, and no other tag begins in it. -/
theorem IsClosingTag.mark_notMem (hname : IsBareName name) {tag v w : Text}
    (h : IsClosingTag name tag) (hv : v ≠ []) (hsplit : tag = v ++ w) : '<' ∉ w := by
  obtain ⟨again, blanks, rfl, hagain, hblanks⟩ := h
  obtain ⟨c, v, rfl⟩ := List.exists_cons_of_ne_nil hv
  have htail : '/' :: (again ++ (blanks ++ ['>'])) = v ++ w := (List.cons.inj hsplit).2
  have hmem : '<' ∉ '/' :: (again ++ (blanks ++ ['>'])) := by
    simp only [List.mem_cons, List.mem_append, List.not_mem_nil, not_or, or_false]
    exact ⟨by decide, fun hmem => (hname again hagain _ hmem).2.1 rfl,
      fun hmem => absurd (hblanks _ hmem) (by decide), by decide⟩
  exact fun hw => hmem (htail ▸ List.mem_append_right v hw)

/-- The first closing tag is found behind a text that holds none. -/
theorem lengthToClosing?_of_free (hname : IsBareName name) {inner tag : Text}
    (hinner : ∀ tag, IsClosingTag name tag → ¬ tag <:+: inner) (htag : IsClosingTag name tag)
    (rest : Text) : lengthToClosing? name (inner ++ (tag ++ rest)) =
      some (inner.length + tag.length) := by
  induction inner with
  | nil =>
    have hclosing : closingTag? name (tag ++ rest) = some tag.length :=
      closingTag?_eq_some_iff.mpr ⟨tag, rest, rfl, htag, rfl⟩
    obtain ⟨c, tag, rfl⟩ : ∃ c cs, tag = c :: cs := by
      obtain ⟨again, blanks, rfl, -⟩ := htag
      exact ⟨_, _, rfl⟩
    rw [List.nil_append, List.cons_append, lengthToClosing?]
    rw [List.cons_append] at hclosing
    simp [hclosing]
  | cons c inner ih =>
    have hnone : closingTag? name (c :: (inner ++ (tag ++ rest))) = none := by
      rw [Option.eq_none_iff_forall_ne_some]
      intro n hn
      obtain ⟨other, behind, ht, hother, -⟩ := closingTag?_eq_some_iff.mp hn
      have hpre : other <+: (c :: inner) ++ (tag ++ rest) := ⟨behind, ht.symm⟩
      rcases List.prefix_or_prefix_of_prefix hpre (List.prefix_append (c :: inner) _) with h | h
      · exact hinner other hother h.isInfix
      -- A tag that is longer than the text holds the mark with which the next tag begins.
      · obtain ⟨w, hw⟩ := h
        have hmark := hother.mark_notMem hname (List.cons_ne_nil c inner) hw.symm
        rw [← hw, List.prefix_append_right_inj] at hpre
        obtain ⟨again, blanks, rfl, -⟩ := htag
        cases w with
        | nil => exact hinner other hother (by rw [← hw, List.append_nil])
        | cons d w =>
          have hd : d = '<' := (List.cons_prefix_cons.mp hpre).1
          exact hmark (hd ▸ List.mem_cons_self)
    rw [List.cons_append, lengthToClosing?, hnone]
    simp only
    rw [ih fun other hother hinf => hinner other hother (List.infix_cons hinf), Option.map_some,
      List.length_cons, Nat.add_right_comm]

theorem lengthToClosing?_eq_some (h : lengthToClosing? name t = some n) :
    ∃ inner tag rest, t = inner ++ (tag ++ rest) ∧ IsClosingTag name tag ∧
      (∀ tag, IsClosingTag name tag → ¬ tag <:+: inner) ∧ n = inner.length + tag.length := by
  induction t generalizing n with
  | nil => cases h
  | cons c t ih =>
    rw [lengthToClosing?] at h
    cases hclosing : closingTag? name (c :: t) with
    | some k =>
      rw [hclosing] at h
      cases h
      obtain ⟨tag, rest, ht, htag, rfl⟩ := closingTag?_eq_some_iff.mp hclosing
      refine ⟨[], tag, rest, ht, htag, fun other hother hinf => ?_, by simp⟩
      obtain ⟨again, blanks, rfl, -⟩ := hother
      cases List.infix_nil.mp hinf
    | none =>
      rw [hclosing] at h
      obtain ⟨k, hk, rfl⟩ := Option.map_eq_some_iff.mp h
      obtain ⟨inner, tag, rest, rfl, htag, hinner, rfl⟩ := ih hk
      refine ⟨c :: inner, tag, rest, rfl, htag, fun other hother hinf => ?_, by simp; omega⟩
      rcases List.infix_cons_iff.mp hinf with hpre | hinf
      · obtain ⟨behind, hbehind⟩ := hpre.trans (List.prefix_append (c :: inner) (tag ++ rest))
        have hsome := closingTag?_eq_some_iff.mpr ⟨other, behind, hbehind.symm, hother, rfl⟩
        rw [← List.cons_append] at hclosing
        cases hclosing.symm.trans hsome
      · exact hinner other hother hinf

/-! ### Elements -/

/-- An element that is kept: a name of the list at a word border, and what follows up to and with
the first closing tag of that name. -/
def IsElement (element : Text) : Prop :=
  ∃ word ∈ keptNames, ∃ name inner tag, element = '<' :: (name ++ (inner ++ tag)) ∧
    Spells word name ∧ ¬ inner.head?.any isWordChar ∧ IsClosingTag name tag ∧
    ∀ tag, IsClosingTag name tag → ¬ tag <:+: inner

theorem border_iff {inner tag : Text} (htag : IsClosingTag name tag) (rest : Text) :
    (inner ++ (tag ++ rest)).head?.any isWordChar = inner.head?.any isWordChar := by
  cases inner with
  | nil =>
    obtain ⟨again, blanks, rfl, -⟩ := htag
    exact (by decide : isWordChar '<' = false)
  | cons c inner => rfl

/-- A search with one place to succeed succeeds there. -/
theorem findSome?_of_unique {α β : Type*} {f : α → Option β} {l : List α} {a : α} {b : β}
    (ha : a ∈ l) (hf : f a = some b) (hothers : ∀ a' ∈ l, a' ≠ a → f a' = none) :
    l.findSome? f = some b := by
  cases hfind : l.findSome? f with
  | none => cases hf.symm.trans (List.findSome?_eq_none_iff.mp hfind a ha)
  | some b' =>
    obtain ⟨a', ha', hf'⟩ := List.exists_of_findSome?_eq_some hfind
    by_cases heq : a' = a
    · rw [← hf', heq, hf]
    · cases hf'.symm.trans (hothers a' ha' heq)

/-- **The scan finds an element exactly where one begins.** -/
theorem elementLength?_eq_some_iff :
    elementLength? t = some n ↔ ∃ element rest, t = element ++ rest ∧ IsElement element ∧
      element.length = n := by
  constructor
  · intro h
    unfold elementLength? at h
    split at h
    · obtain ⟨word, hword, hscan⟩ := List.exists_of_findSome?_eq_some h
      obtain ⟨⟨name, rest⟩, hdrop, hfound⟩ := Option.bind_eq_some_iff.mp hscan
      obtain ⟨rfl, hspells⟩ := dropWord?_eq_some_iff.mp hdrop
      dsimp only at hfound
      split at hfound
      · cases hfound
      · next hborder =>
        obtain ⟨k, hk, rfl⟩ := Option.map_eq_some_iff.mp hfound
        obtain ⟨inner, tag, rest, rfl, htag, hinner, rfl⟩ := lengthToClosing?_eq_some hk
        rw [border_iff htag] at hborder
        refine ⟨'<' :: (name ++ (inner ++ tag)), rest, by simp,
          ⟨word, hword, name, inner, tag, rfl, hspells, hborder, htag, hinner⟩, ?_⟩
        simp
        omega
    · cases h
  · rintro ⟨_, rest, rfl, ⟨word, hword, name, inner, tag, rfl, hspells, hborder, htag, hinner⟩, rfl⟩
    have hlength := lengthToClosing?_of_free (hspells.isBareName hword) hinner htag rest
    have hfound : Text.dropWord? word (name ++ (inner ++ (tag ++ rest))) =
        some (name, inner ++ (tag ++ rest)) := dropWord?_eq_some_iff.mpr ⟨rfl, hspells⟩
    have hothers (word' : Text) (hword' : word' ∈ keptNames) (hne : word' ≠ word) :
        Text.dropWord? word' (name ++ (inner ++ (tag ++ rest))) = none := by
      rw [Option.eq_none_iff_forall_ne_some]
      rintro ⟨name', rest'⟩ hdrop
      obtain ⟨ht, hspells'⟩ := dropWord?_eq_some_iff.mp hdrop
      exact hne (eq_of_spells hword hword' hspells hspells' (List.prefix_append name _)
        ⟨rest', ht.symm⟩).symm
    simp only [List.cons_append, List.append_assoc, elementLength?]
    refine findSome?_of_unique hword ?_ fun word' hword' hne => ?_
    · rw [← border_iff htag rest] at hborder
      rw [hfound, Option.bind_some]
      dsimp only
      rw [if_neg hborder, hlength]
      simp
      omega
    · rw [hothers word' hword' hne, Option.bind_none]

/-- An element begins where it is found, and is found again whatever follows. -/
theorem elementLength?_append (h : IsElement element) (rest : Text) :
    elementLength? (element ++ rest) = some element.length :=
  elementLength?_eq_some_iff.mpr ⟨element, rest, rfl, h, rfl⟩

theorem isElement_take (h : elementLength? t = some n) : IsElement (t.take n) := by
  obtain ⟨element, rest, rfl, helement, rfl⟩ := elementLength?_eq_some_iff.mp h
  rwa [List.take_left]

theorem elementLength?_eq_none_iff :
    elementLength? t = none ↔ ∀ element, IsElement element → ¬ element <+: t := by
  constructor
  · rintro h element helement ⟨rest, rfl⟩
    cases h.symm.trans (elementLength?_append helement rest)
  · intro h
    rw [Option.eq_none_iff_forall_ne_some]
    intro n hn
    obtain ⟨element, rest, rfl, helement, -⟩ := elementLength?_eq_some_iff.mp hn
    exact h element helement (List.prefix_append element rest)

theorem IsElement.ne_nil (h : IsElement element) : element ≠ [] := by
  obtain ⟨word, -, name, inner, tag, rfl, -⟩ := h
  exact List.cons_ne_nil _ _

theorem pieces_append_of_isElement (h : IsElement element) (rest : Text) :
    pieces (element ++ rest) = .kept element :: pieces rest := by
  rw [pieces_of_element (elementLength?_append h rest), List.take_left, List.drop_left]

end Pageloom.Html
