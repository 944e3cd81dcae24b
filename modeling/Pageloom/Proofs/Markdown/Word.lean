import Mathlib.Data.List.Chain
import Pageloom.Proofs.Template.Cut
import Pageloom.Proofs.Text.Digits
import Pageloom.Proofs.Text.Places
import Pageloom.Proofs.Text.Reference
import Pageloom.Text.Blank
import Pageloom.Text.Category

/-!
# Placeholders as words of a Markdown text

What makes a placeholder survive as text is said of its characters: capital letters, underscores and
braces. None of them ends a line, begins a block or is written as a reference. Only the underscore
is a mark of emphasis, and between letters it neither opens nor closes any.

## Main definitions

* `Markdown.placeholderChars`: the characters of placeholders.
* `Markdown.IsWord`: a text of these characters whose underscores stand inside of it.

## Main results

* `Markdown.isWord_placeholder`: the placeholder of a token that begins and ends with a letter.
* `Markdown.infix_normalize`: a word stays when references are read and written.
-/

namespace Pageloom.Markdown

open Template (IsToken isTokenChar placeholder)

variable {w t name : Text} {c : Char}

/-- The characters of placeholders. -/
def placeholderChars : List Char := "ABCDEFGHIJKLMNOPQRSTUVWXYZ_\x7b\x7d".toList

/-- A text of characters of placeholders that begins with a brace, in which letters and underscores
only stand beside an underscore. -/
structure IsWord (w : Text) : Prop where
  head : w.head? = some '\x7b'
  last : w.getLast? ≠ some '_'
  chars : ∀ c ∈ w, c ∈ placeholderChars
  joined : w.IsChain fun c d => c = '_' ∨ d = '_' → isTokenChar c ∧ isTokenChar d

theorem mem_placeholderChars_of_isTokenChar (h : isTokenChar c) : c ∈ placeholderChars :=
  forall_ascii (P := fun c => isTokenChar c → c ∈ placeholderChars) (by decide)
    (Template.toNat_lt_of_isTokenChar h) h

/-- What holds of the characters of placeholders can be checked, one character after the other. -/
theorem forall_mem_placeholderChars {P : Char → Prop} [DecidablePred P]
    (h : placeholderChars.all fun c => P c) : ∀ c ∈ placeholderChars, P c := fun c hc =>
  of_decide_eq_true (List.all_eq_true.mp h c hc)

theorem isAlphanumeric_of_isTokenChar (h : isTokenChar c) (hc : c ≠ '_') : isAlphanumeric c :=
  have hchars : ∀ d ∈ placeholderChars, isTokenChar d → d ≠ '_' → isAlphanumeric d :=
    forall_mem_placeholderChars (by decide)
  hchars c (mem_placeholderChars_of_isTokenChar h) h hc

/-- The placeholder of a token that neither begins nor ends with an underscore is a word. -/
theorem isWord_placeholder (hname : IsToken name) (hfirst : name.head? ≠ some '_')
    (hlast : name.getLast? ≠ some '_') : IsWord (placeholder name) where
  head := rfl
  last := by
    rw [placeholder, List.getLast?_concat]
    decide
  chars c hc := by
    rw [placeholder, List.mem_append, List.mem_cons, List.mem_singleton] at hc
    rcases hc with (rfl | hc) | rfl
    · decide
    · exact mem_placeholderChars_of_isTokenChar (hname.2 c hc)
    · decide
  joined := by
    rw [placeholder, List.cons_append, List.isChain_cons, List.isChain_append]
    refine ⟨fun d hd hmark => absurd ?_ hfirst, ?_, List.isChain_singleton _,
      fun c hc d hd hmark => absurd ?_ hlast⟩
    · rw [List.head?_append_of_ne_nil _ hname.1] at hd
      rw [← hmark.resolve_left (by decide)]
      exact hd
    · exact (List.pairwise_of_forall_mem_list fun c hc d hd _ =>
        ⟨hname.2 c hc, hname.2 d hd⟩).isChain
    · cases hd
      rw [← hmark.resolve_right (by decide)]
      exact hc

namespace IsWord

theorem ne_nil (hw : IsWord w) : w ≠ [] := fun h => by simpa [h] using hw.head

/-- What holds of the characters of placeholders holds of those of a word. -/
theorem forall_mem (hw : IsWord w) {P : Char → Prop} [DecidablePred P]
    (h : placeholderChars.all fun c => P c) : ∀ c ∈ w, P c := fun c hc =>
  forall_mem_placeholderChars h c (hw.chars c hc)

theorem notMem (hw : IsWord w) (hc : c ∉ placeholderChars) : c ∉ w := fun h => hc (hw.chars c h)

theorem notMem_of_isBlank (hw : IsWord w) (hc : isBlank c) : c ∉ w := fun h =>
  have hblank : ∀ c ∈ w, ¬ isBlank c := hw.forall_mem (by decide)
  hblank c h hc

/-- What stands beside an underscore in a word is a letter or another underscore. -/
theorem isAlphanumeric_of_meet {a b : Text} {d : Char} (hw : IsWord (a ++ b))
    (hc : a.getLast? = some c) (hd : b.head? = some d) (hmark : c = '_' ∨ d = '_') :
    (c ≠ '_' → isAlphanumeric c) ∧ (d ≠ '_' → isAlphanumeric d) := by
  have hmeet := (List.isChain_append.mp hw.joined).2.2 c hc d hd hmark
  exact ⟨isAlphanumeric_of_isTokenChar hmeet.1, isAlphanumeric_of_isTokenChar hmeet.2⟩

end IsWord

/-! ### References -/

open Reference in
/-- No name of a character has a brace in it. A brace is one byte of a name, and bytes are looked at
faster than characters. -/
private theorem brace_notMem_namesFrom (c : Char) :
    ∀ entry ∈ namesFrom c, '\x7b' ∉ entry.1.toList := by
  have hbytes : (namesFrom c).all fun entry => !entry.1.toByteArray.data.toList.elem 0x7b := by
    unfold namesFrom
    split <;> decide +kernel
  intro entry hentry hmem
  have hbyte : 0x7b ∈ entry.1.toByteArray.data.toList := by
    rw [← String.utf8Encode_toList, List.utf8Encode, List.data_toByteArray]
    exact List.mem_flatMap.mpr ⟨_, hmem, by decide⟩
  have := List.all_eq_true.mp hbytes entry hentry
  simp [hbyte] at this

open Reference in
theorem ofName?_of_brace_mem (h : '\x7b' ∈ name) : ofName? name = none := by
  cases name with
  | nil => cases h
  | cons c cs =>
    rw [ofName?, Option.map_eq_none_iff, List.find?_eq_none]
    intro entry hentry heq
    exact brace_notMem_namesFrom c entry hentry (beq_iff_eq.mp heq ▸ h)

open Reference in
/-- A name that is read without a semicolon ends before a brace. -/
theorem longestBare?_eq_some {n : ℕ} {image rest : Text}
    (h : longestBare? name n = some (image, rest)) :
    ∃ k, rest = name.drop k ∧ '\x7b' ∉ name.take k := by
  induction n with
  | zero => simp [longestBare?] at h
  | succ n ih =>
    rw [longestBare?] at h
    split at h
    · next image' hbare =>
      cases h
      refine ⟨n + 1, rfl, fun hmem => ?_⟩
      rw [ofBareName?, ofName?_of_brace_mem hmem, ite_self] at hbare
      cases hbare
    · exact ih h

theorem brace_mem_take (hw : IsWord w) {a : Text} {n : ℕ} (b : Text) (hn : a.length < n) :
    '\x7b' ∈ (a ++ w ++ b).take n := by
  obtain ⟨w, rfl⟩ := List.head?_eq_some_iff.mp hw.head
  exact List.mem_of_getElem? (i := a.length) (by simp [hn])

/-- What a numeric reference takes of a text are its first characters, digits and a semicolon. -/
theorem brace_notMem_take_digits {digits : Char → Bool} (hdigits : digits '\x7b' = false)
    (h : (t.drop (t.takeWhile digits).length).head? = some ';') :
    '\x7b' ∉ t.take ((t.takeWhile digits).length + 1) := by
  rw [List.head?_drop] at h
  rw [List.take_add_one, h, ← List.prefix_iff_eq_take.mp (List.takeWhile_prefix digits)]
  simp only [Option.toList_some, List.mem_append, List.mem_singleton]
  rintro (hmem | hmem)
  · simp [List.mem_takeWhile_imp hmem] at hdigits
  · cases hmem

open Reference in
/-- A reference with a brace in it has a name, of which a beginning without the brace may be read;
the rest of the name is left as it is. -/
theorem read?_eq_some {n : ℕ} {image : Text} (h : read? t = some (image, n))
    (hmem : '\x7b' ∈ t.take n) :
    ∃ name rest k, t = name ++ ';' :: rest ∧ n = name.length + 1 ∧ '\x7b' ∉ name.take k ∧
      name.drop k <:+: image := by
  unfold read? at h
  split at h
  · next x rest =>
    dsimp only at h
    split at h
    · next hx =>
      split at h
      · next hdigits =>
        cases h
        simp only [Bool.and_eq_true, decide_eq_true_eq] at hdigits
        have hfree := brace_notMem_take_digits (by decide) hdigits.2
        rw [Bool.or_eq_true, decide_eq_true_eq, decide_eq_true_eq] at hx
        rcases hx with rfl | rfl <;> simp [hfree] at hmem
      · cases h
    · split at h
      · next hdigits =>
        cases h
        simp only [Bool.and_eq_true, decide_eq_true_eq] at hdigits
        have hfree := brace_notMem_take_digits (by decide) hdigits.2
        exact absurd (List.mem_cons.mp hmem) (not_or.mpr ⟨by decide, hfree⟩)
      · cases h
  · dsimp only at h
    split at h
    · next hname =>
      simp only [Bool.and_eq_true, decide_eq_true_eq] at hname
      obtain ⟨rest, hrest⟩ := List.head?_eq_some_iff.mp hname.2
      have ht : t = t.takeWhile isNameChar ++ ';' :: rest := by
        rw [← hrest, List.prefix_iff_eq_append.mp (List.takeWhile_prefix isNameChar)]
      generalize t.takeWhile isNameChar = name at ht h
      refine ⟨name, rest, ?_⟩
      split at h
      · next hentry =>
        -- such a name has no brace
        cases h
        have hbrace : '\x7b' ∈ name := by
          rw [ht, List.take_length_add_append, List.mem_append] at hmem
          exact hmem.resolve_right (by simp)
        rw [ofName?_of_brace_mem hbrace] at hentry
        cases hentry
      · obtain ⟨⟨image', rest'⟩, hbare, himage⟩ := Option.map_eq_some_iff.mp h
        cases himage
        obtain ⟨k, rfl, hk⟩ := longestBare?_eq_some hbare
        exact ⟨k, ht, rfl, hk, List.infix_append _ _ _⟩
    · cases h

open Reference in
/-- A reference that begins before a word and ends behind its beginning has a name with the word in
it. There is no such name, so the word stays when a beginning of the name is read. -/
theorem infix_of_read? (hw : IsWord w) {a b image : Text} {n : ℕ}
    (h : read? (a ++ w ++ b) = some (image, n)) (hn : a.length < n) : w <:+: image := by
  obtain ⟨name, rest, k, ht, rfl, hk, himage⟩ := read?_eq_some h (brace_mem_take hw b hn)
  -- the word stands in the name, behind what is read of it
  obtain ⟨x, rfl, hx⟩ : ∃ x, name = a ++ x ∧ w ++ b = x ++ ';' :: rest := by
    rw [List.append_assoc] at ht
    rcases List.append_eq_append_iff.mp ht with ⟨x, hname, hx⟩ | ⟨x, rfl, hx⟩
    · exact ⟨x, hname, hx⟩
    · have hnil : x = [] := by simpa using Nat.lt_succ_iff.mp hn
      exact ⟨[], by simp [hnil], by simpa [hnil] using hx.symm⟩
  have hwx : w <+: x := by
    rcases List.append_eq_append_iff.mp hx with ⟨y, rfl, -⟩ | ⟨y, rfl, hy⟩
    · exact List.prefix_append w y
    · cases y with
      | nil => simp
      | cons d y =>
        cases hy
        exact absurd (by simp) (hw.notMem (c := ';') (by decide))
  have hka : k ≤ a.length := by
    by_contra hlt
    obtain ⟨y, rfl⟩ := hwx
    exact hk (List.append_assoc a w y ▸ brace_mem_take hw y (Nat.lt_of_not_le hlt))
  rw [List.drop_append_of_le_length hka] at himage
  exact (hwx.isInfix.trans (List.suffix_append _ x).isInfix).trans himage

open Reference in
/-- Reading references leaves a word as it is. -/
theorem infix_decodeFrom (hw : IsWord w) (a b : Text) {skip : ℕ} (hskip : skip ≤ a.length) :
    w <:+: decodeFrom skip (a ++ w ++ b) := by
  induction a generalizing skip with
  | nil =>
    obtain rfl : skip = 0 := Nat.le_zero.mp hskip
    change w <:+: decode (w ++ b)
    rw [decode_append_of_notMem (hw.notMem (by decide))]
    exact (List.prefix_append w _).isInfix
  | cons c a ih =>
    cases skip with
    | succ skip => exact ih (by simpa using hskip)
    | zero =>
      have hplain : w <:+: c :: decodeFrom 0 (a ++ w ++ b) :=
        (ih (Nat.zero_le _)).trans (List.suffix_cons c _).isInfix
      rw [List.cons_append, List.cons_append, decodeFrom]
      split
      · split
        · next image n hread =>
          by_cases hn : n ≤ a.length
          · exact (ih hn).trans (List.suffix_append image _).isInfix
          · exact (infix_of_read? hw hread (Nat.lt_of_not_le hn)).trans
              (List.prefix_append image _).isInfix
        · exact hplain
      · exact hplain

open Reference in
theorem infix_decode (hw : IsWord w) (h : w <:+: t) : w <:+: decode t := by
  obtain ⟨a, b, rfl⟩ := h
  exact infix_decodeFrom hw a b (Nat.zero_le _)

/-- A word stays when characters that it does not hold are written in another way. -/
theorem infix_flatten_map {f : Char → Text} (hf : ∀ c ∈ w, f c = [c]) (h : w <:+: t) :
    w <:+: (t.map f).flatten := by
  have hwf : (w.map f).flatten = w := by
    rw [List.map_congr_left hf]
    exact List.flatMap_singleton' w
  have := (h.map f).flatten
  rwa [hwf] at this

open Reference in
theorem infix_escape (hw : IsWord w) (h : w <:+: t) : w <:+: escape t :=
  infix_flatten_map (hw.forall_mem (by decide)) h

open Reference in
theorem infix_escapeQuoted (hw : IsWord w) (h : w <:+: t) : w <:+: escapeQuoted t :=
  infix_flatten_map (hw.forall_mem (by decide)) h

open Reference in
/-- **A word of a text** stays when references are read, and written again where they are needed. -/
theorem infix_normalize (hw : IsWord w) (h : w <:+: t) : w <:+: normalize t :=
  infix_escapeQuoted hw (infix_decode hw h)

end Pageloom.Markdown
