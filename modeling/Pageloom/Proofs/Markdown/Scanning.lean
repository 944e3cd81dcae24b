import Mathlib.Data.List.Infix
import Pageloom.Markdown.InlineReader
import Pageloom.Proofs.Text.Places

/-!
# What inline scanners read

A scanner of inline content says what it has read and what is left. Here this is said as an equation
of the text: what was read, the character or the run that closes it, and the rest. Of raw HTML only
the rest is given, which follows a closing angle bracket.

## Main results

* `InlineReader.codeUpTo?_eq_some`, `InlineReader.deletion?_eq_some`,
  `InlineReader.noteKey?_eq_some`: code, deletions, and keys of notes.
* `InlineReader.angledUrl?_eq_some`, `InlineReader.angledMail?_eq_some`,
  `InlineReader.bareUrl?_eq_some`: automatic links.
* `Tag.rawHtml?_eq_some`: raw HTML.
* `Target.label?_eq_some`: labels.
-/

namespace Pageloom.Markdown

variable {t rest key url : Text} {p : Char → Bool} {c : Char} {n : ℕ}

/-- A list is what comes first of a class, and what is behind. -/
theorem takeWhile_append_drop {α : Type} (p : α → Bool) (t : List α) :
    t.takeWhile p ++ t.drop (t.takeWhile p).length = t :=
  List.prefix_iff_eq_append.mp (List.takeWhile_prefix p)

/-! ### Raw HTML -/

namespace Tag

theorem tagName?_eq_some {name : Text} (h : tagName? t = some (name, rest)) : rest <:+ t := by
  unfold tagName? at h
  split at h
  · next c cs =>
    split at h
    · cases h
      exact (List.dropWhile_suffix _).trans (List.suffix_cons c cs)
    · cases h
  · cases h

theorem attributeName?_eq_some (h : attributeName? t = some rest) : rest <:+ t := by
  unfold attributeName? at h
  split at h
  · next c cs =>
    split at h
    · cases h
      exact (List.dropWhile_suffix _).trans (List.suffix_cons c cs)
    · cases h
  · cases h

theorem suffix_of_cutWhere? (h : (Text.cutWhere? p t).map (fun (_, _, rest) => rest) = some rest) :
    rest <:+ t := by
  obtain ⟨⟨before, c, behind⟩, hcut, rfl⟩ := Option.map_eq_some_iff.mp h
  obtain ⟨rfl, -⟩ := Text.cutWhere?_eq_some_iff.mp hcut
  exact (List.suffix_cons c behind).trans (List.suffix_append before _)

theorem attributeValue?_eq_some (h : attributeValue? t = some rest) : rest <:+ t := by
  unfold attributeValue? at h
  split at h
  · exact (suffix_of_cutWhere? h).trans (List.suffix_cons _ _)
  · exact (suffix_of_cutWhere? h).trans (List.suffix_cons _ _)
  · split at h
    · cases h
    · cases h
      exact (List.dropWhile_suffix _).trans (List.suffix_cons _ _)
  · cases h

theorem attribute?_eq_some (h : attribute? t = some rest) : rest <:+ t := by
  unfold attribute? at h
  dsimp only at h
  split at h
  · cases h
  · obtain ⟨named, hname, hrest⟩ := Option.map_eq_some_iff.mp h
    have hnamed : named <:+ t := (attributeName?_eq_some hname).trans (List.dropWhile_suffix _)
    split at hrest
    · next value hvalue =>
      cases hread : attributeValue? (value.dropWhile isBlank) with
      | none =>
        rw [hread] at hrest
        exact hrest ▸ hnamed
      | some behind =>
        rw [hread] at hrest
        cases hrest
        have hbehind : value <:+ named :=
          (List.suffix_cons _ value).trans (hvalue ▸ List.dropWhile_suffix _)
        exact (attributeValue?_eq_some hread).trans
          ((List.dropWhile_suffix _).trans (hbehind.trans hnamed))
    · exact hrest ▸ hnamed

theorem attributes_suffix (n : ℕ) (t : Text) : attributes n t <:+ t := by
  induction n generalizing t with
  | zero => exact List.suffix_refl t
  | succ n ih =>
    rw [attributes]
    split
    · next rest h => exact (ih rest).trans (attribute?_eq_some h)
    · exact List.suffix_refl t

theorem openTagEnd?_eq_some (h : openTagEnd? t = some rest) : '>' :: rest <:+ t := by
  have hsuffix : (attributes t.length t).dropWhile isBlank <:+ t :=
    (List.dropWhile_suffix _).trans (attributes_suffix _ t)
  unfold openTagEnd? at h
  split at h
  · next hend =>
    cases h
    exact (List.suffix_cons _ _).trans (hend ▸ hsuffix)
  · next hend =>
    cases h
    exact hend ▸ hsuffix
  · cases h

theorem closingTagEnd?_eq_some (h : closingTagEnd? t = some rest) : '>' :: rest <:+ t := by
  unfold closingTagEnd? at h
  split at h
  · next hend =>
    cases h
    exact hend ▸ List.dropWhile_suffix _
  · cases h

theorem through?_eq_some {marker : Text} (hmarker : marker.getLast? = some c)
    (h : through? marker t = some rest) : c :: rest <:+ t := by
  obtain ⟨⟨before, behind⟩, hcut, rfl⟩ := Option.map_eq_some_iff.mp h
  obtain ⟨start, rfl⟩ := List.getLast?_eq_some_iff.mp hmarker
  obtain ⟨rfl, -⟩ := Text.cut?_eq_some (by simp) hcut
  exact ⟨before ++ start, by simp⟩

/-- Raw HTML ends with an angle bracket. -/
theorem rawHtml?_eq_some (h : rawHtml? t = some rest) : '>' :: rest <:+ t := by
  have htag {name t cs : Text} (hread : tagName? t = some (name, cs)) (hend : '>' :: rest <:+ cs) :
      '>' :: rest <:+ t := hend.trans (tagName?_eq_some hread)
  unfold rawHtml? at h
  split at h
  · obtain ⟨⟨name, cs⟩, hread, hend⟩ := Option.bind_eq_some_iff.mp h
    exact (htag hread (closingTagEnd?_eq_some hend)).trans ⟨['<', '/'], rfl⟩
  · exact (through?_eq_some (by decide) h).trans ⟨['<', '?'], rfl⟩
  · next cs =>
    refine List.IsSuffix.trans ?_ (List.suffix_append ['<', '!'] cs)
    split at h
    · cases h
      exact ⟨['-', '-'], rfl⟩
    · cases h
      exact ⟨['-', '-', '-'], rfl⟩
    · exact (through?_eq_some (by decide) h).trans ⟨['-', '-'], rfl⟩
    · split at h
      · next behind hcdata =>
        exact (through?_eq_some (by decide) h).trans
          ⟨_, (Text.dropPrefix?_eq_some_iff.mp hcdata).symm⟩
      · split at h
        · exact through?_eq_some (by decide) h
        · cases h
  · obtain ⟨⟨name, cs⟩, hread, hend⟩ := Option.bind_eq_some_iff.mp h
    exact (htag hread (openTagEnd?_eq_some hend)).trans ⟨['<'], rfl⟩
  · cases h

end Tag

/-- A label ends with its bracket. -/
theorem Target.label?_eq_some {label : Text} (h : label? t = some (label, rest)) :
    t = label ++ ']' :: rest := by
  have htext := (Option.filter_eq_some_iff.mp h).1
  clear h
  fun_induction labelText? t generalizing label with
  | case1 => cases htext
  | case2 => cases htext; rfl
  | case3 => cases htext
  | case4 c cs ih =>
    obtain ⟨⟨inner, behind⟩, hread, ⟨⟩⟩ := Option.map_eq_some_iff.mp htext
    rw [ih hread]
    rfl
  | case5 c cs _ _ _ ih =>
    obtain ⟨⟨inner, behind⟩, hread, ⟨⟩⟩ := Option.map_eq_some_iff.mp htext
    rw [ih hread]
    rfl

namespace InlineReader

/-! ### Code, deletions and notes -/

/-- Code is closed by a run of the same length as the one that opens it. -/
theorem codeUpTo?_eq_some {count run : ℕ} {code : Text}
    (h : codeUpTo? count run t = some (code, rest)) :
    t = code ++ rest ∧ ∃ inner,
      List.replicate run '\x60' ++ code = inner ++ List.replicate count '\x60' := by
  induction t generalizing run code with
  | nil =>
    rw [codeUpTo?] at h
    split at h
    · next hrun =>
      cases h
      exact ⟨rfl, [], by simp [hrun]⟩
    · cases h
  | cons c cs ih =>
    rw [codeUpTo?] at h
    split at h
    · next hc =>
      obtain ⟨⟨code', rest'⟩, hread, ⟨⟩⟩ := Option.map_eq_some_iff.mp h
      obtain ⟨rfl, inner, hinner⟩ := ih hread
      refine ⟨rfl, inner, ?_⟩
      rw [← hinner, hc, List.replicate_succ', List.append_assoc, List.singleton_append]
    · split at h
      · next hrun =>
        cases h
        exact ⟨rfl, [], by simp [hrun]⟩
      · obtain ⟨⟨code', rest'⟩, hread, ⟨⟩⟩ := Option.map_eq_some_iff.mp h
        obtain ⟨rfl, inner, hinner⟩ := ih hread
        refine ⟨rfl, List.replicate run '\x60' ++ c :: inner, ?_⟩
        rw [List.append_assoc, List.cons_append, ← hinner]
        rfl

theorem noteKey?_eq_some (h : noteKey? t = some (key, rest)) : t = key ++ ']' :: rest := by
  unfold noteKey? at h
  dsimp only at h
  split at h
  · next behind hbehind =>
    split at h
    · cases h
      rw [← hbehind, takeWhile_append_drop]
    · cases h
  · cases h

theorem endsDeletion_eq_true (h : endsDeletion t) : ∃ rest, t = '~' :: '~' :: rest := by
  unfold endsDeletion at h
  split at h
  · exact ⟨_, rfl⟩
  · cases h
  · exact ⟨_, rfl⟩
  · cases h

theorem deletedText?_eq_some {previous : Char} {inside : Text}
    (h : deletedText? previous t = some (inside, rest)) : t = inside ++ '~' :: '~' :: rest := by
  induction t generalizing previous inside with
  | nil => simp [deletedText?] at h
  | cons c cs ih =>
    rw [deletedText?] at h
    dsimp only at h
    split at h
    · next n hescaped =>
      cases h
      split at hescaped
      · cases hescaped
      · obtain ⟨-, hend⟩ := Option.filter_eq_some_iff.mp hescaped
        obtain ⟨rest, hrest⟩ := endsDeletion_eq_true hend
        rw [hrest, List.drop_succ_cons, List.drop_succ_cons, List.drop_zero, ← hrest,
          List.take_append_drop]
    · split at h
      · next hend =>
        cases h
        simp only [Bool.and_eq_true] at hend
        obtain ⟨rest, rfl⟩ := endsDeletion_eq_true hend.2
        rfl
      · obtain ⟨⟨inside', rest'⟩, hread, ⟨⟩⟩ := Option.map_eq_some_iff.mp h
        rw [ih hread, List.cons_append]

theorem deletion?_eq_some {inside : Text} (h : deletion? t = some (inside, rest)) :
    t = inside ++ '~' :: '~' :: rest := by
  unfold deletion? at h
  split at h
  · split at h
    · cases h
    · exact deletedText?_eq_some h
  · cases h

/-! ### Automatic links -/

theorem angledUrl?_eq_some (h : angledUrl? t = some (url, rest)) : t = url ++ '>' :: rest := by
  unfold angledUrl? at h
  split at h
  · next c cs =>
    dsimp only at h
    split at h
    · split at h
      · next behind hbehind =>
        cases h
        rw [List.append_assoc, ← hbehind, takeWhile_append_drop, List.cons_append,
          List.takeWhile_append_dropWhile]
      · cases h
    · cases h
  · cases h

theorem angledMail?_eq_some (h : angledMail? t = some (url, rest)) : t = url ++ '>' :: rest := by
  unfold angledMail? at h
  dsimp only at h
  split at h
  · next cs hcs =>
    split at h
    · next behind hbehind =>
      split at h
      · cases h
        rw [List.append_assoc, List.cons_append, ← hbehind, takeWhile_append_drop, ← hcs,
          takeWhile_append_drop]
      · cases h
    · cases h
  · cases h

theorem head?_drop_trimEnd_takeWhile {q : Char → Bool}
    (h : (t.drop (Text.trimEnd p (t.takeWhile q)).length).head? = some c) : p c ∨ q c = false := by
  obtain ⟨tail, htail, hp⟩ := Text.exists_trimEnd_append p (t.takeWhile q)
  have ht : t = Text.trimEnd p (t.takeWhile q) ++ (tail ++ t.dropWhile q) := by
    rw [← List.append_assoc, ← htail, List.takeWhile_append_dropWhile]
  rw [(congrArg (List.drop _) ht).trans (List.drop_left' rfl)] at h
  cases tail with
  | nil =>
    have := List.head?_dropWhile_not q t
    rw [List.nil_append] at h
    rw [h] at this
    exact .inr this
  | cons d tail =>
    cases h
    exact .inl (hp c List.mem_cons_self)

/-- A URL without brackets is followed by a character that may not stand at its end. -/
theorem bareUrl?_eq_some {inBracket : Bool} (h : bareUrl? inBracket t = some (url, rest)) :
    t = url ++ rest ∧ ∀ c, rest.head? = some c →
      isBlank c || c == '<' || ".,:;\"')]".toList.elem c := by
  obtain ⟨scheme, hscheme, h⟩ := Option.bind_eq_some_iff.mp h
  have hstart : Text.startsWith scheme t := by simpa using List.find?_some hscheme
  obtain ⟨behind, rfl⟩ := Text.startsWith_iff.mp hstart
  dsimp only at h
  rw [List.drop_left' rfl] at h
  split at h
  · cases h
  · cases h
    refine ⟨(List.take_append_drop _ _).symm, fun c hc => ?_⟩
    rw [List.drop_length_add_append] at hc
    rcases head?_drop_trimEnd_takeWhile hc with hclosing | hend
    · rw [hclosing, Bool.or_true]
    · simp only [Bool.and_eq_false_iff, Bool.not_eq_false', decide_eq_false_iff_not, not_not,
        Bool.and_eq_true, beq_iff_eq] at hend
      rcases hend with (hblank | rfl) | ⟨-, rfl⟩
      · rw [hblank, Bool.true_or, Bool.true_or]
      · decide
      · decide

end InlineReader

end Pageloom.Markdown
