import Pageloom.Proofs.Text.Places
import Pageloom.Text.Reference

/-!
# Written references are read again

A text whose markup characters are written as references holds no markup, and reading it gives the
text back. Reading goes from the left, and the three references that are written end in semicolons,
so a text may be put together from such pieces and from pieces without ampersands.

## Main definitions

* `Reference.referenceChars`: the characters of the references.

## Main results

* `Reference.decode_append_of_notMem`, `Reference.decode_escapeChar_append`: reading piece by piece.
* `Reference.decode_escape`: reading what was written.
* `Reference.mark_notMem_escape`, `Reference.end_notMem_escape`, `Reference.infix_of_infix_escape`:
  what stands in a text that was written.
-/

namespace Pageloom.Reference

variable {t name image start : Text}

theorem decodeFrom_eq_drop (n : ℕ) (t : Text) : decodeFrom n t = decode (t.drop n) := by
  induction t generalizing n with
  | nil => cases n <;> rfl
  | cons c t ih =>
    cases n with
    | zero => rfl
    | succ n => exact ih n

theorem decode_cons_of_ne {c : Char} (hc : c ≠ '&') (t : Text) :
    decode (c :: t) = c :: decode t := by
  rw [decode, decodeFrom, if_neg hc, decode]

/-- A piece without ampersands is read as it stands. -/
theorem decode_append_of_notMem (h : '&' ∉ start) (rest : Text) :
    decode (start ++ rest) = start ++ decode rest := by
  induction start with
  | nil => rfl
  | cons c start ih =>
    obtain ⟨hc, hstart⟩ := not_or.mp (List.mem_cons.not.mp h)
    rw [List.cons_append, decode_cons_of_ne (Ne.symm hc), ih hstart, List.cons_append]

/-- A name with a semicolon is read whatever follows. -/
theorem read?_of_name (hname : name.all isNameChar) (hne : name ≠ [])
    (hlength : name.length ≤ 32) (himage : ofName? name = some image) (rest : Text) :
    read? (name ++ ';' :: rest) = some (image, name.length + 1) := by
  have hend : isNameChar ';' = false := by decide
  have hsharp : isNameChar '#' = false := by decide
  have htake : (name ++ ';' :: rest).takeWhile isNameChar = name := by
    rw [List.takeWhile_append_of_pos (List.all_eq_true.mp hname)]
    simp [hend]
  obtain ⟨c, cs, rfl⟩ := List.exists_cons_of_ne_nil hne
  have hc : c ≠ '#' := fun h => by simp [h, hsharp] at hname
  unfold read?
  split
  · next heq => exact absurd (List.cons.inj heq).1 hc
  · simp only [htake, himage, List.drop_left]
    simpa using hlength

/-- A reference by name is read whatever follows. -/
theorem decode_reference (hname : name.all isNameChar) (hne : name ≠ [])
    (hlength : name.length ≤ 32) (himage : ofName? name = some image) (rest : Text) :
    decode ('&' :: (name ++ ';' :: rest)) = image ++ decode rest := by
  have hread := read?_of_name hname hne hlength himage rest
  have hdrop : (name ++ ';' :: rest).drop (name.length + 1) = rest := by simp
  rw [decode, decodeFrom, if_pos rfl]
  simp only [hread]
  rw [decodeFrom_eq_drop, hdrop]

/-- What is written for a character is read as that character. -/
theorem decode_escapeChar_append (c : Char) (rest : Text) :
    decode (escapeChar c ++ rest) = c :: decode rest := by
  have hamp : ofName? "amp" = some ['&'] := by decide +kernel
  have hlt : ofName? "lt" = some ['<'] := by decide +kernel
  have hgt : ofName? "gt" = some ['>'] := by decide +kernel
  unfold escapeChar
  split_ifs with h₁ h₂ h₃
  · exact h₁ ▸ decode_reference (by decide) (by decide) (by decide) hamp rest
  · exact h₂ ▸ decode_reference (by decide) (by decide) (by decide) hlt rest
  · exact h₃ ▸ decode_reference (by decide) (by decide) (by decide) hgt rest
  · exact decode_cons_of_ne h₁ rest

theorem escape_cons (c : Char) (t : Text) : escape (c :: t) = escapeChar c ++ escape t := rfl

/-- What was written is read again, whatever follows. -/
theorem decode_escape_append (t rest : Text) : decode (escape t ++ rest) = t ++ decode rest := by
  induction t with
  | nil => rfl
  | cons c t ih =>
    rw [escape_cons, List.append_assoc, decode_escapeChar_append, ih, List.cons_append]

/-- **What was written is read again.** -/
theorem decode_escape (t : Text) : decode (escape t) = t := by
  simpa [decode, decodeFrom] using decode_escape_append t []

/-- The characters of the references that are written. -/
def referenceChars : Text := "&amp;&lt;&gt;"

/-- A character is written as it is or as a reference. -/
theorem escapeChar_cases (c : Char) :
    escapeChar c = [c] ∧ c ≠ '<' ∨ escapeChar c ≠ [] ∧ escapeChar c ⊆ referenceChars := by
  unfold escapeChar
  split_ifs with h₁ h₂ h₃
  · exact .inr (by decide)
  · exact .inr (by decide)
  · exact .inr (by decide)
  · exact .inl ⟨rfl, h₂⟩

/-- A character that is written as a reference, and stands in none, is not in what was written. -/
theorem notMem_escape {d : Char} (hd : d ∉ referenceChars) (hwritten : escapeChar d ≠ [d])
    (t : Text) : d ∉ escape t := by
  intro h
  obtain ⟨written, hmem, hd'⟩ := List.mem_flatten.mp h
  obtain ⟨c, -, rfl⟩ := List.mem_map.mp hmem
  rcases escapeChar_cases c with ⟨heq, -⟩ | ⟨-, hchars⟩
  · obtain rfl := List.mem_singleton.mp (heq ▸ hd')
    exact hwritten heq
  · exact hd (hchars hd')

/-- No tag begins in a text that was written. -/
theorem mark_notMem_escape (t : Text) : '<' ∉ escape t :=
  notMem_escape (by decide) (by decide) t

/-- No tag ends in a text that was written. -/
theorem end_notMem_escape (t : Text) : '>' ∉ escape t :=
  notMem_escape (by decide) (by decide) t

section Words

variable {w : Text} (hw : ∀ d ∈ w, d ∉ referenceChars)
include hw

theorem prefix_of_prefix_escape (h : w <+: escape t) : w <+: t := by
  induction t generalizing w with
  | nil => exact h
  | cons c t ih =>
    cases w with
    | nil => exact List.nil_prefix
    | cons d w =>
      obtain ⟨hd, hw⟩ := List.forall_mem_cons.mp hw
      rw [escape_cons] at h
      rcases escapeChar_cases c with ⟨heq, -⟩ | ⟨hne, hchars⟩
      · rw [heq] at h
        obtain ⟨rfl, hrest⟩ := List.cons_prefix_cons.mp h
        exact List.cons_prefix_cons.mpr ⟨rfl, ih hw hrest⟩
      · obtain ⟨e, es, hes⟩ := List.exists_cons_of_ne_nil hne
        rw [hes] at h hchars
        obtain ⟨rfl, -⟩ := List.cons_prefix_cons.mp h
        exact absurd (hchars List.mem_cons_self) hd

/-- A word that shares no character with a reference stands in what was written only if it stands in
the text. -/
theorem infix_of_infix_escape (hne : w ≠ []) (h : w <:+: escape t) : w <:+: t := by
  induction t with
  | nil => exact h
  | cons c t ih =>
    rw [escape_cons] at h
    rcases escapeChar_cases c with ⟨heq, -⟩ | ⟨-, hchars⟩
    · rw [heq, List.singleton_append, List.infix_cons_iff] at h
      rcases h with hprefix | hinfix
      · refine (prefix_of_prefix_escape hw (t := c :: t) ?_).isInfix
        rw [escape_cons, heq]
        exact hprefix
      · exact List.infix_cons (ih hinfix)
    · refine List.infix_cons (ih ?_)
      generalize escapeChar c = written at h hchars
      induction written with
      | nil => exact h
      | cons d written ih' =>
        obtain ⟨hd, hchars⟩ := List.cons_subset.mp hchars
        have hnot : d ∉ w := fun hmem => hw d hmem hd
        exact ih' ((Text.infix_cons_of_notMem hnot hne).mp h) hchars

end Words

end Pageloom.Reference
