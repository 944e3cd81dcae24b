import Pageloom.Naming
import Pageloom.Proofs.Text.Blank
import Pageloom.Proofs.Text.Runs
import Pageloom.Text.Reference

/-!
# Identifiers of headings

The identifier of a heading consists of its words, in lower case and with single dashes between
them. Five things are done to the heading for it, one after the other: tags are dropped, letters
change their case, blanks go at the ends, then everything that is in no word and between no two
words, and what is left between words becomes a dash. The words do not depend on the order of the
last three, because blanks at the ends are between no two words.

A tag begins with a mark that has an end further on, and takes everything up to that end. So a tag
may hold marks, and a mark without an end stays in the text for the time being.

## Main definitions

* `OpensTag`, `Untagged`: texts that begin with a tag, and texts without their tags.
* `Heading.kept`: the characters that the words of an identifier are looked for in.

## Main results

* `untagged_iff`: each text has one text without tags.
* `Heading.identifier_eq`: the words of an identifier.
* `Heading.identifier_keeps_words`: what an identifier consists of, and what it keeps.
-/

namespace Pageloom

variable {t rest plain inner : Text} {c : Char}

/-! ### Texts without tags -/

/-- The text begins with a tag: a mark, at least one character other than the end of a tag, and the
end. -/
def OpensTag (t : Text) : Prop :=
  ∃ inner rest, inner ≠ [] ∧ '>' ∉ inner ∧ t = '<' :: (inner ++ '>' :: rest)

/-- The second text is the first one without its tags, which are looked for from left to right. -/
inductive Untagged : Text → Text → Prop where
  | nil : Untagged [] []
  | tag {inner rest plain : Text} (hne : inner ≠ []) (hinner : '>' ∉ inner)
      (h : Untagged rest plain) : Untagged ('<' :: (inner ++ '>' :: rest)) plain
  | char {c : Char} {rest plain : Text} (hc : ¬ OpensTag (c :: rest)) (h : Untagged rest plain) :
      Untagged (c :: rest) (c :: plain)

theorem closesTag_iff : closesTag t ↔ ∃ inner rest, inner ≠ [] ∧ '>' ∉ inner ∧
    t = inner ++ '>' :: rest := by
  cases t with
  | nil => simp [closesTag]
  | cons c t =>
    rw [closesTag, Bool.and_eq_true, decide_eq_true_eq, List.elem_iff]
    constructor
    · rintro ⟨hc, hmem⟩
      obtain ⟨inner, rest, rfl, hinner⟩ := List.eq_append_cons_of_mem hmem
      exact ⟨c :: inner, rest, List.cons_ne_nil c inner, by simp [Ne.symm hc, hinner], rfl⟩
    · rintro ⟨inner, rest, hne, hinner, heq⟩
      obtain ⟨d, inner, rfl⟩ := List.exists_cons_of_ne_nil hne
      obtain ⟨rfl, rfl⟩ := List.cons.inj heq
      exact ⟨fun hc => hinner (hc ▸ List.mem_cons_self), by simp⟩

theorem opensTag_cons_iff : OpensTag (c :: rest) ↔ c = '<' ∧ closesTag rest := by
  rw [closesTag_iff]
  constructor
  · rintro ⟨inner, behind, hne, hinner, heq⟩
    obtain ⟨rfl, rfl⟩ := List.cons.inj heq
    exact ⟨rfl, inner, behind, hne, hinner, rfl⟩
  · rintro ⟨rfl, inner, behind, hne, hinner, rfl⟩
    exact ⟨inner, behind, hne, hinner, rfl⟩

/-- Within a tag everything goes up to its end. -/
theorem dropTagsFrom_inner (hinner : '>' ∉ inner) (rest : Text) :
    dropTagsFrom true (inner ++ '>' :: rest) = dropTags rest := by
  induction inner with
  | nil => rfl
  | cons c inner ih =>
    obtain ⟨hc, hinner⟩ := not_or.mp (List.mem_cons.not.mp hinner)
    rw [List.cons_append, dropTagsFrom, decide_eq_true (Ne.symm hc), ih hinner]

theorem dropTags_tag (hne : inner ≠ []) (hinner : '>' ∉ inner) (rest : Text) :
    dropTags ('<' :: (inner ++ '>' :: rest)) = dropTags rest := by
  have hcloses : closesTag (inner ++ '>' :: rest) := closesTag_iff.mpr ⟨_, _, hne, hinner, rfl⟩
  rw [dropTags, dropTagsFrom, if_pos (by simp [hcloses]), dropTagsFrom_inner hinner]

theorem dropTags_char (hc : ¬ OpensTag (c :: rest)) :
    dropTags (c :: rest) = c :: dropTags rest := by
  rw [opensTag_cons_iff] at hc
  rw [dropTags, dropTagsFrom, if_neg (by simpa using hc), dropTags]

/-- **Each text has one text without tags.** -/
theorem untagged_iff : Untagged t plain ↔ plain = dropTags t := by
  constructor
  · intro h
    induction h with
    | nil => rfl
    | tag hne hinner _ ih => rw [dropTags_tag hne hinner, ih]
    | char hc _ ih => rw [dropTags_char hc, ih]
  · rintro rfl
    -- a tag is dropped in one step, so the induction is on the length
    induction hlength : t.length using Nat.strong_induction_on generalizing t with
    | _ n ih =>
    cases t with
    | nil => exact .nil
    | cons c rest =>
      by_cases hc : OpensTag (c :: rest)
      · obtain ⟨inner, behind, hne, hinner, heq⟩ := hc
        have hshorter : behind.length < n := by
          rw [← hlength, heq, List.length_cons, List.length_append, List.length_cons]
          omega
        rw [heq, dropTags_tag hne hinner]
        exact .tag hne hinner (ih _ hshorter rfl)
      · rw [dropTags_char hc]
        exact .char hc (ih _ (hlength ▸ Nat.lt_succ_self _) rfl)

namespace Heading

/-! ### The words of an identifier -/

/-- The characters that the words of an identifier are looked for in: those of the text in lower
case that belong to words, blanks and dashes. -/
def kept (plain : Text) : Text :=
  (Text.lower plain).filter fun c => isWordChar c || isBlank c || c == '-'

/-- Among the characters that are kept, those between words are the blanks and dashes. -/
theorem isWordChar_of_isKept (h : isKept c) : isWordChar c = !(c == '-' || isBlank c) := by
  cases hblank : isBlank c with
  | true => rw [isWordChar_of_isBlank hblank, Bool.or_true, Bool.not_true]
  | false =>
    by_cases hdash : c = '-'
    · rw [hdash]
      decide
    · have hword : isWordChar c := by simpa [isKept, hblank, hdash] using h
      simp [hword, hdash]

/-- Blanks at the ends of a text are between no two words. -/
theorem runs_filter_strip (t : Text) :
    Text.runs isWordChar ((Text.strip t).filter isKept) =
      Text.runs isWordChar (t.filter isKept) := by
  obtain ⟨behind, hbehind, hblanks⟩ := Text.exists_trimEnd_append isBlank (Text.trimStart isBlank t)
  have ht : t = t.takeWhile isBlank ++ (Text.strip t ++ behind) := by
    rw [Text.strip, Text.trim, ← hbehind, Text.trimStart, List.takeWhile_append_dropWhile]
  have hnone {u : Text} (hu : ∀ c ∈ u, isBlank c) : ∀ c ∈ u.filter isKept, isWordChar c = false :=
    fun c hc => isWordChar_of_isBlank (hu c (List.mem_filter.mp hc).1)
  conv_rhs => rw [ht]
  rw [List.filter_append, List.filter_append,
    Text.runs_append_left (hnone fun c hc => List.mem_takeWhile_imp hc),
    Text.runs_append_right (hnone hblanks)]

/-- **The identifier of a heading** consists of the words of the text without tags. -/
theorem identifier_eq (heading : Text) :
    identifier heading = Text.join "-" (Text.runs isWordChar (kept (dropTags heading))) := by
  have hruns (u : Text) : Text.runs (fun c => !(c == '-' || isBlank c)) (u.filter isKept) =
      Text.runs isWordChar (u.filter isKept) :=
    Text.runs_congr fun c hc => (isWordChar_of_isKept (List.mem_filter.mp hc).2).symm
  rw [identifier, Text.trim_mark_squeeze (by decide), hruns, runs_filter_strip]
  rfl

theorem escapeQuoted_of_words (h : ∀ c ∈ t, isWordChar c ∨ c = '-') :
    Reference.escapeQuoted t = t := by
  have hself : ∀ c ∈ t, (if c = '"' then "&quot;".toList else Reference.escapeChar c) = [c] := by
    intro c hc
    have hmarkup : ['"', '&', '<', '>'].filter (fun d => isWordChar d || d == '-') = [] := by
      decide +kernel
    have hne : ∀ d ∈ ['"', '&', '<', '>'], c ≠ d := by
      rintro d hd rfl
      exact List.filter_eq_nil_iff.mp hmarkup c hd (by simpa using h c hc)
    simp [Reference.escapeChar, hne]
  rw [Reference.escapeQuoted, List.map_congr_left hself]
  exact List.flatMap_singleton' t

/-- **Identifiers keep the words of headings.** The identifier consists of the words that are looked
for in the one text without tags, with single dashes between them and none at the ends. All its
characters may stand in an attribute as they are, and those of the words are kept in order. -/
theorem identifier_keeps_words (heading : Text) :
    ∃ plain, (∀ t, Untagged heading t ↔ t = plain) ∧
      identifier heading = Text.join "-" (Text.runs isWordChar (kept plain)) ∧
      (∀ c ∈ identifier heading, isWordChar c ∨ c = '-') ∧
      Reference.escapeQuoted (identifier heading) = identifier heading ∧
      Text.IsSpaced '-' (identifier heading) ∧
      (identifier heading).filter isWordChar = (kept plain).filter isWordChar := by
  have hword : ∀ w ∈ Text.runs isWordChar (kept (dropTags heading)), w ≠ [] ∧ '-' ∉ w :=
    fun w hw => ⟨Text.ne_nil_of_mem_runs hw, fun hdash =>
      absurd (Text.of_mem_of_mem_runs hw hdash) (by decide)⟩
  have hchars : ∀ c ∈ identifier heading, isWordChar c ∨ c = '-' := fun c hc => by
    rw [identifier_eq] at hc
    rcases Text.mem_join hc with hdash | ⟨w, hw, hmem⟩
    · exact .inr (List.mem_singleton.mp hdash)
    · exact .inl (Text.of_mem_of_mem_runs hw hmem)
  refine ⟨dropTags heading, fun _ => untagged_iff, identifier_eq heading, hchars,
    escapeQuoted_of_words hchars, ?_, ?_⟩
  · rw [identifier_eq]
    exact Text.isSpaced_join hword
  · rw [identifier_eq, Text.filter_join (by decide), Text.flatten_runs, List.filter_filter]
    simp

/-- A tag that holds a mark, a mark without an end, and dots and dashes. -/
example : identifier "a<b<c>d - e.f < g--" = "ad-ef-g" := by decide +kernel

end Heading

end Pageloom
