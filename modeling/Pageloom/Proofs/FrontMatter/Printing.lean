import Mathlib.Tactic.MkIffOfInductiveProp
import Pageloom.Proofs.FrontMatter.Header

/-!
# Front matter as it is written

A header can be written down: one line for each entry, with a colon and a space between name and
value, between two lines of dashes. What is written comes back, names and values in their order and
the body to the letter.

Little is asked of names and values. A name may look like a delimiter and a value like a comment or
another entry; no line of an entry is taken for anything else, since its first colon stands behind
the name. Nothing at all is asked of the body, which may open with a header of its own.

## Main definitions

* `FrontMatter.print`: the text with the given entries and body.
* `FrontMatter.IsName`, `FrontMatter.IsLiteral`: the names and values that can be written so.
* `FrontMatter.IsWritten`: what is written for a text.

## Main results

* `FrontMatter.split_printWith`: texts come back, if what is written stands for them.
* `FrontMatter.split_print`: what is written comes back.
-/

namespace Pageloom.FrontMatter

variable {line name value : Text} {lines : List Text} {es : Entries}

/-- The line of an entry. -/
def entryLine (name value : Text) : Text := name ++ ": " ++ value

/-- The text of some lines, each with its end. -/
def printLines (lines : List Text) : Text := lines.flatMap (· ++ "\n")

/-- The text with the given entries in its header, and the given body. -/
def print (es : Entries) (body : Text) : Text :=
  printLines ("---".toList :: (es.map fun e => entryLine e.1 e.2) ++ ["---".toList]) ++ body

/-- What may stand before the colon of an entry. -/
@[mk_iff]
structure IsName (name : Text) : Prop where
  ne_nil : name ≠ []
  trimmed : Text.strip name = name
  colon : ':' ∉ name
  lineFeed : '\n' ∉ name
  comment : name.head? ≠ some '#'

/-- A value that is taken to the letter. -/
@[mk_iff]
structure IsLiteral (value : Text) : Prop where
  trimmed : Text.strip value = value
  lineFeed : '\n' ∉ value
  letter : ¬ IsWrapped value

/-- What is written for a text: a value that stands on one line and means the text. -/
structure IsWritten [Yaml.Loader] (value text : Text) : Prop where
  trimmed : Text.strip value = value
  lineFeed : '\n' ∉ value
  means : Means value text

/-- A value that is taken to the letter is written for itself. -/
theorem IsLiteral.isWritten [Yaml.Loader] (h : IsLiteral value) : IsWritten value value :=
  ⟨h.trimmed, h.lineFeed, .letter h.letter⟩

instance (value : Text) : Decidable (IsWrapped value) := decidable_of_iff _ isQuoted_iff

instance (name : Text) : Decidable (IsName name) := decidable_of_iff _ (isName_iff name).symm

instance (value : Text) : Decidable (IsLiteral value) :=
  decidable_of_iff _ (isLiteral_iff value).symm

/-! ### Lines -/

theorem lines_printLines_append (h : ∀ line ∈ lines, '\n' ∉ line) (rest : Text) :
    Text.lines (printLines lines ++ rest) = lines ++ Text.lines rest := by
  induction lines with
  | nil => rfl
  | cons line lines ih =>
    obtain ⟨hline, hlines⟩ := List.forall_mem_cons.mp h
    have htext : printLines (line :: lines) ++ rest =
        line ++ '\n' :: (printLines lines ++ rest) := by
      simp [printLines]
    rw [htext, Text.lines, Text.split_append_cons hline, ← Text.lines, ih hlines, List.cons_append]

theorem lines_print (h : ∀ e ∈ es, '\n' ∉ e.1 ∧ '\n' ∉ e.2) (body : Text) :
    Text.lines (print es body) =
      "---".toList :: ((es.map fun e => entryLine e.1 e.2) ++ "---".toList :: Text.lines body) := by
  have hentries : ∀ line ∈ es.map fun e => entryLine e.1 e.2, '\n' ∉ line := by
    rintro _ hline
    obtain ⟨e, he, rfl⟩ := List.mem_map.mp hline
    obtain ⟨hname, hvalue⟩ := h e he
    simp [entryLine, hname, hvalue]
  have hdashes : '\n' ∉ "---".toList := by decide
  have hall : ∀ line ∈ "---".toList :: (es.map fun e => entryLine e.1 e.2) ++ ["---".toList],
      '\n' ∉ line := by
    rw [List.forall_mem_append, List.forall_mem_cons, List.forall_mem_singleton]
    exact ⟨⟨hdashes, hentries⟩, hdashes⟩
  rw [print, lines_printLines_append hall, List.append_assoc]
  rfl

/-! ### The line of an entry -/

/-- A name begins with a character that is no blank and does not make the line a comment. -/
theorem IsName.exists_head (h : IsName name) :
    ∃ c rest, name = c :: rest ∧ isBlank c = false ∧ c ≠ '#' := by
  obtain ⟨c, rest, rfl⟩ := List.exists_cons_of_ne_nil h.ne_nil
  have hblank : isBlank c = false := Text.head?_trim (t := c :: rest) (by
    rw [show Text.trim isBlank (c :: rest) = _ from h.trimmed]; rfl)
  exact ⟨c, rest, rfl, hblank, fun hc => h.comment (by rw [hc]; rfl)⟩

theorem stripEnd_entryLine (name value : Text) :
    Text.stripEnd (entryLine name value) = name ++ ':' :: Text.stripEnd (' ' :: value) := by
  have hline : entryLine name value = name ++ ':' :: ' ' :: value := by simp [entryLine]
  rw [hline]
  exact Text.trimEnd_append_cons (by decide) name (' ' :: value)

theorem strip_entryLine (h : IsName name) (value : Text) :
    Text.strip (entryLine name value) = name ++ ':' :: Text.stripEnd (' ' :: value) := by
  obtain ⟨c, rest, rfl, hblank, -⟩ := h.exists_head
  rw [← stripEnd_entryLine]
  exact Text.trim_of_head? rfl hblank

/-- The colon of an entry keeps its line from being a delimiter. -/
theorem isDelimiter_entryLine (name value : Text) : isDelimiter (entryLine name value) = false := by
  rw [isDelimiter, stripEnd_entryLine, decide_eq_false_iff_not]
  intro h
  have hcolon : ':' ∈ "---".toList := h ▸ List.mem_append_right name List.mem_cons_self
  exact absurd hcolon (by decide)

theorem not_isSilent_entryLine (h : IsName name) (value : Text) :
    ¬ IsSilent (entryLine name value) := by
  obtain ⟨c, rest, rfl, -, hcomment⟩ := h.exists_head
  rw [IsSilent, strip_entryLine h]
  simp [hcomment]

theorem spells_entryLine (h : IsName name) (hvalue : Text.strip value = value) :
    Spells (entryLine name value) name value := by
  have hbehind : Text.strip (Text.stripEnd (' ' :: value)) = value :=
    calc Text.strip (Text.stripEnd (' ' :: value)) = Text.strip (' ' :: value) :=
          Text.trim_trimEnd isBlank _
      _ = Text.strip value := Text.trim_cons_of_pos (by decide) value
      _ = value := hvalue
  exact ⟨name, _, strip_entryLine h value, h.ne_nil, h.colon, h.trimmed.symm, hbehind.symm⟩

section

variable [Yaml.Loader]

/-- The lines of entries spell these entries, if each value stands for the text of its entry. -/
theorem reads_entryLines {written : Text → Text}
    (h : ∀ e ∈ es, IsName e.1 ∧ IsWritten (written e.2) e.2) :
    Reads (es.map fun e => entryLine e.1 (written e.2)) es := by
  induction es with
  | nil => exact .nil
  | cons e es ih =>
    obtain ⟨⟨hname, hvalue⟩, hes⟩ := List.forall_mem_cons.mp h
    exact .entry (not_isSilent_entryLine hname _) (spells_entryLine hname hvalue.trimmed)
      hvalue.means (ih hes)

/-! ### The text -/

/-- Entries with names of their own come back, if what is written for a text stands for it. -/
theorem split_printWith (written : Text → Text) (hnames : es.names.Nodup)
    (h : ∀ e ∈ es, IsName e.1 ∧ IsWritten (written e.2) e.2) (body : Text) :
    split (print (es.map fun e => (e.1, written e.2)) body) = .ok (es, body) := by
  have hfeeds : ∀ e ∈ es.map fun e => (e.1, written e.2), '\n' ∉ e.1 ∧ '\n' ∉ e.2 := by
    rintro _ hmem
    obtain ⟨e, he, rfl⟩ := List.mem_map.mp hmem
    exact ⟨(h e he).1.lineFeed, (h e he).2.lineFeed⟩
  have hlines := lines_print hfeeds body
  rw [List.map_map] at hlines
  have hhead : ∀ l ∈ es.map fun e => entryLine e.1 (written e.2), isDelimiter l = false := by
    rintro _ hline
    obtain ⟨e, -, rfl⟩ := List.mem_map.mp hline
    exact isDelimiter_entryLine e.1 (written e.2)
  exact (split_eq_ok_iff hlines (by decide)).mpr
    ⟨_, _, _, es, ⟨rfl, hhead, by decide⟩, reads_entryLines h,
      (Entries.ofPairs_of_nodup hnames).symm, (Text.join_split '\n' body).symm⟩

/-- **What is written comes back.** Whatever the body is, a text that is written from entries with
names of their own is split into these entries, in their order, and this body. -/
theorem split_print (hnames : es.names.Nodup) (h : ∀ e ∈ es, IsName e.1 ∧ IsLiteral e.2)
    (body : Text) : split (print es body) = .ok (es, body) := by
  have hback := split_printWith id hnames
    (fun e he => ⟨(h e he).1, (h e he).2.isWritten⟩) body
  rwa [show (es.map fun e => (e.1, id e.2)) = es from List.map_id es] at hback

end

/-- Names and values that could be taken for something else, before a body with a header of its
own. -/
theorem split_print_lookalikes :
    let es : Entries := [("---", "x: #1"), ("a\rb", ""), ("\"q\"", "'it's"), ("- k", "---")]
    let body : Text := "---\nk: v\n---\n\n---\r\n"
    (es.names.Nodup ∧ ∀ e ∈ es, IsName e.1 ∧ IsLiteral e.2) ∧
      split (print es body) = .ok (es, body) := by
  intro es body
  have hnames : es.names.Nodup := by decide
  have h : ∀ e ∈ es, IsName e.1 ∧ IsLiteral e.2 := by decide
  exact ⟨⟨hnames, h⟩, split_print hnames h body⟩

end Pageloom.FrontMatter
