import Pageloom.Proofs.FrontMatter.Outcome
import Pageloom.Proofs.FrontMatter.Printing
import Pageloom.Proofs.Yaml.Quoted

/-!
# Values between quotes

Every text that stands on one line can be a value: between single quotes, with the quotes in it
doubled, it comes back to the letter.

The other way round it takes more than quotes at both ends to make a value one scalar. The quote at
the start may be closed before the end, and then all of the value is read like any other document,
and the text of whatever the loader makes of it is stored. So a value is stored as the one scalar
that it is, or refused for its form, exactly if it is one scalar or its form is wrong.

By the rules of this library what is stored is the scalar that the value opens with, if only
comments or marks of the document's end follow it. Otherwise the scalar is a key of a mapping, and
what is stored is the mapping as it is printed.

## Main definitions

* `FrontMatter.HasEntry`: an entry in the header of a text, behind lines that can all be read.
* `FrontMatter.splitWith`: what comes of a text whose entry has the given text.
* `FrontMatter.Stored`: what may be stored for a value between quotes, by the rules of this library.

## Main results

* `FrontMatter.split_quoted_value`: a value between single quotes comes back.
* `FrontMatter.split_of_isWrapped`: what comes of a value between quotes, and when it is one scalar.
-/

namespace Pageloom.FrontMatter

open Yaml (Loader)

variable {t name value text : Text} {number : ℕ} {pairs : List (Text × Text)} {behind : List Text}
  {fault : Fault}

/-! ### Texts between single quotes -/

/-- What stands between quotes is trimmed, whatever it is. -/
theorem IsWrapped.strip_eq (h : IsWrapped value) : Text.strip value = value := by
  obtain ⟨q, inner, hq, rfl⟩ := h
  have hblank : isBlank q = false := by rcases hq with rfl | rfl <;> decide
  rw [Text.strip, Text.trim_of_head? rfl hblank, ← List.cons_append,
    Text.trimEnd_append_cons hblank]
  rfl

theorem isWrapped_singleQuoted (text : Text) : IsWrapped (Yaml.singleQuoted text) :=
  ⟨'\'', Yaml.doubled text, .inr rfl, rfl⟩

/-- A text on one line is written between single quotes. -/
theorem isWritten_singleQuoted (h : ∀ c ∈ text, Yaml.isAllowed c ∧ Yaml.isBreak c = false) :
    IsWritten (Yaml.singleQuoted text) text := by
  have hw := isWrapped_singleQuoted text
  have hload := Yaml.load_singleQuoted (fun c hc => (h c hc).1) fun c hc => (h c hc).2
  refine ⟨hw.strip_eq, fun hmem => ?_, .document hw hload rfl⟩
  rcases Yaml.mem_singleQuoted.mp hmem with hc | hc
  · cases hc
  · cases (h _ hc).2

/-- **Values between single quotes come back.** A text on one line, with each quote in it doubled
and between quotes, is the only entry of a header with it, and the body is what follows. -/
theorem split_quoted_value (hname : IsName name)
    (h : ∀ c ∈ text, Yaml.isAllowed c ∧ Yaml.isBreak c = false) (body : Text) :
    split ("---\n" ++ name ++ ": '" ++ Yaml.doubled text ++ "'\n---\n" ++ body) =
      .ok ([(name, text)], body) := by
  have hnames : (Entries.names [(name, text)]).Nodup := by simp [Entries.names]
  have hback := split_printWith Yaml.singleQuoted hnames
    (List.forall_mem_singleton.mpr ⟨hname, isWritten_singleQuoted h⟩) body
  have hprint : print [(name, Yaml.singleQuoted text)] body =
      "---\n" ++ name ++ ": '" ++ Yaml.doubled text ++ "'\n---\n" ++ body := by
    simp [print, printLines, entryLine, Yaml.singleQuoted]
  rwa [List.map_singleton, hprint] at hback

/-- Blanks at both ends, quotes of both kinds, and what would have a meaning elsewhere. -/
theorem split_quoted_value_lookalikes :
    let text : Text := " \t'' \"#: \\n --- \x7b'\t "
    (IsName "k" ∧ ∀ c ∈ text, Yaml.isAllowed c ∧ Yaml.isBreak c = false) ∧
      split ("---\n" ++ "k" ++ ": '" ++ Yaml.doubled text ++ "'\n---\n" ++ "---\n") =
        .ok ([("k", text)], "---\n") := by
  intro text
  have hname : IsName "k" := by decide
  have hall : text.all fun c => Yaml.isAllowed c && !Yaml.isBreak c := by decide
  have h : ∀ c ∈ text, Yaml.isAllowed c ∧ Yaml.isBreak c = false := by simpa using hall
  exact ⟨⟨hname, h⟩, split_quoted_value hname h "---\n"⟩

/-! ### What is stored -/

/-- What may be stored for a value between quotes: the scalar that it opens with, if nothing follows
it that counts, or a mapping with this scalar for a key, as it is printed. -/
inductive Stored (value : Text) : Text → Prop where
  | scalar {u rest : Text} (h : Yaml.Opens value u rest) (hrest : rest = [] ∨ Yaml.IsAlone value) :
      Stored value u
  | mapping {u rest : Text} {es : List (Value × Value)} {x : Value} (h : Yaml.Opens value u rest)
      (hrest : rest ≠ []) (hload : Yaml.load value = .ok (.map es)) (hkey : (.text u, x) ∈ es) :
      Stored value (Value.map es).quoted

section

variable [Loader]

/-- What a value between quotes means is what may be stored for it, if the loader keeps to the
rules. -/
theorem Means.stored (h : Means value text) (hw : IsWrapped value)
    (hrules : Loader.load value = Yaml.load value) : Stored value text := by
  cases h with
  | letter h => exact absurd hw h
  | @document v _ hload hwrite =>
    rw [hrules] at hload
    have hends : ∃ u rest, Yaml.Opens value u rest ∧ Yaml.Leading value u v := by
      obtain ⟨q, inner, hq, rfl⟩ := hw
      have hends := Yaml.ends_load_of_quote hq (inner ++ [q])
      rwa [hload] at hends
    obtain ⟨u, rest, hopens, hleading⟩ := hends
    cases hleading with
    | scalar halone => exact .scalar hopens (.inr halone)
    | @mapping es x hmem =>
      refine .mapping hopens ?_ hload hmem
      rintro rfl
      rcases Yaml.load_eq_or_of_opens_nil hopens with h | h <;> cases hload.symm.trans h

/-! ### Headers with a value between quotes -/

/-- A line of the header of a text has the given number and spells an entry. The lines before it
spell the given pairs, and `behind` are the lines behind it. -/
def HasEntry (t : Text) (pairs : List (Text × Text)) (number : ℕ) (name value : Text)
    (behind : List Text) : Prop :=
  ∃ first head line, Text.lines t = first :: (head ++ line :: behind) ∧
    isDelimiter first = true ∧ (∀ l ∈ head, isDelimiter l = false) ∧ Reads head pairs ∧
    number = head.length + 2 ∧ isDelimiter line = false ∧ ¬ IsSilent line ∧
    Spells line name value

/-- What comes of a text with such an entry whose text is the given one. -/
def splitWith (pairs : List (Text × Text)) (number : ℕ) (name text : Text) (behind : List Text) :
    Except Fault (Entries × Text) :=
  (readFrom ((Entries.ofPairs pairs).put name text) (number + 1) behind).map fun (es, rest) =>
    (es, Text.join "\n" rest)

theorem HasEntry.split_eq (h : HasEntry t pairs number name value behind) :
    split t =
      (valueText value number).bind fun text => splitWith pairs number name text behind := by
  obtain ⟨first, head, line, hlines, hfirst, hhead, hreads, rfl, hline, hsilent, hspells⟩ := h
  rw [split_of_delimiter hlines hfirst, readFrom_append hhead hreads, Nat.add_comm 2, readFrom_cons,
    if_neg (by simp [hline]), readLine_of_spells hsilent hspells]
  cases valueText value (head.length + 2) <;> rfl

/-- What comes of such a text is what comes of its value. -/
theorem HasEntry.split_eq_of_isWrapped (h : HasEntry t pairs number name value behind)
    (hw : IsWrapped value) :
    split t =
      match Loader.load value with
      | .ok v =>
        if v.isWritable then splitWith pairs number name (documentText v) behind
        else .error (.value (.notInteger .unwritable))
      | .error .malformed => .error (.bad ⟨number, .badQuotes value⟩)
      | .error fault => .error (.value fault) := by
  rw [h.split_eq, valueText_of_isWrapped hw]
  cases Loader.load value with
  | ok v =>
    dsimp only
    split <;> rfl
  | error fault => cases fault <;> rfl

theorem HasEntry.two_le (h : HasEntry t pairs number name value behind) : 2 ≤ number := by
  obtain ⟨_, head, _, -, -, -, -, rfl, -⟩ := h
  exact Nat.le_add_left 2 _

/-- An error of such a text is at another line, if the value has a text. -/
theorem splitWith_ne_bad (hnumber : 2 ≤ number) (text : Text) (reason : Reason) :
    splitWith pairs number name text behind ≠ .error (.bad ⟨number, reason⟩) := by
  intro hbad
  rw [splitWith] at hbad
  cases hread : readFrom ((Entries.ofPairs pairs).put name text) (number + 1) behind with
  | ok r =>
    rw [hread] at hbad
    cases hbad
  | error fault =>
    rw [hread] at hbad
    cases hbad
    rcases readFrom_eq_error_iff.mp hread with ⟨head, line, rest, -, -, -, hline⟩ | ⟨-, hclose⟩
    · have hlate : number = number + 1 + head.length := (readLine_eq_bad hline).2
      omega
    · cases hclose
      contradiction

/-- The line is to blame exactly if the loader finds the form of the value wrong. -/
theorem HasEntry.split_eq_bad_iff (h : HasEntry t pairs number name value behind)
    (hw : IsWrapped value) :
    split t = .error (.bad ⟨number, .badQuotes value⟩) ↔
      Loader.load value = .error .malformed := by
  rw [h.split_eq_of_isWrapped hw]
  cases Loader.load value with
  | ok v =>
    refine iff_of_false ?_ nofun
    dsimp only
    split
    · exact splitWith_ne_bad h.two_le _ _
    · nofun
  | error fault => cases fault <;> simp

/-- The value of such a text has no form, or a defect, or a text, if the loader keeps to the
rules. -/
theorem HasEntry.split_cases (h : HasEntry t pairs number name value behind) (hw : IsWrapped value)
    (hrules : Loader.load value = Yaml.load value) :
    split t = .error (.bad ⟨number, .badQuotes value⟩) ∨
      (∃ fault, split t = .error (.value fault) ∧ Defect value fault) ∨
      ∃ text, split t = splitWith pairs number name text behind ∧ Stored value text := by
  have hsplit := h.split_eq_of_isWrapped hw
  cases hload : Loader.load value with
  | ok v =>
    rw [hload] at hsplit
    by_cases hwrite : v.isWritable
    · have hmeans : Means value (documentText v) := .document hw hload hwrite
      exact .inr (.inr ⟨documentText v, by simpa [hwrite] using hsplit, hmeans.stored hw hrules⟩)
    · exact .inr (.inl ⟨_, by simpa [hwrite] using hsplit,
        .number (hrules.symm.trans hload) (Bool.not_eq_true _ ▸ hwrite)⟩)
  | error fault =>
    by_cases hform : fault = .malformed
    · exact .inl ((h.split_eq_bad_iff hw).mpr (by rw [hload, hform]))
    · refine .inr (.inl ⟨fault, ?_, .unfit (Yaml.unfit_of_load (hrules.symm.trans hload) hform)⟩)
      rw [hsplit, hload]
      cases fault <;> first | rfl | contradiction

/-- **What comes of a value between quotes.** The line is to blame if the loader finds the form of
the value wrong; any other fault of the loader comes out, and so does the one of what it gives but
cannot be written; and otherwise the text of what the loader gives is stored.

So if the loader reads the value as its text when it is one scalar between quotes, then the line is
to blame, or the text of the one scalar that makes up the value is stored, exactly if the value is
such a scalar or its form is wrong. By the rules of this library what is stored is the scalar that
the value opens with, or the mapping that it opens. -/
theorem split_of_isWrapped (h : HasEntry t pairs number name value behind)
    (hw : IsWrapped value) :
    (split t =
      match Loader.load value with
      | .ok v =>
        if v.isWritable then splitWith pairs number name (documentText v) behind
        else .error (.value (.notInteger .unwritable))
      | .error .malformed => .error (.bad ⟨number, .badQuotes value⟩)
      | .error fault => .error (.value fault)) ∧
    (Yaml.ReadsQuoted value →
      (split t = .error (.bad ⟨number, .badQuotes value⟩) ∨
          (∃ text, split t = splitWith pairs number name text behind ∧ Yaml.Opens value text []) ↔
        (∃ text, Yaml.Opens value text []) ∨ Loader.load value = .error .malformed)) ∧
    (Loader.load value = Yaml.load value →
      split t = .error (.bad ⟨number, .badQuotes value⟩) ∨
        (∃ fault, split t = .error (.value fault) ∧ Defect value fault) ∨
        ∃ text, split t = splitWith pairs number name text behind ∧ Stored value text) := by
  have hbad := h.split_eq_bad_iff hw
  refine ⟨h.split_eq_of_isWrapped hw, fun hquoted => ⟨?_, ?_⟩, h.split_cases hw⟩
  · rintro (hform | ⟨text, -, hopens⟩)
    · exact .inr (hbad.mp hform)
    · exact .inl ⟨text, hopens⟩
  · rintro (⟨text, hopens⟩ | hform)
    · rcases hquoted text hopens with hload | hload
      · have hsplit := h.split_eq_of_isWrapped hw
        rw [hload] at hsplit
        exact .inr ⟨text, hsplit, hopens⟩
      · exact .inl (hbad.mpr hload)
    · exact .inl (hbad.mpr hform)

end

/-- The quote that the value opens with is closed at once, and the value is printed as a mapping. -/
theorem split_of_isWrapped_of_mapping :
    let t : Text := "---\nk: \"a\": \"b\"\n---\nbody"
    let value : Text := "\"a\": \"b\""
    (HasEntry t [] 2 "k" value ["---", "body"] ∧ IsWrapped value ∧ Yaml.ReadsQuoted value) ∧
      (¬ (split t = .error (.bad ⟨2, .badQuotes value⟩) ∨
        ∃ text, split t = splitWith [] 2 "k" text ["---", "body"] ∧ Yaml.Opens value text []) ∧
        split t = .ok ([("k", "\x7b'a': 'b'\x7d")], "body")) := by
  intro t value
  have hname : IsName "k" := by decide
  have hw : IsWrapped value := by decide
  have hentry : HasEntry t [] 2 "k" value ["---", "body"] :=
    ⟨"---", [], entryLine "k" value, by decide, by decide, nofun, .nil, rfl,
      isDelimiter_entryLine "k" value, not_isSilent_entryLine hname value,
      spells_entryLine hname hw.strip_eq⟩
  have hopens : Yaml.Opens value "a" ": \"b\"" := ⟨'"', _, .inl rfl, rfl, rfl, rfl⟩
  have hsplit : split t = .ok ([("k", "\x7b'a': 'b'\x7d")], "body") := by decide +kernel
  have hquoted := Yaml.readsQuoted value
  obtain ⟨-, hright, -⟩ := split_of_isWrapped hentry hw
  refine ⟨⟨hentry, hw, hquoted⟩, fun hone => ?_, hsplit⟩
  rcases (hright hquoted).mp hone with ⟨text, hone⟩ | hform
  · cases (hopens.unique hone).2
  · -- a value whose form is wrong is refused
    cases hsplit.symm.trans ((hentry.split_eq_bad_iff hw).mpr hform)

end Pageloom.FrontMatter
