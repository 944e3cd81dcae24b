import Pageloom.FrontMatter
import Pageloom.Proofs.Text.Parts

/-!
# The lines of a header

What each line of a header may be, said without the reader: a line holds nothing, or it spells an
entry, whose value has a text or has none. The reader of a line is shown to tell these cases apart.

A value between quotes has a text if it is read as a document and what it stands for can be written.
The two conditions differ: a document can hold a number in base sixteen that is far too long for
decimal digits. `IsReadable` asks for the first alone, `HasText` for both. All this is said of any
loader: what a document between quotes stands for is what the loader makes of it.

## Main definitions

* `FrontMatter.IsSilent`, `FrontMatter.Spells`: the lines that hold nothing, and those that spell a
  name and a value.
* `FrontMatter.IsWrapped`, `FrontMatter.Means`: the values between quotes, and the text of a value.
* `FrontMatter.IsReadable`, `FrontMatter.HasText`: the values that are no document in quotes or one
  that can be read, and those that have a text as well.
* `FrontMatter.IsEntryLine`: a line that holds nothing, or an entry whose value is of a class.
* `FrontMatter.LacksText`: a line whose value is well formed and has no text.
* `FrontMatter.readLine`: what one line of a header comes to.

## Main results

* `FrontMatter.readLine_eq_none_iff`, `FrontMatter.readLine_eq_some_iff`: what lines are read as.
* `FrontMatter.exists_readLine_eq_ok_iff`, `FrontMatter.readLine_eq_bad`,
  `FrontMatter.readLine_eq_value_iff`: which lines can be read, and how the others fail.
-/

namespace Pageloom.FrontMatter

open Yaml (Loader)

variable {line name value text : Text} {number : ℕ}

/-! ### Values between quotes -/

/-- The value stands between two equal quotes. -/
def IsWrapped (value : Text) : Prop :=
  ∃ q inner, (q = '"' ∨ q = '\'') ∧ value = q :: (inner ++ [q])

/-- The text of what a document stands for, which is empty for an empty document. -/
def documentText : Value → Text
  | .null => []
  | v => v.toText

theorem isQuoted_iff : isQuoted value ↔ IsWrapped value := by
  rcases value with _ | ⟨q, _ | ⟨c, rest⟩⟩
  · simp [isQuoted, IsWrapped]
  · simp [isQuoted, IsWrapped]
  · constructor
    · intro h
      simp only [isQuoted, Bool.and_eq_true, Bool.or_eq_true, decide_eq_true_eq] at h
      obtain ⟨hq, hlast⟩ := h
      obtain ⟨inner, hinner⟩ := List.getLast?_eq_some_iff.mp hlast
      cases inner with
      | nil => simp at hinner
      | cons d inner =>
        obtain ⟨rfl, hrest⟩ := List.cons.inj hinner
        exact ⟨q, inner, hq, by rw [hrest]; rfl⟩
    · rintro ⟨q', inner, hq, hvalue⟩
      obtain ⟨rfl, hrest⟩ := List.cons.inj hvalue
      have hlast : (q :: c :: rest).getLast? = some q :=
        List.getLast?_eq_some_iff.mpr ⟨q :: inner, by rw [hrest, List.cons_append]⟩
      simp [isQuoted, hq, hlast]

/-! ### Lines -/

/-- Blanks aside, the line is empty or a comment. -/
def IsSilent (line : Text) : Prop := Text.strip line = [] ∨ ∃ rest, Text.strip line = '#' :: rest

/-- Blanks aside, the line has its first colon behind at least one character. The name stands before
this colon and the value behind it. -/
def Spells (line name value : Text) : Prop :=
  ∃ before behind, Text.strip line = before ++ ':' :: behind ∧ before ≠ [] ∧ ':' ∉ before ∧
    name = Text.strip before ∧ value = Text.strip behind

/-- The line holds nothing, or it spells an entry with a value of the class. -/
def IsEntryLine (P : Text → Prop) (line : Text) : Prop :=
  IsSilent line ∨ ∃ name value, Spells line name value ∧ P value

theorem IsEntryLine.mono {P Q : Text → Prop} (h : IsEntryLine P line) (hPQ : ∀ v, P v → Q v) :
    IsEntryLine Q line :=
  h.imp_right fun ⟨name, value, hspells, hP⟩ => ⟨name, value, hspells, hPQ value hP⟩

/-- A line spells at most one name and value. -/
theorem Spells.unique {name' value' : Text} (h : Spells line name value)
    (h' : Spells line name' value') : name = name' ∧ value = value' := by
  obtain ⟨before, behind, hline, -, hcolon, rfl, rfl⟩ := h
  obtain ⟨before', behind', hline', -, hcolon', rfl, rfl⟩ := h'
  have hcut : ∀ b a : Text, Text.strip line = b ++ ':' :: a → ':' ∉ b →
      Text.cutWhere? (· = ':') (Text.strip line) = some (b, ':', a) := fun b a hba hb =>
    Text.cutWhere?_eq_some_iff.mpr
      ⟨hba, by simp, fun d hd => decide_eq_false (ne_of_mem_of_not_mem hd hb)⟩
  have heq := (hcut _ _ hline hcolon).symm.trans (hcut _ _ hline' hcolon')
  simp only [Option.some.injEq, Prod.mk.injEq, true_and] at heq
  rw [heq.1, heq.2]
  exact ⟨rfl, rfl⟩

theorem lineOfText_of_isSilent (h : IsSilent line) : Line.ofText line = .nothing := by
  rw [Line.ofText, if_pos]
  obtain h | ⟨rest, h⟩ := h <;> simp [h]

/-- The three kinds of a line that does not hold nothing: without a colon, with its first colon at
the start, or with a name before it. -/
theorem lineOfText_of_not_isSilent (h : ¬ IsSilent line) :
    (∃ name value, Spells line name value ∧ Line.ofText line = .entry name value) ∨
      ((∀ name value, ¬ Spells line name value) ∧
        Line.ofText line = .unknown (Text.strip line)) := by
  obtain ⟨hempty, hcomment⟩ := not_or.mp h
  have hkind : ¬ (Text.strip line = [] || (Text.strip line).head? = some '#') = true := by
    simpa [hempty, List.head?_eq_some_iff] using hcomment
  rw [Line.ofText, if_neg hkind]
  rcases hcut : Text.cutWhere? (· = ':') (Text.strip line) with _ | ⟨before, c, behind⟩
  · refine .inr ⟨?_, rfl⟩
    rintro name value ⟨before, behind, hline, -⟩
    have := Text.cutWhere?_eq_none_iff.mp hcut ':' (by simp [hline])
    simp at this
  · obtain ⟨hline, hc, hcolon⟩ := Text.cutWhere?_eq_some_iff.mp hcut
    obtain rfl : c = ':' := of_decide_eq_true hc
    have hcolon : ':' ∉ before := fun hmem => by simpa using hcolon ':' hmem
    cases before with
    | nil =>
      refine .inr ⟨?_, by simp⟩
      rintro name value ⟨before', behind', hline', hne, hcolon', -⟩
      cases before' with
      | nil => exact hne rfl
      | cons d before' =>
        obtain rfl : ':' = d := (List.cons.inj (hline.symm.trans hline')).1
        exact hcolon' List.mem_cons_self
    | cons d before =>
      -- the line is trimmed, so no blank stands before the name
      have hd : isBlank d = false := Text.head?_trim (t := line) (by
        rw [show Text.trim isBlank line = _ from hline]; rfl)
      have hname : Text.strip (d :: before) = Text.stripEnd (d :: before) :=
        Text.trim_of_head? rfl hd
      refine .inl ⟨_, _, ⟨_, _, hline, List.cons_ne_nil _ _, hcolon, rfl, rfl⟩, ?_⟩
      simp [hname]

/-! ### The text of a value -/

variable [Loader]

/-- The text of a value: the value itself, or what the document between its quotes stands for. -/
inductive Means : (value text : Text) → Prop where
  | letter {value : Text} (h : ¬ IsWrapped value) : Means value value
  | document {value : Text} {v : Value} (h : IsWrapped value) (hload : Loader.load value = .ok v)
      (hwrite : v.isWritable) : Means value (documentText v)

/-- A value between quotes can be read as a document. -/
def IsReadable (value : Text) : Prop := IsWrapped value → ∃ v, Loader.load value = .ok v

/-- A value between quotes can be read as a document, and what that stands for can be written. -/
def HasText (value : Text) : Prop :=
  IsWrapped value → ∃ v, Loader.load value = .ok v ∧ v.isWritable

theorem HasText.isReadable (h : HasText value) : IsReadable value := fun hw =>
  let ⟨v, hload, _⟩ := h hw
  ⟨v, hload⟩

theorem hasText_iff_exists_means : HasText value ↔ ∃ text, Means value text := by
  constructor
  · intro h
    by_cases hw : IsWrapped value
    · obtain ⟨v, hload, hwrite⟩ := h hw
      exact ⟨_, .document hw hload hwrite⟩
    · exact ⟨_, .letter hw⟩
  · rintro ⟨text, hmeans⟩ hw
    cases hmeans with
    | letter h => exact absurd hw h
    | document _ hload hwrite => exact ⟨_, hload, hwrite⟩

/-- What reading a value between quotes comes to. -/
theorem valueText_of_isWrapped (h : IsWrapped value) (number : ℕ) :
    valueText value number =
      match Loader.load value with
      | .ok v =>
        if v.isWritable then .ok (documentText v) else .error (.value (.notInteger .unwritable))
      | .error .malformed => .error (.bad ⟨number, .badQuotes value⟩)
      | .error fault => .error (.value fault) := by
  rw [valueText, if_pos (isQuoted_iff.mpr h)]
  cases Loader.load value with
  | error fault => cases fault <;> rfl
  | ok v =>
    cases hv : v.isWritable <;> cases v <;>
      simp_all [Value.write, Value.isWritable, documentText, Except.mapError]

theorem valueText_eq_ok_iff : valueText value number = .ok text ↔ Means value text := by
  by_cases hw : IsWrapped value
  · rw [valueText_of_isWrapped hw]
    constructor
    · intro h
      split at h
      · next v hload =>
        split at h
        · next hwrite => exact Except.ok.inj h ▸ .document hw hload hwrite
        · cases h
      · cases h
      · cases h
    · rintro (h | ⟨_, hload, hwrite⟩)
      · exact absurd hw h
      · simp [hload, hwrite]
  · have hq : isQuoted value = false := by simpa using mt isQuoted_iff.mp hw
    rw [valueText, hq]
    constructor
    · rintro ⟨⟩
      exact .letter hw
    · rintro (_ | ⟨h, _⟩)
      · rfl
      · exact absurd h hw

/-! ### Reading a line -/

/-- The line spells an entry whose value is well formed between its quotes, and what is spelled
there does not exist, or exists and cannot be written. -/
def LacksText (line : Text) (fault : Yaml.Fault) : Prop :=
  ¬ IsSilent line ∧ ∃ name value, Spells line name value ∧ IsWrapped value ∧
    (Loader.load value = .error fault ∧ fault ≠ .malformed ∨
      (∃ v, Loader.load value = .ok v ∧ v.isWritable = false) ∧ fault = .notInteger .unwritable)

/-- What one line of a header comes to: an entry, nothing, or a fault. -/
def readLine (number : ℕ) (line : Text) : Except Fault (Option (Text × Text)) :=
  match Line.ofText line with
  | .nothing => .ok none
  | .unknown line => .error (.bad ⟨number, .notEntry line⟩)
  | .entry name value => (valueText value number).map fun text => some (name, text)

theorem readFrom_cons (es : Entries) (number : ℕ) (line : Text) (rest : List Text) :
    readFrom es number (line :: rest) =
      if isDelimiter line then .ok (es, rest)
      else (readLine number line).bind fun
        | none => readFrom es (number + 1) rest
        | some (name, text) => readFrom (es.put name text) (number + 1) rest := by
  rw [readFrom, readLine]
  split
  · rfl
  · cases Line.ofText line with
    | nothing => rfl
    | unknown line => rfl
    | entry name value => cases h : valueText value number <;> simp [h, Except.map, Except.bind]

theorem readLine_of_spells (hsilent : ¬ IsSilent line) (h : Spells line name value) (number : ℕ) :
    readLine number line = (valueText value number).map fun text => some (name, text) := by
  rcases lineOfText_of_not_isSilent hsilent with ⟨name', value', h', hkind⟩ | ⟨hno, -⟩
  · obtain ⟨rfl, rfl⟩ := h.unique h'
    rw [readLine, hkind]
  · exact absurd h (hno name value)

theorem readLine_of_not_spells (hsilent : ¬ IsSilent line)
    (h : ∀ name value, ¬ Spells line name value) (number : ℕ) :
    readLine number line = .error (.bad ⟨number, .notEntry (Text.strip line)⟩) := by
  rcases lineOfText_of_not_isSilent hsilent with ⟨name, value, h', -⟩ | ⟨-, hkind⟩
  · exact absurd h' (h name value)
  · rw [readLine, hkind]

theorem readLine_eq_none_iff : readLine number line = .ok none ↔ IsSilent line := by
  refine ⟨fun h => ?_, fun h => by rw [readLine, lineOfText_of_isSilent h]⟩
  by_contra hsilent
  by_cases hspells : ∃ name value, Spells line name value
  · obtain ⟨name, value, hspells⟩ := hspells
    rw [readLine_of_spells hsilent hspells] at h
    cases hv : valueText value number <;> simp [hv, Except.map] at h
  · push Not at hspells
    rw [readLine_of_not_spells hsilent hspells] at h
    cases h

theorem readLine_eq_some_iff :
    readLine number line = .ok (some (name, text)) ↔
      ¬ IsSilent line ∧ ∃ value, Spells line name value ∧ Means value text := by
  by_cases hsilent : IsSilent line
  · simp [readLine_eq_none_iff.mpr hsilent, hsilent]
  by_cases hspells : ∃ name value, Spells line name value
  · obtain ⟨name', value, hspells⟩ := hspells
    rw [readLine_of_spells hsilent hspells]
    constructor
    · intro h
      cases hv : valueText value number with
      | error fault => simp [hv, Except.map] at h
      | ok text' =>
        simp only [hv, Except.map, Except.ok.injEq, Option.some.injEq, Prod.mk.injEq] at h
        obtain ⟨rfl, rfl⟩ := h
        exact ⟨hsilent, value, hspells, valueText_eq_ok_iff.mp hv⟩
    · rintro ⟨-, value', hspells', hmeans⟩
      obtain ⟨rfl, rfl⟩ := hspells.unique hspells'
      simp [valueText_eq_ok_iff.mpr hmeans, Except.map]
  · push Not at hspells
    rw [readLine_of_not_spells hsilent hspells]
    refine ⟨by simp, ?_⟩
    rintro ⟨-, value, h, -⟩
    exact absurd h (hspells name value)

/-- The lines that can be read are those whose value has a text. -/
theorem exists_readLine_eq_ok_iff (number : ℕ) :
    (∃ p, readLine number line = .ok p) ↔ IsEntryLine HasText line := by
  constructor
  · rintro ⟨_ | ⟨name, text⟩, h⟩
    · exact .inl (readLine_eq_none_iff.mp h)
    · obtain ⟨-, value, hspells, hmeans⟩ := readLine_eq_some_iff.mp h
      exact .inr ⟨name, value, hspells, hasText_iff_exists_means.mpr ⟨text, hmeans⟩⟩
  · intro h
    by_cases hsilent : IsSilent line
    · exact ⟨none, readLine_eq_none_iff.mpr hsilent⟩
    · obtain ⟨name, value, hspells, hvalue⟩ := h.resolve_left hsilent
      obtain ⟨text, hmeans⟩ := hasText_iff_exists_means.mp hvalue
      exact ⟨_, readLine_eq_some_iff.mpr ⟨hsilent, value, hspells, hmeans⟩⟩

theorem not_isSilent_of_readLine_eq_error {fault : Fault}
    (h : readLine number line = .error fault) : ¬ IsSilent line := fun hs => by
  simp [readLine_eq_none_iff.mpr hs] at h

/-- A line that spells an entry fails for what is between the quotes of its value. -/
theorem readLine_eq_error_iff_of_spells (hsilent : ¬ IsSilent line) (h : Spells line name value)
    {fault : Fault} :
    readLine number line = .error fault ↔
      IsWrapped value ∧ valueText value number = .error fault := by
  rw [readLine_of_spells hsilent h]
  by_cases hw : IsWrapped value
  · cases valueText value number <;> simp [hw, Except.map]
  · simp [valueText_eq_ok_iff.mpr (.letter hw), hw, Except.map]

/-- A line that is bad is to blame itself, and it is no entry whose value can be read. -/
theorem readLine_eq_bad {e : SyntaxError} (h : readLine number line = .error (.bad e)) :
    ¬ IsEntryLine IsReadable line ∧ e.line = number := by
  have hsilent := not_isSilent_of_readLine_eq_error h
  by_cases hspells : ∃ name value, Spells line name value
  · obtain ⟨name, value, hspells⟩ := hspells
    obtain ⟨hw, hv⟩ := (readLine_eq_error_iff_of_spells hsilent hspells).mp h
    rw [valueText_of_isWrapped hw] at hv
    have hload : Loader.load value = .error .malformed ∧ e.line = number := by
      split at hv
      · split at hv <;> simp at hv
      · next hload => exact ⟨hload, by cases hv; rfl⟩
      · simp at hv
    refine ⟨?_, hload.2⟩
    rintro (hs | ⟨name', value', hspells', hread⟩)
    · exact hsilent hs
    · obtain ⟨rfl, rfl⟩ := hspells.unique hspells'
      obtain ⟨v, hv⟩ := hread hw
      simp [hload.1] at hv
  · push Not at hspells
    rw [readLine_of_not_spells hsilent hspells] at h
    refine ⟨?_, by cases h; rfl⟩
    rintro (hs | ⟨name, value, hspells', -⟩)
    · exact hsilent hs
    · exact hspells name value hspells'

theorem readLine_eq_value_iff {fault : Yaml.Fault} :
    readLine number line = .error (.value fault) ↔ LacksText line fault := by
  constructor
  · intro h
    have hsilent := not_isSilent_of_readLine_eq_error h
    by_cases hspells : ∃ name value, Spells line name value
    · obtain ⟨name, value, hspells⟩ := hspells
      obtain ⟨hw, hv⟩ := (readLine_eq_error_iff_of_spells hsilent hspells).mp h
      refine ⟨hsilent, name, value, hspells, hw, ?_⟩
      rw [valueText_of_isWrapped hw] at hv
      split at hv
      · next v hload =>
        split at hv
        · cases hv
        · next hwrite =>
          cases hv
          exact .inr ⟨⟨v, hload, by simpa using hwrite⟩, rfl⟩
      · cases hv
      · next hne hload =>
        cases hv
        exact .inl ⟨hload, hne⟩
    · push Not at hspells
      rw [readLine_of_not_spells hsilent hspells] at h
      cases h
  · rintro ⟨hsilent, name, value, hspells, hw, hvalue⟩
    rw [readLine_eq_error_iff_of_spells hsilent hspells, valueText_of_isWrapped hw]
    refine ⟨hw, ?_⟩
    rcases hvalue with ⟨hload, hne⟩ | ⟨⟨v, hload, hwrite⟩, rfl⟩
    · cases fault <;> simp_all
    · simp [hload, hwrite]

end Pageloom.FrontMatter
