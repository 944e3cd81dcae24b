import Pageloom.Proofs.Entries
import Pageloom.Proofs.FrontMatter.Grammar

/-!
# Headers

Which texts have front matter, what it is, and where a header goes wrong. A header stands between
its delimiters, each line of it holds nothing or spells an entry, and the entries are set one after
the other.

## Main definitions

* `FrontMatter.IsHeader`: the lines up to the first closing delimiter, and those behind it.
* `FrontMatter.Reads`: the entries that the lines of a header spell.

## Main results

* `FrontMatter.readFrom_eq_ok_iff`, `FrontMatter.readFrom_eq_error_iff`: the run over the lines.
* `FrontMatter.split_of_grammar`: the front matter and the body of a text, and all of its faults.
-/

namespace Pageloom.FrontMatter

variable {es es' : Entries} {number : ℕ} {lines head behind : List Text} {line close : Text}
  {pairs : List (Text × Text)}

/-- The first delimiter among the lines is `close`. -/
structure IsHeader (lines head : List Text) (close : Text) (behind : List Text) : Prop where
  eq : lines = head ++ close :: behind
  head : ∀ line ∈ head, isDelimiter line = false
  close : isDelimiter close = true

variable [Yaml.Loader]

/-- The pairs of a name and a text that the lines of a header spell, in their order. -/
inductive Reads : List Text → List (Text × Text) → Prop where
  | nil : Reads [] []
  | silent {line : Text} {lines : List Text} {pairs : List (Text × Text)} (h : IsSilent line)
      (hrest : Reads lines pairs) : Reads (line :: lines) pairs
  | entry {line name value text : Text} {lines : List Text} {pairs : List (Text × Text)}
      (h : ¬ IsSilent line) (hspells : Spells line name value) (hmeans : Means value text)
      (hrest : Reads lines pairs) : Reads (line :: lines) ((name, text) :: pairs)

theorem reads_cons_iff (number : ℕ) :
    Reads (line :: lines) pairs ↔
      ∃ p, readLine number line = .ok p ∧
        ∃ pairs', pairs = p.toList ++ pairs' ∧ Reads lines pairs' := by
  constructor
  · intro h
    cases h with
    | silent h hrest => exact ⟨none, readLine_eq_none_iff.mpr h, pairs, rfl, hrest⟩
    | entry h hspells hmeans hrest =>
      exact ⟨some _, readLine_eq_some_iff.mpr ⟨h, _, hspells, hmeans⟩, _, rfl, hrest⟩
  · rintro ⟨_ | ⟨name, text⟩, h, pairs', rfl, hrest⟩
    · exact .silent (readLine_eq_none_iff.mp h) hrest
    · obtain ⟨hsilent, value, hspells, hmeans⟩ := readLine_eq_some_iff.mp h
      exact .entry hsilent hspells hmeans hrest

/-- The lines of a header spell entries exactly if each of them can be read. -/
theorem exists_reads_iff :
    (∃ pairs, Reads lines pairs) ↔ ∀ line ∈ lines, IsEntryLine HasText line := by
  induction lines with
  | nil => simpa using ⟨[], .nil⟩
  | cons line lines ih =>
    rw [List.forall_mem_cons, ← ih, ← exists_readLine_eq_ok_iff 0]
    simp only [reads_cons_iff 0]
    constructor
    · rintro ⟨_, p, hp, pairs, -, hrest⟩
      exact ⟨⟨p, hp⟩, pairs, hrest⟩
    · rintro ⟨⟨p, hp⟩, pairs, hrest⟩
      exact ⟨_, p, hp, pairs, rfl, hrest⟩

/-! ### The run over the lines -/

theorem readFrom_cons_of_delimiter (h : isDelimiter line = true) (es : Entries) (number : ℕ)
    (rest : List Text) : readFrom es number (line :: rest) = .ok (es, rest) := by
  rw [readFrom_cons, if_pos h]

theorem readFrom_cons_of_ok {p : Option (Text × Text)} (h : isDelimiter line = false)
    (hp : readLine number line = .ok p) (es : Entries) (rest : List Text) :
    readFrom es number (line :: rest) = readFrom (es.putAll p.toList) (number + 1) rest := by
  rw [readFrom_cons, if_neg (by simp [h]), hp]
  cases p <;> rfl

theorem readFrom_cons_of_error {fault : Fault} (h : isDelimiter line = false)
    (hp : readLine number line = .error fault) (es : Entries) (rest : List Text) :
    readFrom es number (line :: rest) = .error fault := by
  rw [readFrom_cons, if_neg (by simp [h]), hp, Except.bind]

/-- Lines that spell entries set these, one after the other, before the run goes on behind them. -/
theorem readFrom_append (hhead : ∀ l ∈ head, isDelimiter l = false) (h : Reads head pairs)
    (es : Entries) (number : ℕ) (rest : List Text) :
    readFrom es number (head ++ rest) =
      readFrom (es.putAll pairs) (number + head.length) rest := by
  induction h generalizing es number with
  | nil => rfl
  | @silent line lines pairs hsilent _ ih =>
    obtain ⟨hline, hlines⟩ := List.forall_mem_cons.mp hhead
    rw [List.cons_append, readFrom_cons_of_ok hline (readLine_eq_none_iff.mpr hsilent), ih hlines,
      List.length_cons, Nat.add_assoc, Nat.add_comm 1]
    rfl
  | @entry line name value text lines pairs hsilent hspells hmeans _ ih =>
    obtain ⟨hline, hlines⟩ := List.forall_mem_cons.mp hhead
    have hread : readLine number line = .ok (some (name, text)) :=
      readLine_eq_some_iff.mpr ⟨hsilent, value, hspells, hmeans⟩
    rw [List.cons_append, readFrom_cons_of_ok hline hread, ih hlines, List.length_cons,
      Nat.add_assoc, Nat.add_comm 1]
    rfl

theorem readFrom_eq_ok_iff :
    readFrom es number lines = .ok (es', behind) ↔
      ∃ head close pairs, IsHeader lines head close behind ∧ Reads head pairs ∧
        es' = es.putAll pairs := by
  induction lines generalizing es number with
  | nil =>
    refine ⟨nofun, ?_⟩
    rintro ⟨head, close, -, ⟨heq, -, -⟩, -⟩
    simp at heq
  | cons line lines ih =>
    cases hline : isDelimiter line with
    | true =>
      rw [readFrom_cons_of_delimiter hline]
      constructor
      · rintro ⟨⟩
        exact ⟨[], line, [], ⟨rfl, by simp, hline⟩, .nil, rfl⟩
      · rintro ⟨head, close, pairs, ⟨heq, hhead, -⟩, hreads, rfl⟩
        cases head with
        | nil =>
          cases hreads
          cases heq
          rfl
        | cons l head =>
          cases heq
          simp [hline] at hhead
    | false =>
      -- the line is the first one of the header, whatever comes of it
      have hcons : (∃ head close pairs, IsHeader (line :: lines) head close behind ∧
          Reads head pairs ∧ es' = es.putAll pairs) ↔
          ∃ head close pairs, IsHeader lines head close behind ∧ Reads (line :: head) pairs ∧
            es' = es.putAll pairs := by
        constructor
        · rintro ⟨_ | ⟨l, head⟩, close, pairs, ⟨heq, hhead, hclose⟩, hreads, hes⟩
          · cases heq
            simp [hline] at hclose
          · cases heq
            have hhead' := (List.forall_mem_cons.mp hhead).2
            exact ⟨head, close, pairs, ⟨rfl, hhead', hclose⟩, hreads, hes⟩
        · rintro ⟨head, close, pairs, ⟨rfl, hhead, hclose⟩, hreads, hes⟩
          have hhead' : ∀ l ∈ line :: head, isDelimiter l = false :=
            List.forall_mem_cons.mpr ⟨hline, hhead⟩
          exact ⟨line :: head, close, pairs, ⟨rfl, hhead', hclose⟩, hreads, hes⟩
      rw [hcons]
      simp only [reads_cons_iff number]
      cases hread : readLine number line with
      | error fault => simp [readFrom_cons_of_error hline hread]
      | ok p =>
        rw [readFrom_cons_of_ok hline hread, ih]
        constructor
        · rintro ⟨head, close, pairs, hheader, hreads, rfl⟩
          exact ⟨head, close, p.toList ++ pairs, hheader, ⟨p, rfl, pairs, rfl, hreads⟩,
            by simp [Entries.putAll]⟩
        · rintro ⟨head, close, _, hheader, ⟨_, ⟨⟩, pairs, rfl, hreads⟩, rfl⟩
          exact ⟨head, close, pairs, hheader, hreads, by simp [Entries.putAll]⟩

/-- The first line that cannot be read is the fault of a header, and if there is none, that it has
no closing line. -/
theorem readFrom_eq_error_iff {fault : Fault} :
    readFrom es number lines = .error fault ↔
      (∃ head line behind, lines = head ++ line :: behind ∧
        (∀ l ∈ head, isDelimiter l = false ∧ IsEntryLine HasText l) ∧ isDelimiter line = false ∧
        readLine (number + head.length) line = .error fault) ∨
      (∀ l ∈ lines, isDelimiter l = false ∧ IsEntryLine HasText l) ∧
        fault = .bad ⟨1, .unclosed⟩ := by
  induction lines generalizing es number with
  | nil =>
    constructor
    · rintro ⟨⟩
      exact .inr ⟨by simp, rfl⟩
    · rintro (⟨head, line, behind, heq, -⟩ | ⟨-, rfl⟩)
      · simp at heq
      · rfl
  | cons line lines ih =>
    cases hline : isDelimiter line with
    | true =>
      rw [readFrom_cons_of_delimiter hline]
      refine ⟨nofun, ?_⟩
      rintro (⟨_ | ⟨l, head⟩, l', behind, heq, hhead, hl', -⟩ | ⟨hall, -⟩)
      · cases heq
        simp [hline] at hl'
      · cases heq
        simp [hline] at hhead
      · simp [hline] at hall
    | false =>
      cases hread : readLine number line with
      | error fault' =>
        have hno : ¬ IsEntryLine HasText line := fun h => by
          obtain ⟨p, hp⟩ := (exists_readLine_eq_ok_iff number).mpr h
          simp [hread] at hp
        rw [readFrom_cons_of_error hline hread]
        constructor
        · rintro ⟨⟩
          exact .inl ⟨[], line, lines, rfl, by simp, hline, by simpa using hread⟩
        · rintro (⟨_ | ⟨l, head⟩, l', behind, heq, hhead, -, hfault⟩ | ⟨hall, -⟩)
          · cases heq
            simpa [hread] using hfault
          · cases heq
            exact absurd (hhead line List.mem_cons_self).2 hno
          · exact absurd (hall line List.mem_cons_self).2 hno
      | ok p =>
        have hyes : IsEntryLine HasText line := (exists_readLine_eq_ok_iff number).mp ⟨p, hread⟩
        rw [readFrom_cons_of_ok hline hread, ih]
        constructor
        · rintro (⟨head, l, behind, rfl, hhead, hl, hfault⟩ | ⟨hall, rfl⟩)
          · refine .inl ⟨line :: head, l, behind, rfl, ?_, hl, ?_⟩
            · exact List.forall_mem_cons.mpr ⟨⟨hline, hyes⟩, hhead⟩
            · rwa [List.length_cons, ← Nat.add_assoc, Nat.add_right_comm]
          · exact .inr ⟨List.forall_mem_cons.mpr ⟨⟨hline, hyes⟩, hall⟩, rfl⟩
        · rintro (⟨_ | ⟨l, head⟩, l', behind, heq, hhead, hl', hfault⟩ | ⟨hall, rfl⟩)
          · cases heq
            simp [hread] at hfault
          · cases heq
            have hhead' := (List.forall_mem_cons.mp hhead).2
            refine .inl ⟨head, l', behind, rfl, hhead', hl', ?_⟩
            rwa [List.length_cons, ← Nat.add_assoc, Nat.add_right_comm] at hfault
          · exact .inr ⟨(List.forall_mem_cons.mp hall).2, rfl⟩

/-! ### The text -/

theorem split_of_not_delimiter {t first : Text} {rest : List Text}
    (hlines : Text.lines t = first :: rest) (h : isDelimiter first = false) :
    split t = .ok ([], t) := by
  rw [split, isPresent, hlines, List.headD_cons, h, if_neg Bool.false_ne_true]

/-- A text that does not begin with a dash has no front matter. -/
theorem split_cons_of_ne {c : Char} (hc : c ≠ '-') (t : Text) :
    split (c :: t) = .ok ([], c :: t) := by
  obtain ⟨first, parts, behind, hlines, ht⟩ := Text.exists_split_eq_cons '\n' (c :: t)
  refine split_of_not_delimiter hlines (decide_eq_false fun hdashes => hc ?_)
  have hprefix : "---".toList <+: c :: t :=
    hdashes ▸ (Text.trimEnd_prefix isBlank first).trans ⟨behind, ht.symm⟩
  exact (List.cons_prefix_cons.mp hprefix).1.symm

theorem split_of_delimiter {t first : Text} {rest : List Text}
    (hlines : Text.lines t = first :: rest) (h : isDelimiter first = true) :
    split t = (readFrom [] 2 rest).map fun (es, behind) => (es, Text.join "\n" behind) := by
  rw [split, isPresent, hlines, List.headD_cons, h, if_pos rfl, List.tail_cons]
  rcases readFrom [] 2 rest with _ | ⟨_, _⟩ <;> rfl

/-- A text with front matter is split at the end of its header, and its entries are set one after
the other. -/
theorem split_eq_ok_iff {t first body : Text} {rest : List Text}
    (hlines : Text.lines t = first :: rest) (h : isDelimiter first = true) :
    split t = .ok (es, body) ↔
      ∃ head close behind pairs, IsHeader rest head close behind ∧ Reads head pairs ∧
        es = Entries.ofPairs pairs ∧ body = Text.join "\n" behind := by
  rw [split_of_delimiter hlines h]
  constructor
  · intro hok
    cases hread : readFrom [] 2 rest with
    | error fault => simp [hread, Except.map] at hok
    | ok r =>
      obtain ⟨es', behind⟩ := r
      simp only [hread, Except.map, Except.ok.injEq, Prod.mk.injEq] at hok
      obtain ⟨rfl, rfl⟩ := hok
      obtain ⟨head, close, pairs, hheader, hreads, rfl⟩ := readFrom_eq_ok_iff.mp hread
      exact ⟨head, close, behind, pairs, hheader, hreads, rfl, rfl⟩
  · rintro ⟨head, close, behind, pairs, hheader, hreads, rfl, rfl⟩
    rw [readFrom_eq_ok_iff.mpr ⟨head, close, pairs, hheader, hreads, rfl⟩]
    rfl

theorem split_eq_error_iff {t first : Text} {rest : List Text} {fault : Fault}
    (hlines : Text.lines t = first :: rest) (h : isDelimiter first = true) :
    split t = .error fault ↔ readFrom [] 2 rest = .error fault := by
  rw [split_of_delimiter hlines h]
  cases readFrom [] 2 rest <;> simp [Except.map]

/-- **Front matter is read by its grammar.** A text whose first line is no delimiter is all body.
Any other text has a header, up to the first delimiter behind the first line. It is read exactly if
this delimiter is there and each line before it holds nothing or spells an entry whose value has a
text. A name that is spelled twice stands in its first place with its last text. The line to blame
for a syntax error is the first one that holds something and does not spell an entry with a readable
value; it is the opening delimiter if all lines are right and only the closing one is missing. Any
other fault is that of a value that can be read as far as its form goes and has no text. -/
theorem split_of_grammar (t : Text) :
    ∃ first rest, Text.lines t = first :: rest ∧
      (isDelimiter first = false → split t = .ok ([], t)) ∧
      (isDelimiter first = true →
        (∀ es body, split t = .ok (es, body) ↔
          ∃ head close behind pairs, IsHeader rest head close behind ∧ Reads head pairs ∧
            es = Entries.ofPairs pairs ∧ es.names = (pairs.map Prod.fst).eraseDups ∧
            (∀ name, es.get? name = pairs.reverse.lookup name) ∧ body = Text.join "\n" behind) ∧
        ((∃ r, split t = .ok r) ↔ ∃ head close behind, IsHeader rest head close behind ∧
          ∀ line ∈ head, IsEntryLine HasText line) ∧
        (∀ e, split t = .error (.bad e) →
          (∃ head line behind, rest = head ++ line :: behind ∧
            (∀ l ∈ head, isDelimiter l = false ∧ IsEntryLine IsReadable l) ∧
            isDelimiter line = false ∧ ¬ IsEntryLine IsReadable line ∧ e.line = head.length + 2) ∨
          (∀ l ∈ rest, isDelimiter l = false ∧ IsEntryLine IsReadable l) ∧ e.line = 1) ∧
        ∀ fault, split t = .error (.value fault) ↔
          ∃ head line behind, rest = head ++ line :: behind ∧
            (∀ l ∈ head, isDelimiter l = false ∧ IsEntryLine HasText l) ∧
            isDelimiter line = false ∧ LacksText line fault) := by
  obtain ⟨first, rest, hlines⟩ := List.exists_cons_of_ne_nil (Text.split_ne_nil '\n' t)
  refine ⟨first, rest, hlines, split_of_not_delimiter hlines, fun hfirst => ?_⟩
  refine ⟨fun es body => ?_, ?_, fun e he => ?_, fun fault => ?_⟩
  · rw [split_eq_ok_iff hlines hfirst]
    constructor
    · rintro ⟨head, close, behind, pairs, hheader, hreads, rfl, rfl⟩
      exact ⟨head, close, behind, pairs, hheader, hreads, rfl, Entries.names_ofPairs pairs,
        Entries.get?_ofPairs pairs, rfl⟩
    · rintro ⟨head, close, behind, pairs, hheader, hreads, hes, -, -, hbody⟩
      exact ⟨head, close, behind, pairs, hheader, hreads, hes, hbody⟩
  · constructor
    · rintro ⟨⟨es, body⟩, h⟩
      obtain ⟨head, close, behind, pairs, hheader, hreads, -⟩ :=
        (split_eq_ok_iff hlines hfirst).mp h
      exact ⟨head, close, behind, hheader, exists_reads_iff.mp ⟨pairs, hreads⟩⟩
    · rintro ⟨head, close, behind, hheader, hall⟩
      obtain ⟨pairs, hreads⟩ := exists_reads_iff.mpr hall
      exact ⟨_, (split_eq_ok_iff hlines hfirst).mpr
        ⟨head, close, behind, pairs, hheader, hreads, rfl, rfl⟩⟩
  · have hmono : ∀ l, isDelimiter l = false ∧ IsEntryLine HasText l →
        isDelimiter l = false ∧ IsEntryLine IsReadable l := fun l h =>
      h.imp_right fun h => h.mono fun _ => HasText.isReadable
    rcases readFrom_eq_error_iff.mp ((split_eq_error_iff hlines hfirst).mp he) with
      ⟨head, line, behind, hrest, hhead, hline, hread⟩ | ⟨hall, hbad⟩
    · obtain ⟨hno, hnumber⟩ := readLine_eq_bad hread
      refine .inl ⟨head, line, behind, hrest, fun l hl => hmono l (hhead l hl), hline, hno, ?_⟩
      rw [hnumber, Nat.add_comm]
    · refine .inr ⟨fun l hl => hmono l (hall l hl), ?_⟩
      cases hbad
      rfl
  · rw [split_eq_error_iff hlines hfirst, readFrom_eq_error_iff]
    simp only [readLine_eq_value_iff]
    simp

/-- A name that is set twice stands where it was first, and blanks and comments do not count. -/
example : split "---\nb: 1\n\n# c: 2\n a : x:y \nb: 3\n--- \nrest" =
    .ok ([("b", "3"), ("a", "x:y")], "rest") := by rfl

end Pageloom.FrontMatter
