import Pageloom.Proofs.Yaml.Leading

/-!
# Scalars between single quotes

Between single quotes a text is written to the letter, with each quote inside doubled. No other
character has a meaning there, and blanks are kept, also at both ends, as long as no line ends. What
is written so is read again.

The scanner takes runs of blanks in one step, quotes in pairs, and other characters one by one. So
the text is taken apart in the same way, and its length bounds the number of steps.

## Main definitions

* `Yaml.doubled`, `Yaml.singleQuoted`: the text with its quotes doubled, and between quotes.

## Main results

* `Scalar.quotedStep_cases`: one step of the scanner.
* `Yaml.opens_iff_singleQuoted`: the texts that open with a scalar between single quotes.
* `Yaml.load_singleQuoted`: what is written between quotes stands for the text.
-/

namespace Pageloom.Yaml

variable {c d : Char} {n : ℕ} {s t blanks rest : Text} {p last : Cursor}

/-- The text with each single quote doubled. -/
def doubled (s : Text) : Text := s.flatMap fun c => if c = '\'' then ['\'', '\''] else [c]

/-- The text between single quotes. -/
def singleQuoted (s : Text) : Text := '\'' :: (doubled s ++ ['\''])

@[simp]
theorem doubled_nil : doubled [] = [] := rfl

theorem doubled_quote (s : Text) : doubled ('\'' :: s) = '\'' :: '\'' :: doubled s := rfl

theorem doubled_cons (h : c ≠ '\'') (s : Text) : doubled (c :: s) = c :: doubled s := by
  simp [doubled, h]

theorem mem_doubled : c ∈ doubled s ↔ c ∈ s := by
  induction s with
  | nil => rfl
  | cons d s ih =>
    by_cases hd : d = '\''
    · rw [hd, doubled_quote]
      simp [ih]
    · rw [doubled_cons hd]
      simp [ih]

theorem mem_singleQuoted : c ∈ singleQuoted s ↔ c = '\'' ∨ c ∈ s := by
  simp [singleQuoted, mem_doubled, or_comm]

theorem doubled_append (s t : Text) : doubled (s ++ t) = doubled s ++ doubled t :=
  List.flatMap_append

/-- A text without a quote is written as it is. -/
theorem doubled_of_notMem (h : '\'' ∉ s) : doubled s = s := by
  induction s with
  | nil => rfl
  | cons c s ih =>
    obtain ⟨hc, hs⟩ := List.ne_and_not_mem_of_not_mem_cons h
    rw [doubled_cons (Ne.symm hc), ih hs]

/-! ### One step of the scanner -/

namespace Scalar

/-- A quote that is not doubled ends the scalar. -/
theorem quotedStep_end (h : p.rest = '\'' :: rest) (hrest : rest.head? ≠ some '\'') :
    quotedStep '\'' p = .ok none := by
  simp [quotedStep, h, hrest]

theorem quotedStep_quote (h : p.rest = '\'' :: '\'' :: rest) :
    quotedStep '\'' p = .ok (some (['\''], p.advance 2)) := by
  simp [quotedStep, h]

theorem quotedStep_char (h : p.rest = c :: rest) (hquote : c ≠ '\'') (hblank : isBlank c = false)
    (hbreak : isBreak c = false) : quotedStep '\'' p = .ok (some ([c], p.next)) := by
  simp [quotedStep, h, hquote, hblank, hbreak]

theorem lineBreak?_eq_none (h : p.rest = c :: rest) (hbreak : isBreak c = false) :
    p.lineBreak? = none := by
  have hreturn : c ≠ '\r' := by
    rintro rfl
    cases hbreak
  simp [Cursor.lineBreak?, h, hreturn, hbreak]

theorem ne_quote_of_isBlank (h : isBlank c) : c ≠ '\'' := by
  rintro rfl
  cases h

theorem quote_notMem_of_blanks (h : ∀ b ∈ blanks, isBlank b) : '\'' ∉ blanks :=
  fun hmem => ne_quote_of_isBlank (h _ hmem) rfl

/-- A run of blanks that no end of a line follows. -/
theorem quotedStep_blanks (h : p.rest = c :: blanks ++ d :: rest)
    (hblanks : ∀ b ∈ c :: blanks, isBlank b) (hblank : isBlank d = false)
    (hbreak : isBreak d = false) :
    quotedStep '\'' p = .ok (some (c :: blanks, p.advance (c :: blanks).length)) := by
  have hquote := ne_quote_of_isBlank (hblanks c List.mem_cons_self)
  have hrun : p.run isBlank = c :: blanks := by
    rw [Cursor.run, h, List.takeWhile_append_of_pos hblanks,
      List.takeWhile_cons_of_neg (by simp [hblank]), List.append_nil]
  have hbehind : (p.advance (c :: blanks).length).rest = d :: rest := by
    rw [Cursor.rest_advance, h, List.drop_left]
  rw [List.cons_append] at h
  simp [quotedStep, h, hquote, hblanks c List.mem_cons_self, Cursor.skipWhile, hrun,
    -List.length_cons, lineBreak?_eq_none hbehind hbreak, Cursor.atEnd, hbehind]

/-- A run of blanks that nothing follows. -/
theorem quotedStep_open (h : p.rest = c :: blanks) (hblanks : ∀ b ∈ c :: blanks, isBlank b) :
    quotedStep '\'' p = .error .malformed := by
  have hquote := ne_quote_of_isBlank (hblanks c List.mem_cons_self)
  have hrun : p.run isBlank = c :: blanks := by
    rw [Cursor.run, h, List.takeWhile_eq_self_iff.mpr hblanks]
  have hbehind : (p.advance (c :: blanks).length).rest = [] := by
    rw [Cursor.rest_advance, h, List.drop_length]
  simp [quotedStep, h, hquote, hblanks c List.mem_cons_self, Cursor.skipWhile, hrun,
    -List.length_cons, Cursor.lineBreak?, Cursor.atEnd, hbehind]

/-- The blanks that a text begins with. -/
theorem exists_blanks (s : Text) : ∃ blanks t, s = blanks ++ t ∧ (∀ b ∈ blanks, isBlank b) ∧
    ∀ d ∈ t.head?, isBlank d = false := by
  refine ⟨s.takeWhile isBlank, s.dropWhile isBlank, List.takeWhile_append_dropWhile.symm,
    fun b hb => List.mem_takeWhile_imp hb, fun d hd => ?_⟩
  have hnot := List.head?_dropWhile_not isBlank s
  rw [Option.mem_def.mp hd] at hnot
  simpa using hnot

/-- What one step between single quotes takes, where no line ends: the quote at the end, or a text
as it is written. -/
theorem quotedStep_cases (hbreaks : ∀ c ∈ p.rest, isBreak c = false) :
    (∃ f, quotedStep '\'' p = .error f) ∨
      (∃ rest, p.rest = '\'' :: rest ∧ rest.head? ≠ some '\'' ∧ quotedStep '\'' p = .ok none) ∨
      ∃ start p', p.rest = doubled start ++ p'.rest ∧
        quotedStep '\'' p = .ok (some (start, p')) := by
  rcases hrest : p.rest with _ | ⟨c, rest⟩
  · exact .inl ⟨.malformed, by simp [quotedStep, hrest]⟩
  have hbreak : isBreak c = false := hbreaks c (by simp [hrest])
  by_cases hquote : c = '\''
  · subst hquote
    by_cases hhead : rest.head? = some '\''
    · obtain ⟨rest, rfl⟩ := List.head?_eq_some_iff.mp hhead
      exact .inr (.inr ⟨['\''], p.advance 2, by rw [Cursor.rest_advance, hrest]; rfl,
        quotedStep_quote hrest⟩)
    · exact .inr (.inl ⟨rest, rfl, hhead, quotedStep_end hrest hhead⟩)
  cases hblank : isBlank c with
  | false =>
    exact .inr (.inr ⟨[c], p.next, by rw [Cursor.rest_next, hrest, doubled_cons hquote]; rfl,
      quotedStep_char hrest hquote hblank hbreak⟩)
  | true =>
    obtain ⟨blanks, t, rfl, hblanks, hhead⟩ := exists_blanks rest
    have hall : ∀ b ∈ c :: blanks, isBlank b := List.forall_mem_cons.mpr ⟨hblank, hblanks⟩
    rcases t with _ | ⟨d, t⟩
    · exact .inl ⟨.malformed, quotedStep_open (by rw [hrest, List.append_nil]) hall⟩
    · refine .inr (.inr ⟨c :: blanks, p.advance (c :: blanks).length, ?_,
        quotedStep_blanks hrest hall (hhead d rfl) (hbreaks d (by simp [hrest]))⟩)
      rw [Cursor.rest_advance, hrest, doubled_of_notMem (quote_notMem_of_blanks hall),
        ← List.cons_append, List.drop_left]

/-! ### The whole scalar -/

/-- What follows blanks is a character of the text, or the quote at its end. -/
theorem exists_head_doubled (hhead : ∀ d ∈ s.head?, isBlank d = false)
    (hs : ∀ d ∈ s, isBreak d = false) (rest : Text) :
    ∃ d more, doubled s ++ '\'' :: rest = d :: more ∧ isBlank d = false ∧ isBreak d = false := by
  rcases s with _ | ⟨c, s⟩
  · exact ⟨_, _, rfl, rfl, rfl⟩
  by_cases hquote : c = '\''
  · subst hquote
    exact ⟨_, _, rfl, rfl, rfl⟩
  · rw [doubled_cons hquote]
    exact ⟨c, _, rfl, hhead c rfl, hs c List.mem_cons_self⟩

/-- One step, and what the further ones come to. -/
theorem quotedFrom_of_step {start behind : Text} {p' : Cursor}
    (hstep : quotedStep '\'' p = .ok (some (start, p')))
    (h : quotedFrom '\'' n p' = .ok (behind, last)) :
    quotedFrom '\'' (n + 1) p = .ok (start ++ behind, last) := by
  rw [quotedFrom, hstep]
  show (quotedFrom '\'' n p').map _ = _
  rw [h]
  rfl

/-- **What is written between quotes is read again**, and the scanner stops behind it. -/
theorem exists_quotedFrom (hs : ∀ c ∈ s, isBreak c = false) (hn : (doubled s).length < n)
    (h : p.rest = doubled s ++ '\'' :: rest) (hrest : rest.head? ≠ some '\'') :
    ∃ last, quotedFrom '\'' n p = .ok (s, last) ∧ last.rest = rest := by
  induction n generalizing s p with
  | zero => exact absurd hn (Nat.not_lt_zero _)
  | succ n ih =>
    rcases s with _ | ⟨c, s⟩
    · refine ⟨p.next, ?_, by rw [Cursor.rest_next, h]; rfl⟩
      rw [quotedFrom, quotedStep_end h hrest]
      rfl
    obtain ⟨hbreak, hbreaks⟩ := List.forall_mem_cons.mp hs
    by_cases hquote : c = '\''
    · subst hquote
      rw [doubled_quote] at h hn
      simp only [List.length_cons] at hn
      obtain ⟨last, hlast, hbehind⟩ := ih (p := p.advance 2) hbreaks (by omega)
        (by rw [Cursor.rest_advance, h]; rfl)
      exact ⟨last, quotedFrom_of_step (quotedStep_quote h) hlast, hbehind⟩
    rw [doubled_cons hquote] at h hn
    rw [List.length_cons] at hn
    cases hblank : isBlank c with
    | false =>
      obtain ⟨last, hlast, hbehind⟩ := ih (p := p.next) hbreaks (by omega)
        (by rw [Cursor.rest_next, h]; rfl)
      exact ⟨last, quotedFrom_of_step (quotedStep_char h hquote hblank hbreak) hlast, hbehind⟩
    | true =>
      -- the blanks that follow are taken in the same step
      obtain ⟨blanks, t, rfl, hblanks, hhead⟩ := exists_blanks s
      obtain ⟨hbreaks', htbreaks⟩ := List.forall_mem_append.mp hbreaks
      obtain ⟨d, more, hd, hdblank, hdbreak⟩ := exists_head_doubled hhead htbreaks rest
      rw [doubled_append, doubled_of_notMem (quote_notMem_of_blanks hblanks)] at h hn
      rw [List.length_append] at hn
      have hnext : p.rest = c :: blanks ++ d :: more := by rw [h, ← hd]; simp
      obtain ⟨last, hlast, hbehind⟩ := ih (p := p.advance (c :: blanks).length) htbreaks
        (by omega) (by rw [Cursor.rest_advance, hnext, List.drop_left, hd])
      have hstep := quotedStep_blanks hnext (List.forall_mem_cons.mpr ⟨hblank, hblanks⟩) hdblank
        hdbreak
      exact ⟨last, quotedFrom_of_step hstep hlast, hbehind⟩

/-- **What is read between single quotes is what is written there**, where no line ends. -/
theorem eq_of_quotedFrom (hbreaks : ∀ c ∈ p.rest, isBreak c = false)
    (h : quotedFrom '\'' n p = .ok (s, last)) :
    p.rest = doubled s ++ '\'' :: last.rest ∧ last.rest.head? ≠ some '\'' := by
  induction n generalizing s p with
  | zero => cases h
  | succ n ih =>
    rw [quotedFrom] at h
    rcases quotedStep_cases hbreaks with
      ⟨f, hf⟩ | ⟨rest, hrest, hhead, hstep⟩ | ⟨start, p', hrest, hstep⟩
    · rw [hf] at h
      cases h
    · rw [hstep] at h
      cases h
      rw [Cursor.rest_next, hrest]
      exact ⟨rfl, hhead⟩
    · rw [hstep] at h
      change (quotedFrom '\'' n p').map _ = _ at h
      cases hmore : quotedFrom '\'' n p' with
      | error f =>
        rw [hmore] at h
        cases h
      | ok r =>
        rw [hmore] at h
        cases h
        obtain ⟨heq, hhead⟩ := ih (fun c hc => hbreaks c (hrest ▸ List.mem_append_right _ hc)) hmore
        exact ⟨by rw [hrest, heq, doubled_append, List.append_assoc], hhead⟩

end Scalar

/-! ### The text that is written -/

/-- A text on one line opens with a scalar between single quotes exactly if it begins with what is
written for the scalar, and no further quote comes behind that. -/
theorem opens_iff_singleQuoted (hbreaks : ∀ c ∈ t, isBreak c = false)
    (hhead : t.head? = some '\'') :
    Opens t s rest ↔ t = singleQuoted s ++ rest ∧ rest.head? ≠ some '\'' := by
  obtain ⟨t, rfl⟩ := List.head?_eq_some_iff.mp hhead
  have hprint : singleQuoted s ++ rest = '\'' :: (doubled s ++ '\'' :: rest) := by
    simp [singleQuoted]
  have hnext : (Cursor.next { rest := '\'' :: t }).rest = t := Cursor.rest_next _
  rw [hprint, List.cons.injEq, and_iff_right rfl]
  constructor
  · rintro ⟨q, last, -, hq, hquoted, rfl⟩
    cases hq
    have hread := Scalar.eq_of_quotedFrom
      (hnext ▸ fun c hc => hbreaks c (List.mem_cons_of_mem _ hc)) hquoted
    rwa [hnext] at hread
  · rintro ⟨rfl, hrest⟩
    have hs : ∀ c ∈ s, isBreak c = false := fun c hc =>
      hbreaks c (List.mem_cons_of_mem _ (List.mem_append_left _ (mem_doubled.mpr hc)))
    have hlength : (doubled s).length < ('\'' :: (doubled s ++ '\'' :: rest)).length + 1 := by
      simp only [List.length_cons, List.length_append]
      omega
    obtain ⟨last, hlast, hbehind⟩ := Scalar.exists_quotedFrom hs hlength hnext hrest
    exact ⟨'\'', last, .inr rfl, rfl, hlast, hbehind⟩

/-- **What is written between quotes stands for the text.** -/
theorem load_singleQuoted (hallowed : ∀ c ∈ s, isAllowed c) (hs : ∀ c ∈ s, isBreak c = false) :
    load (singleQuoted s) = .ok (.text s) := by
  have hquoted {P : Char → Prop} (hquote : P '\'') (hP : ∀ c ∈ s, P c) :
      ∀ c ∈ singleQuoted s, P c := fun c hc => by
    rcases mem_singleQuoted.mp hc with rfl | hc
    · exact hquote
    · exact hP c hc
  have hopens : Opens (singleQuoted s) s [] :=
    (opens_iff_singleQuoted (hquoted rfl hs) rfl).mpr ⟨(List.append_nil _).symm, nofun⟩
  exact load_of_opens_nil (hquoted rfl hallowed) hopens

end Pageloom.Yaml
