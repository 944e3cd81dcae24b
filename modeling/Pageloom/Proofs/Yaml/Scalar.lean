import Pageloom.Proofs.Outcome
import Pageloom.Proofs.Text.Digits
import Pageloom.Proofs.Yaml.Cursor
import Pageloom.Yaml.Scalar

/-!
# How scalars go wrong

A scalar that cannot be read is malformed, up to one case. An escape between double quotes may spell
a code in eight digits, and there are such codes above the last character. That is no fault of the
form, and it has faults of its own.

The scanners are followed one by one. Each stays in the text, so an escape that it meets is one that
the text holds.

## Main definitions

* `HugeEscape`: the text holds an escape for a code without a character, and the fault of it.
* `ScanFault`: the faults of scanning a text.

## Main results

* `Scalar.ends_quoted`, `Scalar.ends_block`, `Scalar.isIn_plain`: the three kinds of scalars.
* `Scalar.getLast?_plain`: a plain scalar does not end with the end of a line.
-/

namespace Pageloom.Yaml

variable {t : Text} {c : Cursor} {f : Fault}

/-- The number that hexadecimal digits spell. -/
def codeOf (digits : Text) : ℕ := Text.valueOf 16 (digits.filterMap Text.hexValue?)

/-- The text holds an escape of eight digits that spell a code above the last character. -/
def HugeEscape (t : Text) (f : Fault) : Prop :=
  ∃ digits, '\\' :: 'U' :: digits <:+: t ∧ digits.length = 8 ∧
    (∀ d ∈ digits, (Text.hexValue? d).isSome) ∧ 0x10FFFF < codeOf digits ∧
    f = if 0x7FFFFFFF < codeOf digits then .hugeCharacter else .noCharacter

/-- What can be wrong with a text before it is looked at as data. -/
def ScanFault (t : Text) (f : Fault) : Prop := f = .malformed ∨ HugeEscape t f

theorem ScanFault.malformed : ScanFault t .malformed := .inl rfl

/-- The outcome of a scanner: it stays in the text, or the text is at fault. -/
abbrev Scans (t : Text) (scan : Scalar.Scan) : Prop := Ends (ScanFault t) (fun r => r.2.IsIn t) scan

namespace Scalar

/-! ### Codes -/

theorem codeOf_lt (digits : Text) : codeOf digits < 16 ^ digits.length := by
  have hlt : ∀ d ∈ digits.filterMap Text.hexValue?, d < 16 := fun d hd => by
    obtain ⟨c, -, hc⟩ := List.mem_filterMap.mp hd
    exact Text.hexValue?_lt hc
  exact (Text.valueOf_lt hlt).trans_le
    (Nat.pow_le_pow_right (by decide) (List.length_filterMap_le _ digits))

/-- Only eight digits spell codes without a character. -/
theorem length_of_codeLength? {ch : Char} {n : ℕ} (h : codeLength? ch = some n) :
    n ≤ 4 ∨ ch = 'U' ∧ n = 8 := by
  rw [codeLength?] at h
  split at h
  · cases h
    simp
  · split at h
    · cases h
      simp
    · split at h
      · next hch =>
        cases h
        exact .inr ⟨hch, rfl⟩
      · cases h

/-! ### Quotes -/

theorem ends_emptyLines (h : c.IsIn t) (n : ℕ) : Scans t (emptyLines n c) := by
  induction n generalizing c with
  | zero => exact h
  | succ n ih =>
    rw [emptyLines]
    split
    · exact .malformed
    · dsimp only
      split
      · next hbreak => exact (ih ((h.skipWhile _).lineBreak? hbreak)).map fun _ hr => hr
      · exact h.skipWhile _

/-- The escape of a code. -/
theorem ends_ofCode {ch : Char} {rest digits : Text} {length : ℕ}
    (h : '\\' :: ch :: rest <:+ t) (hlength : codeLength? ch = some length)
    (hdigits : digits = rest.take length) (hcount : digits.length = length)
    (hall : ∀ d ∈ digits, (Text.hexValue? d).isSome) :
    Ends (ScanFault t) (fun _ => True) (ofCode (codeOf digits)) := by
  have hlt := codeOf_lt digits
  rcases length_of_codeLength? hlength with hle | ⟨rfl, rfl⟩
  · have hcode : codeOf digits < 16 ^ 4 := by
      exact hlt.trans_le (Nat.pow_le_pow_right (by decide) (hcount ▸ hle))
    rw [ofCode, if_neg (by omega), if_neg (by omega)]
    trivial
  · have hinfix : '\\' :: 'U' :: digits <:+: t := by
      refine List.IsInfix.trans ?_ h.isInfix
      rw [hdigits]
      exact ⟨[], rest.drop 8, by simp⟩
    rw [ofCode]
    split
    · next hhuge =>
      exact .inr ⟨digits, hinfix, hcount, hall, by omega, by rw [if_pos hhuge]⟩
    · next hsmall =>
      split
      · next hno => exact .inr ⟨digits, hinfix, hcount, hall, hno, by rw [if_neg hsmall]⟩
      · trivial

theorem ends_escape (h : '\\' :: c.rest <:+ t) : Scans t (escape c) := by
  have hc : c.IsIn t := (List.suffix_cons '\\' c.rest).trans h
  rw [escape]
  split
  · exact .malformed
  · next ch rest hrest =>
    rw [hrest] at h
    split
    · exact hc.next
    · next length _ hlength =>
      dsimp only
      split
      · next hdigits =>
        simp only [Bool.and_eq_true, decide_eq_true_eq, List.all_eq_true] at hdigits
        exact (ends_ofCode h hlength rfl hdigits.1 hdigits.2).map fun _ _ => hc.advance _
      · exact .malformed
    · split
      · next hbreak => exact ends_emptyLines (hc.lineBreak? hbreak) _
      · exact .malformed

theorem ends_quotedStep (h : c.IsIn t) (quote : Char) :
    Ends (ScanFault t) (fun r => ∀ p ∈ r, p.2.IsIn t) (quotedStep quote c) := by
  rw [quotedStep]
  split
  · exact .malformed
  · next ch rest hrest =>
    split
    · split
      · rintro _ ⟨⟩
        exact h.advance 2
      · rintro _ ⟨⟩
    · split
      · next hescape =>
        simp only [Bool.and_eq_true, decide_eq_true_eq] at hescape
        have hback : '\\' :: c.next.rest <:+ t := by
          rw [Cursor.rest_next, hrest, List.tail_cons, ← hescape.2, ← hrest]
          exact h
        refine (ends_escape hback).map fun r hr => ?_
        rintro _ ⟨⟩
        exact hr
      · split
        · dsimp only
          split
          · next hbreak =>
            refine (ends_emptyLines ((h.skipWhile _).lineBreak? hbreak) _).map fun r hr => ?_
            rintro _ ⟨⟩
            exact hr
          · split
            · exact .malformed
            · rintro _ ⟨⟩
              exact h.skipWhile _
        · rintro _ ⟨⟩
          exact h.next

theorem ends_quotedFrom (h : c.IsIn t) (quote : Char) (n : ℕ) :
    Scans t (quotedFrom quote n c) := by
  induction n generalizing c with
  | zero => exact .malformed
  | succ n ih =>
    rw [quotedFrom]
    refine (ends_quotedStep h quote).bind fun r hr => ?_
    cases r with
    | none => exact h.next
    | some p => exact (ih (hr p rfl)).map fun _ hr => hr

theorem ends_quoted (h : c.IsIn t) (quote : Char) : Scans t (quoted quote c) :=
  ends_quotedFrom h.next quote _

/-! ### Plain scalars -/

theorem isIn_plainLines (h : c.IsIn t) (n : ℕ) : ∀ r ∈ plainLines n c, r.2.IsIn t := by
  induction n generalizing c with
  | zero =>
    rintro _ ⟨⟩
    exact h
  | succ n ih =>
    rw [plainLines]
    split
    · next hbreak =>
      split
      · rintro _ ⟨⟩
      · intro r hr
        obtain ⟨s, hs, rfl⟩ := Option.map_eq_some_iff.mp hr
        exact ih (h.skipSpaces.lineBreak? hbreak) s hs
    · rintro _ ⟨⟩
      exact h.skipSpaces

theorem isIn_gap (h : c.IsIn t) : (gap c).cursor.IsIn t := by
  rw [gap]
  split
  · next hbreak =>
    have hc := h.skipSpaces.lineBreak? hbreak
    split
    · exact hc
    · split
      · next hlines => exact isIn_plainLines hc _ _ hlines
      · exact hc
  · exact h.skipSpaces

theorem isIn_plainFrom (h : c.IsIn t) (inFlow : Bool) (indent : ℤ) (n : ℕ) (before : Text)
    (newLine : Bool) : (plainFrom inFlow indent n before newLine c).2.2.IsIn t := by
  induction n generalizing c before newLine with
  | zero => exact h
  | succ n ih =>
    rw [plainFrom]
    dsimp only
    split
    · exact h
    · have hgap := isIn_gap (h.advance (word inFlow c.rest).length)
      split
      · exact hgap
      · exact ih hgap _ _

theorem isIn_plain (h : c.IsIn t) (inFlow : Bool) (indent : ℤ) :
    (plain inFlow indent c).2.2.IsIn t :=
  isIn_plainFrom h inFlow indent _ _ _

/-- No line ends inside a word. -/
theorem isBreak_of_mem_word {inFlow : Bool} {u : Text} {d : Char} (h : d ∈ word inFlow u) :
    isBreak d = false := by
  induction u with
  | nil => simp [word] at h
  | cons e u ih =>
    rw [word] at h
    split at h
    · simp at h
    · next hstops =>
      rcases List.mem_cons.mp h with rfl | h
      · simp only [stopsPlain, Bool.or_eq_true, not_or] at hstops
        simpa using hstops.1.1.2
      · exact ih h

/-- A plain scalar ends with a word, unless it is empty. -/
theorem getLast?_plainFrom (inFlow : Bool) (indent : ℤ) (n : ℕ) (before : Text) (newLine : Bool)
    (c : Cursor) :
    (plainFrom inFlow indent n before newLine c).1 = [] ∨
      ∃ d, (plainFrom inFlow indent n before newLine c).1.getLast? = some d ∧
        isBreak d = false := by
  induction n generalizing before newLine c with
  | zero => exact .inl rfl
  | succ n ih =>
    rw [plainFrom]
    dsimp only
    split
    · exact .inl rfl
    · next hword =>
      simp only [decide_eq_true_eq, Bool.or_eq_true, not_or] at hword
      have hlast : ∃ d, (before ++ word inFlow c.rest).getLast? = some d ∧ isBreak d = false := by
        obtain ⟨d, hd⟩ := Option.ne_none_iff_exists'.mp (mt List.getLast?_eq_none_iff.mp hword.2)
        exact ⟨d, by simp [hd], isBreak_of_mem_word (List.mem_of_getLast? hd)⟩
      split
      · exact .inr hlast
      · next between _ =>
        dsimp only
        rcases ih between (gap (Cursor.advance (word inFlow c.rest).length c)).newLine
            (gap (Cursor.advance (word inFlow c.rest).length c)).cursor with hnil | ⟨d, hd, hbreak⟩
        · rw [hnil, List.append_nil]
          exact .inr hlast
        · exact .inr ⟨d, by simp [hd], hbreak⟩

/-- A plain scalar does not end with the end of a line. -/
theorem getLast?_plain (inFlow : Bool) (indent : ℤ) (c : Cursor) :
    (plain inFlow indent c).1.getLast? ≠ some '\n' := by
  intro h
  rcases getLast?_plainFrom inFlow indent (c.rest.length + 1) [] false c with hnil | ⟨d, hd, hbreak⟩
  · rw [plain, hnil] at h
    cases h
  · rw [plain, hd] at h
    cases h
    cases hbreak

/-! ### Blocks -/

theorem ends_header (h : c.IsIn t) :
    Ends (ScanFault t) (fun r => r.cursor.IsIn t) (header c) := by
  have hcheck : ∀ r : Header, r.cursor.IsIn t → Ends (ScanFault t) (fun r => r.cursor.IsIn t)
      (if r.increment = some 0 || !isSpaceOrEnd r.cursor.head? then .error .malformed
        else .ok r) := by
    intro r hr
    split
    · exact .malformed
    · exact hr
  refine hcheck _ ?_
  split
  · split
    · exact h.advance 2
    · exact h.next
  · split
    · exact h.advance _
    · exact h

theorem ends_restOfLine (h : c.IsIn t) :
    Ends (ScanFault t) (fun r => r.IsIn t) (restOfLine c) := by
  have hin : (if c.skipSpaces.head? = some '#' then c.skipSpaces.skipLine
      else c.skipSpaces).IsIn t := by
    split
    · exact h.skipSpaces.skipLine
    · exact h.skipSpaces
  unfold restOfLine
  dsimp only
  generalize (if c.skipSpaces.head? = some '#' then c.skipSpaces.skipLine
    else c.skipSpaces) = behind at hin ⊢
  split
  · next hbreak => exact hin.lineBreak? hbreak
  · split
    · exact hin
    · exact .malformed

theorem isIn_leadingLines (h : c.IsIn t) (n deepest : ℕ) :
    (leadingLines n deepest c).2.2.IsIn t := by
  induction n generalizing c deepest with
  | zero => exact h
  | succ n ih =>
    rw [leadingLines]
    dsimp only
    split
    · next hbreak => exact ih (h.skipSpaces.lineBreak? hbreak) _
    · exact h.skipSpaces

theorem isIn_skipTo (h : c.IsIn t) (column : ℕ) : (skipTo column c).IsIn t := h.advance _

theorem isIn_shortLines (h : c.IsIn t) (column n : ℕ) : (shortLines column n c).2.IsIn t := by
  induction n generalizing c with
  | zero => exact h
  | succ n ih =>
    rw [shortLines]
    dsimp only
    split
    · next hbreak => exact ih ((isIn_skipTo h column).lineBreak? hbreak)
    · exact isIn_skipTo h column

theorem isIn_blockFrom (h : c.IsIn t) (folded : Bool) (chomping : Chomping) (column n : ℕ)
    (last breaks : Text) : (blockFrom folded chomping column n last breaks c).2.IsIn t := by
  induction n generalizing c last breaks with
  | zero => exact h
  | succ n ih =>
    rw [blockFrom]
    dsimp only
    split
    · exact h
    · refine ih (isIn_shortLines ?_ _ _) _ _
      split
      · next hbreak => exact (h.advance _).lineBreak? hbreak
      · exact h.advance _

theorem ends_block (h : c.IsIn t) (folded : Bool) (indent : ℤ) :
    Scans t (block folded indent c) := by
  rw [block]
  refine (ends_header h.next).bind fun r hr => ?_
  refine (ends_restOfLine hr).bind fun c hc => ?_
  dsimp only
  split
  · exact isIn_blockFrom (isIn_shortLines hc _ _) _ _ _ _ _ _
  · exact isIn_blockFrom (isIn_leadingLines hc _ _) _ _ _ _ _ _

end Scalar

end Pageloom.Yaml
