import Pageloom.Proofs.Yaml.Scalar
import Pageloom.Yaml.Token

/-!
# What the tokens of a text can be

The tokens of a text may end with a fault. It says that the text is malformed, or stands for an
escape that the text holds, whatever is open at that point.

The tokens that were read only grow. Sound tokens are added at the end, and the colon of a key puts
one or two in front of the key, none of which holds anything of the text. The invariant is that of
the state in which tokens are read: the cursor stands in the text, and the tokens have grown out of
those at an earlier point. Every step keeps it or fails with a fault of the text.

## Main definitions

* `Token.IsSound`: a token that the text may have.
* `Token.Grows`: the tokens that can come of others.
* `Lexing.Extends`: the invariant.

## Main results

* `Lexing.Extends.dispatch`, `Lexing.Extends.step`: one step keeps the invariant.
* `Lexing.Extends.run`: what the tokens of a whole run can be.
* `Token.isSound_ofText`: all tokens of a text are sound.
-/

namespace Pageloom.Yaml

variable {t : Text} {c : Cursor} {f : Fault} {s : Lexing} {k : Token}

/-- A token that the text may have: a fault is one of the text, and a plain scalar does not end with
the end of a line. -/
def Token.IsSound (t : Text) : Token → Prop
  | .fault f => ScanFault t f
  | .scalar true u => u.getLast? ≠ some '\n'
  | _ => True

namespace Token

/-- A token that stands in front of a key or a block and holds nothing of the text. -/
inductive IsOpening : Token → Prop where
  | key : IsOpening .key
  | mapping : IsOpening .blockMappingStart
  | sequence : IsOpening .blockSequenceStart

theorem IsOpening.isSound (h : k.IsOpening) : k.IsSound t := by
  cases h <;> trivial

/-- The tokens, newest first, that can come of others: sound ones are added, and opening ones put in
at any place. -/
inductive Grows (t : Text) (old : List Token) : List Token → Prop where
  | refl : Grows t old old
  | push {ks : List Token} {k : Token} (h : Grows t old ks) (hk : k.IsSound t) :
      Grows t old (k :: ks)
  | insert {ks : List Token} {k : Token} (h : Grows t old ks) (later : ℕ) (hk : k.IsOpening) :
      Grows t old (ks.take later ++ k :: ks.drop later)

/-- What grows out of sound tokens is sound. -/
theorem Grows.isSound {old ks : List Token} (h : Grows t old ks) (hold : ∀ k ∈ old, k.IsSound t) :
    ∀ k ∈ ks, k.IsSound t := by
  induction h with
  | refl => exact hold
  | push _ hk ih => exact List.forall_mem_cons.mpr ⟨hk, ih⟩
  | insert _ later hk ih =>
    refine List.forall_mem_append.mpr ⟨fun u hu => ih u (List.mem_of_mem_take hu), ?_⟩
    exact List.forall_mem_cons.mpr ⟨hk.isSound, fun u hu => ih u (List.mem_of_mem_drop hu)⟩

end Token

namespace Lexing

variable {old : List Token}

/-- The cursor stands in the text, and the tokens have grown out of the old ones. -/
structure Extends (t : Text) (old : List Token) (s : Lexing) : Prop where
  cursor : s.cursor.IsIn t
  tokens : Token.Grows t old s.tokens

/-- The tokens of a whole run: all that have grown out of the old ones, or some of these and a fault
behind them. -/
def IsComplete (t : Text) (old ts : List Token) : Prop :=
  ∃ ks, Token.Grows t old ks ∧
    (ts = ks.reverse ∨ ∃ decided f, ScanFault t f ∧ ts = ks.reverse.take decided ++ [.fault f])

/-- The outcome of a step: it keeps the invariant, or the text is at fault. -/
abbrev Steps (t : Text) (old : List Token) (step : Except Fault Lexing) : Prop :=
  Ends (ScanFault t) (Extends t old) step

/-- The outcome of reading one token. -/
abbrev Reads (t : Text) (read : Except Fault (Token × Cursor)) : Prop :=
  Ends (ScanFault t) (fun r => r.1.IsSound t ∧ r.2.IsIn t) read

/-! ### Changes of the state -/

namespace Extends

theorem push (h : s.Extends t old) (hk : k.IsSound t) : (s.push k).Extends t old :=
  ⟨h.cursor, h.tokens.push hk⟩

theorem insert (h : s.Extends t old) (number : ℕ) (hk : k.IsOpening) :
    (s.insert number k).Extends t old :=
  ⟨h.cursor, h.tokens.insert _ hk⟩

theorem moveTo (h : s.Extends t old) (hc : c.IsIn t) : (s.moveTo c).Extends t old := ⟨hc, h.tokens⟩

theorem allow (h : s.Extends t old) (b : Bool) : (s.allow b).Extends t old := ⟨h.cursor, h.tokens⟩

theorem take (h : s.Extends t old) (length : ℕ) (hk : k.IsSound t) :
    (s.take length k).Extends t old :=
  (h.push hk).moveTo (h.cursor.advance length)

theorem unwindFrom (h : s.Extends t old) (column : ℤ) (indents : List ℕ) :
    (Lexing.unwindFrom column indents s).Extends t old := by
  induction indents generalizing s with
  | nil => exact ⟨h.cursor, h.tokens⟩
  | cons i indents ih =>
    rw [Lexing.unwindFrom]
    split
    · exact ih (h.push trivial)
    · exact ⟨h.cursor, h.tokens⟩

theorem unwind (h : s.Extends t old) (column : ℤ) : (s.unwind column).Extends t old := by
  rw [Lexing.unwind]
  split
  · exact h
  · exact h.unwindFrom column _

theorem openBlock (h : s.Extends t old) (number column : ℕ) (hk : k.IsOpening) :
    (s.openBlock number column k).Extends t old := by
  rw [Lexing.openBlock]
  split
  · exact ⟨h.cursor, (h.insert number hk).tokens⟩
  · exact h

theorem skipBlanks (h : s.Extends t old) (n : ℕ) : (Lexing.skipBlanks n s).Extends t old := by
  induction n generalizing s with
  | zero => exact h
  | succ n ih =>
    have hc : (if s.cursor.skipSpaces.head? = some '#' then s.cursor.skipSpaces.skipLine
        else s.cursor.skipSpaces).IsIn t := by
      split
      · exact h.cursor.skipSpaces.skipLine
      · exact h.cursor.skipSpaces
    rw [Lexing.skipBlanks]
    generalize (if s.cursor.skipSpaces.head? = some '#' then s.cursor.skipSpaces.skipLine
        else s.cursor.skipSpaces) = c at hc ⊢
    split
    · next hbreak => exact ih ⟨hc.lineBreak? hbreak, h.tokens⟩
    · exact h.moveTo hc

theorem skip (h : s.Extends t old) : s.skip.Extends t old := by
  refine skipBlanks ?_ _
  split
  · exact h.moveTo h.cursor.next
  · exact h

theorem failing (h : s.Extends t old) (hf : ScanFault t f) : IsComplete t old (s.failing f) :=
  ⟨s.tokens, h.tokens, .inr ⟨_, f, hf, rfl⟩⟩

/-! ### Possible keys -/

theorem dropStale (h : s.Extends t old) : Steps t old s.dropStale := by
  rw [Lexing.dropStale]
  split
  · exact .malformed
  · exact ⟨h.cursor, h.tokens⟩

theorem dropKey (h : s.Extends t old) : Steps t old s.dropKey := by
  rw [Lexing.dropKey]
  split
  · split
    · exact .malformed
    · exact ⟨h.cursor, h.tokens⟩
  · exact h

theorem markKey (h : s.Extends t old) : Steps t old s.markKey := by
  rw [Lexing.markKey]
  split
  · exact h
  · exact h.dropKey.map fun _ hs => ⟨hs.cursor, hs.tokens⟩

end Extends

/-! ### Directives, tags and labels -/

theorem isIn_number? (h : c.IsIn t) : ∀ r ∈ number? c, r.2.IsIn t := by
  rw [number?]
  split
  · rintro _ ⟨⟩
  · rintro _ ⟨⟩
    exact h.advance _

theorem ends_escapedBytes (h : c.IsIn t) (n : ℕ) :
    Ends (ScanFault t) (fun r => r.2.IsIn t) (escapedBytes n c) := by
  induction n generalizing c with
  | zero => exact h
  | succ n ih =>
    rw [escapedBytes]
    split
    · split
      · exact (ih (h.advance 3)).map fun _ hr => hr
      · exact .malformed
    · exact .malformed
    · exact h

theorem ends_tagText (h : c.IsIn t) (n : ℕ) : Scans t (tagText n c) := by
  induction n generalizing c with
  | zero => exact h
  | succ n ih =>
    rw [tagText]
    split
    · refine (ends_escapedBytes h _).bind fun r hr => ?_
      dsimp only
      split
      · exact .malformed
      · exact (ih hr).bind fun _ hr => hr
    · split
      · exact (ih h.next).map fun _ hr => hr
      · exact h
    · exact h

theorem ends_uri (h : c.IsIn t) : Scans t (uri c) := by
  rw [uri]
  refine (ends_tagText h _).bind fun r hr => ?_
  dsimp only
  split
  · exact .malformed
  · exact hr

theorem ends_handle (h : c.IsIn t) : Scans t (handle c) := by
  rw [handle]
  split
  · exact h.next
  · dsimp only
    split
    · exact h.advance _
    · exact .malformed
  · exact .malformed

theorem ends_versionDirective (h : c.IsIn t) : Reads t (versionDirective c) := by
  rw [versionDirective]
  split
  · next major c' hmajor =>
    have hc' := isIn_number? h.skipSpaces _ hmajor
    split
    · next hminor =>
      split at hminor
      · split
        · exact ⟨trivial, isIn_number? hc'.next _ hminor⟩
        · exact .malformed
      · cases hminor
    · exact .malformed
  · exact .malformed

theorem ends_handleDirective (h : c.IsIn t) : Reads t (handleDirective c) := by
  rw [handleDirective]
  refine (ends_handle h.skipSpaces).bind fun r hr => ?_
  dsimp only
  split
  · exact .malformed
  · refine (ends_uri hr.skipSpaces).bind fun r hr => ?_
    split
    · exact ⟨trivial, hr⟩
    · exact .malformed

theorem ends_directive (h : c.IsIn t) : Reads t (directive c) := by
  have hname : (c.next.advance (c.next.run isWordChar).length).IsIn t := h.next.advance _
  rw [directive]
  dsimp only
  split
  · exact .malformed
  · refine Ends.bind (P := fun r => r.1.IsSound t ∧ r.2.IsIn t) ?_ fun r hr => ?_
    · split
      · exact ends_versionDirective hname
      · split
        · exact ends_handleDirective hname
        · exact ⟨trivial, hname.skipLine⟩
    · exact (Scalar.ends_restOfLine hr.2).map fun _ hc => ⟨hr.1, hc⟩

theorem ends_label (h : c.IsIn t) : Scans t (label c) := by
  rw [label]
  split
  · exact h.next.advance _
  · exact .malformed

theorem ends_openTag (h : c.IsIn t) : Reads t (openTag c) := by
  rw [openTag]
  dsimp only
  split
  · refine (ends_uri (h.advance 2)).bind fun r hr => ?_
    split
    · exact ⟨trivial, hr.next⟩
    · exact .malformed
  · split
    · exact ⟨trivial, h.next⟩
    · split
      · refine (ends_handle h).bind fun r hr => ?_
        exact (ends_uri hr).map fun _ hr => ⟨trivial, hr⟩
      · exact (ends_uri h.next).map fun _ hr => ⟨trivial, hr⟩

theorem ends_tag (h : c.IsIn t) : Reads t (tag c) := by
  rw [tag]
  refine (ends_openTag h).bind fun r hr => ?_
  dsimp only
  split
  · exact hr
  · exact .malformed

/-! ### Steps -/

namespace Extends

theorem takeSeparator (h : s.Extends t old) (length : ℕ) (hk : k.IsSound t) :
    Steps t old (s.takeSeparator length k) :=
  (h.unwind _).dropKey.map fun _ hs => (hs.allow false).take length hk

theorem openFlow (h : s.Extends t old) (hk : k.IsSound t) : Steps t old (s.openFlow k) :=
  h.markKey.map fun _ hs =>
    have hs := (hs.allow true).take 1 hk
    ⟨hs.cursor, hs.tokens⟩

theorem closeFlow (h : s.Extends t old) (hk : k.IsSound t) : Steps t old (s.closeFlow k) := by
  refine h.dropKey.map fun s hs => ?_
  have hs := (hs.allow false).take 1 hk
  dsimp only
  split
  · exact ⟨hs.cursor, hs.tokens⟩
  · exact (hs.push (k := .fault .malformed) .malformed).moveTo List.nil_suffix

theorem blockEntry (h : s.Extends t old) : Steps t old s.blockEntry := by
  rw [Lexing.blockEntry]
  split
  · exact .malformed
  · refine ((Extends.allow ?_ true).dropKey).map fun _ hs => hs.take 1 trivial
    split
    · exact h
    · exact h.openBlock _ _ .sequence

theorem explicitKey (h : s.Extends t old) : Steps t old s.explicitKey := by
  rw [Lexing.explicitKey]
  split
  · exact .malformed
  · refine ((Extends.allow ?_ _).dropKey).map fun _ hs => hs.take 1 trivial
    split
    · exact h
    · exact h.openBlock _ _ .mapping

theorem colon (h : s.Extends t old) : Steps t old s.colon := by
  rw [Lexing.colon]
  split
  · next k ks _ =>
    have hkey : ({ s with keys := none :: ks }.insert k.number .key).Extends t old :=
      insert (s := { s with keys := none :: ks }) ⟨h.cursor, h.tokens⟩ _ .key
    refine (Extends.allow ?_ false).take 1 trivial
    split
    · exact hkey
    · exact hkey.openBlock _ _ .mapping
  · split
    · exact .malformed
    · refine ((Extends.allow ?_ _).dropKey).map fun _ hs => hs.take 1 trivial
      split
      · exact h
      · exact h.openBlock _ _ .mapping

theorem node (h : s.Extends t old) {scan : Cursor → Except Fault (Token × Cursor)}
    (hscan : ∀ c, c.IsIn t → Reads t (scan c)) : Steps t old (s.node scan) := by
  rw [Lexing.node]
  refine h.markKey.bind fun s hs => ?_
  refine (hscan _ hs.cursor).bind fun r hr => ?_
  exact ((hs.allow false).push hr.1).moveTo hr.2

theorem blockScalar (h : s.Extends t old) (folded : Bool) : Steps t old (s.blockScalar folded) := by
  rw [Lexing.blockScalar]
  refine (h.allow true).dropKey.bind fun s hs => ?_
  refine (Scalar.ends_block hs.cursor _ _).bind fun r hr => ?_
  exact (hs.push (k := .scalar false r.1) trivial).moveTo hr

theorem plain (h : s.Extends t old) : Steps t old s.plain :=
  h.markKey.map fun s hs =>
    ((hs.allow _).push (k := .scalar true _)
      (Scalar.getLast?_plain s.inFlow (s.indent + 1) s.cursor)).moveTo
      (Scalar.isIn_plain hs.cursor _ _)

/-- One step keeps the invariant, whichever token begins. -/
theorem dispatch (h : s.Extends t old) (ch : Char) : Steps t old (Lexing.dispatch ch s) := by
  have hlabel (c : Cursor) (hc : c.IsIn t) (make : Text → Token)
      (hmake : ∀ u, (make u).IsSound t) :
      Reads t ((label c).map fun r => (make r.1, r.2)) :=
    (ends_label hc).map fun r hr => ⟨hmake r.1, hr⟩
  have hquoted (c : Cursor) (hc : c.IsIn t) :
      Reads t ((Scalar.quoted ch c).map fun r => (.scalar false r.1, r.2)) :=
    (Scalar.ends_quoted hc ch).map fun r hr => ⟨trivial, hr⟩
  rw [Lexing.dispatch]
  refine .ite ?_ ?_
  · refine (h.unwind _).dropKey.bind fun s hs => ?_
    refine (ends_directive hs.cursor).bind fun r hr => ?_
    exact ((hs.allow false).push hr.1).moveTo hr.2
  refine .ite (h.takeSeparator 3 trivial) ?_
  refine .ite (h.takeSeparator 3 trivial) ?_
  refine .ite (h.openFlow trivial) ?_
  refine .ite (h.openFlow trivial) ?_
  refine .ite (h.closeFlow trivial) ?_
  refine .ite (h.closeFlow trivial) ?_
  refine .ite ((h.allow true).dropKey.map fun _ hs => hs.take 1 trivial) ?_
  refine .ite h.blockEntry ?_
  refine .ite h.explicitKey ?_
  refine .ite h.colon ?_
  refine .ite (h.node fun c hc => hlabel c hc .reference fun _ => trivial) ?_
  refine .ite (h.node fun c hc => hlabel c hc .anchor fun _ => trivial) ?_
  refine .ite (h.node fun _ => ends_tag) ?_
  refine .ite (h.blockScalar false) ?_
  refine .ite (h.blockScalar true) ?_
  refine .ite (h.node hquoted) ?_
  exact .ite h.plain .malformed

theorem finish (h : s.Extends t old) : Ends (ScanFault t) (IsComplete t old) s.finish :=
  (h.unwind _).dropKey.map fun _ hs =>
    ⟨_, (hs.push (k := .streamEnd) trivial).tokens, .inl rfl⟩

/-- A step that reads one more token keeps the invariant, and one that ends the tokens completes
them. -/
theorem step (h : s.Extends t old) :
    Ends (ScanFault t) (Sum.elim (Extends t old) (IsComplete t old)) s.step := by
  rw [Lexing.step]
  refine h.skip.dropStale.bind fun s hs => ?_
  split
  · exact hs.finish.map fun _ hts => hts
  · exact ((hs.unwind _).dispatch _).map fun _ hs => hs

/-- **What the tokens of a run can be.** -/
theorem run (h : s.Extends t old) (n : ℕ) : IsComplete t old (Lexing.run n s) := by
  induction n generalizing s with
  | zero => exact h.failing .malformed
  | succ n ih =>
    rw [Lexing.run]
    have hstale := h.dropStale
    split
    · next hs => exact h.failing (hstale.fault hs)
    · next s' hs =>
      rw [hs] at hstale
      have hstep := Extends.step hstale
      split
      · next hs => exact Extends.failing hstale (hstep.fault hs)
      · next hs =>
        rw [hs] at hstep
        exact ih hstep
      · next hs =>
        rw [hs] at hstep
        exact hstep

end Extends

/-- The tokens of a whole run are sound if the old ones are. -/
theorem IsComplete.isSound {ts : List Token} (h : IsComplete t old ts)
    (hold : ∀ k ∈ old, k.IsSound t) : ∀ k ∈ ts, k.IsSound t := by
  obtain ⟨ks, hks, rfl | ⟨decided, f, hf, rfl⟩⟩ := h
  · exact fun k hk => hks.isSound hold k (List.mem_reverse.mp hk)
  · refine List.forall_mem_append.mpr ⟨fun k hk => ?_, List.forall_mem_singleton.mpr hf⟩
    exact hks.isSound hold k (List.mem_reverse.mp (List.mem_of_mem_take hk))

end Lexing

/-- **The tokens of a text are sound.** A fault among them is one of the text. -/
theorem Token.isSound_ofText (t : Text) : ∀ u ∈ Token.ofText t, u.IsSound t := by
  rw [Token.ofText]
  split
  · have hstart : Lexing.Extends t [] { cursor := { rest := t } } := ⟨List.suffix_rfl, .refl⟩
    exact (hstart.run _).isSound (by simp)
  · intro u hu
    rw [List.mem_singleton.mp hu]
    exact ScanFault.malformed

end Pageloom.Yaml
