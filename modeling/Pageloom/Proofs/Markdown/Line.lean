import Pageloom.Markdown.Line
import Pageloom.Proofs.Markdown.InlineReader

/-!
# Words on a line

What a line begins is decided by its first characters, and a container drops some of them: marks,
numbers and blanks. None of these is a brace, so a word on the line stays on it. The line that a
word is on does not underline a heading, and is neither a divider nor blank; it is a fence only if
the fence comes before the word.

## Main definitions

* `Line.lineMarks`: what must not come before a word on its line.
* `Line.Trims`: a text without some characters before a word, with spaces in their place.

## Main results

* `Line.Trims.stands`: a word stays when a line is trimmed.
* `Line.trims_dropSpaces`, `Line.trims_tabTo`, `Line.trims_widenTab`, `Line.trims_of_quoted?`,
  `Line.trims_of_item?`: how lines are trimmed.
* `Line.not_stands_of_fence?`, `Line.stands_of_heading?`: what the line of a word may be.
-/

namespace Pageloom.Markdown.Line

open InlineReader (targetMarks)

/-- What must not come before a word on its line: besides targets and images, a fence of code. -/
def lineMarks : List Text := ["](", "![", "\x60\x60\x60", "~~~"]

/-- The second text is the first one without some of the characters before its first brace, and with
spaces in their place. -/
def Trims (t u : Text) : Prop :=
  ∃ (n : ℕ) (a b : Text), t = a ++ b ∧ u = List.replicate n ' ' ++ b ∧ '\x7b' ∉ a

variable {w t u v rest : Text} {marks : List Text} {n : ℕ}

theorem targetMarks_subset : targetMarks ⊆ lineMarks := by decide

/-! ### Trimming -/

theorem Trims.refl (t : Text) : Trims t t := ⟨0, [], t, rfl, rfl, List.not_mem_nil⟩

theorem trims_append {a : Text} (h : '\x7b' ∉ a) (b : Text) : Trims (a ++ b) b :=
  ⟨0, a, b, rfl, rfl, h⟩

theorem Trims.trans (h : Trims t u) (h' : Trims u v) : Trims t v := by
  obtain ⟨n, a, b, rfl, rfl, ha⟩ := h
  obtain ⟨m, a', b', heq, rfl, ha'⟩ := h'
  rcases List.append_eq_append_iff.mp heq with ⟨x, rfl, rfl⟩ | ⟨x, hspaces, rfl⟩
  · have hx : '\x7b' ∉ x := fun hmem => ha' (List.mem_append_right _ hmem)
    exact ⟨m, a ++ x, b', by simp, rfl, by simp [ha, hx]⟩
  · obtain ⟨k, rfl⟩ : ∃ k, x = List.replicate k ' ' :=
      ⟨x.length, List.eq_replicate_of_mem fun c hc => by
        have : c ∈ List.replicate n ' ' := hspaces ▸ List.mem_append_right a' hc
        exact List.eq_of_mem_replicate this⟩
    exact ⟨m + k, a, b, rfl, by rw [← List.append_assoc, List.replicate_append_replicate], ha⟩

/-- A word stays when a line is trimmed, and no mark comes before it. -/
theorem Trims.stands (h : Trims t u) (hw : IsWord w) (hspace : ∀ mark ∈ marks, ' ' ∉ mark)
    (hne : [] ∉ marks) (ht : Text.Stands marks w t) : Text.Stands marks w u := by
  obtain ⟨n, a, b, rfl, rfl, ha⟩ := h
  exact (ht.of_append hw.head ha).replicate_append hspace hne n

theorem Trims.avoids (h : Trims t u) (hspace : ∀ mark ∈ marks, ' ' ∉ mark) (hne : [] ∉ marks)
    (ht : Text.Avoids marks t) : Text.Avoids marks u := by
  obtain ⟨n, a, b, rfl, rfl, -⟩ := h
  exact (ht.of_isInfix (List.suffix_append a b).isInfix).replicate_append hspace hne n

theorem Trims.isBlank (h : Trims t u) (ht : isBlank t) : isBlank u := by
  obtain ⟨n, a, b, rfl, rfl, -⟩ := h
  rw [Line.isBlank, List.all_append, Bool.and_eq_true] at ht ⊢
  exact ⟨List.all_eq_true.mpr fun c hc => by rw [List.eq_of_mem_replicate hc]; decide, ht.2⟩

theorem take_indent (t : Text) : t.take (indent t) = List.replicate (indent t) ' ' := by
  rw [indent, ← List.prefix_iff_eq_take.mp (List.takeWhile_prefix _)]
  exact List.eq_replicate_of_mem fun c hc => by
    simpa using List.mem_takeWhile_imp (p := (· == ' ')) hc

theorem brace_notMem_replicate_space (n : ℕ) : '\x7b' ∉ List.replicate n ' ' := fun h => by
  cases List.eq_of_mem_replicate h

theorem trims_drop (h : n ≤ indent t) : Trims t (t.drop n) := by
  have htake : t.take n = List.replicate n ' ' := by
    rw [← Nat.min_eq_left h, ← List.take_take, take_indent, List.take_replicate]
  conv => lhs; rw [← List.take_append_drop n t, htake]
  exact trims_append (brace_notMem_replicate_space n) _

theorem trims_dropSpaces (n : ℕ) (t : Text) : Trims t (dropSpaces n t) := by
  fun_induction dropSpaces n t with
  | case1 n cs ih => exact (trims_append (a := [' ']) (by decide) cs).trans ih
  | case2 => exact .refl _

theorem trims_expandTabBy (width : ℕ → ℕ) (t : Text) : Trims t (expandTabBy width t) := by
  unfold expandTabBy
  dsimp only
  split
  · next cs hcs =>
    split
    · refine ⟨indent t + width (indent t), t.take (indent t) ++ ['\t'], cs, ?_, ?_, ?_⟩
      · rw [List.append_assoc, List.singleton_append, ← hcs, List.take_append_drop]
      · rw [take_indent, List.replicate_append_replicate]
      · rw [take_indent]
        simp
    · exact .refl t
  · exact .refl t

theorem trims_tabTo (column : ℕ) (t : Text) : Trims t (tabTo column t) := trims_expandTabBy _ t

theorem trims_widenTab (t : Text) : Trims t (widenTab t) := trims_expandTabBy _ t

/-! ### Forms that a line may have -/

theorem outdented?_eq_some {limit : ℕ} (h : outdented? limit t = some rest) :
    t = List.replicate (indent t) ' ' ++ rest := by
  unfold outdented? at h
  split at h
  · cases h
    rw [← take_indent, List.take_append_drop]
  · cases h

theorem trims_of_outdented? {limit : ℕ} (h : outdented? limit t = some rest) : Trims t rest := by
  rw [outdented?_eq_some h]
  exact trims_append (brace_notMem_replicate_space _) rest

theorem brace_notMem_of_outdented? {limit : ℕ} (h : outdented? limit t = some rest)
    (hrest : '\x7b' ∉ rest) : '\x7b' ∉ t := by
  rw [outdented?_eq_some h, List.mem_append, not_or]
  exact ⟨brace_notMem_replicate_space _, hrest⟩

/-- A fence has three marks, behind spaces. -/
theorem fence?_eq_some {f : Fence} (h : fence? t = some f) : (f.mark = '\x60' ∨ f.mark = '~') ∧
    ∃ rest, t = List.replicate (indent t) ' ' ++ (List.replicate 3 f.mark ++ rest) := by
  obtain ⟨shown, houtdented, hfence⟩ := Option.bind_eq_some_iff.mp h
  split at hfence
  · next c cs =>
    dsimp only at hfence
    split at hfence
    · next hmark =>
      simp only [Bool.and_eq_true, Bool.or_eq_true, decide_eq_true_eq] at hmark
      obtain ⟨hc, hcount⟩ := hmark
      generalize hrun : (c :: cs).takeWhile (· == c) = run at hfence hcount
      cases hfence
      have hall : run = List.replicate run.length c := List.eq_replicate_of_mem fun d hd => by
        simpa using List.mem_takeWhile_imp (p := (· == c)) (hrun ▸ hd)
      refine ⟨hc, List.replicate (run.length - 3) c ++ (c :: cs).dropWhile (· == c), ?_⟩
      rw [← List.append_assoc (List.replicate 3 c), List.replicate_append_replicate,
        Nat.add_sub_cancel' hcount, ← hall, ← hrun, List.takeWhile_append_dropWhile]
      exact outdented?_eq_some houtdented
    · cases hfence
  · cases hfence

/-- A fence comes before all words on its line. -/
theorem not_stands_of_fence? {f : Fence} (hw : IsWord w) (h : fence? t = some f) :
    ¬ Text.Stands lineMarks w t := by
  intro hstands
  obtain ⟨hmark, rest, ht⟩ := fence?_eq_some h
  rw [ht] at hstands
  have hrest := hstands.of_append hw.head (brace_notMem_replicate_space _)
  have hmem : List.replicate 3 f.mark ∈ lineMarks := by
    rcases hmark with h | h <;> rw [h] <;> decide
  have hbrace : '\x7b' ∉ List.replicate 3 f.mark := by
    rcases hmark with h | h <;> rw [h] <;> decide
  exact Text.not_stands_of_mark hmem hw.head hbrace hrest

theorem trims_of_quoted? {limit : ℕ} (h : quoted? limit t = some rest) : Trims t rest := by
  obtain ⟨shown, houtdented, hquoted⟩ := Option.bind_eq_some_iff.mp h
  split at hquoted
  · cases hquoted
    exact (trims_of_outdented? houtdented).trans (trims_append (a := ['>']) (by decide) rest)
  · cases hquoted

/-- The bullet of an item stands behind spaces and digits. -/
theorem item?_eq_some {limit : ℕ} {b : Bullet} (h : item? limit t = some b) :
    ∃ front, t = front ++ b.mark :: b.rest ∧ '\x7b' ∉ front ∧
      (isDelimiter b.mark ∨ isMark b.mark) := by
  obtain ⟨shown, houtdented, hitem⟩ := Option.bind_eq_some_iff.mp h
  dsimp only at hitem
  split at hitem
  · next c cs hcs =>
    split at hitem
    · next hmark =>
      cases hitem
      simp only [Bool.and_eq_true, Bool.or_eq_true] at hmark
      have hdigits : '\x7b' ∉ shown.takeWhile isDecimal := fun hmem =>
        absurd (List.mem_takeWhile_imp hmem) (by decide)
      refine ⟨List.replicate (indent t) ' ' ++ shown.takeWhile isDecimal, ?_, ?_,
        hmark.2.imp_right And.right⟩
      · rw [List.append_assoc, ← hcs, takeWhile_append_drop]
        exact outdented?_eq_some houtdented
      · rw [List.mem_append, not_or]
        exact ⟨brace_notMem_replicate_space _, hdigits⟩
    · cases hitem
  · cases hitem

theorem trims_of_item? {limit : ℕ} {b : Bullet} (h : item? limit t = some b) : Trims t b.rest := by
  obtain ⟨front, ht, hfront, hmark⟩ := item?_eq_some h
  have hbrace : '\x7b' ≠ b.mark := by
    intro hbrace
    rw [← hbrace] at hmark
    exact absurd hmark (by decide)
  rw [ht, ← List.singleton_append (l := b.rest), ← List.append_assoc]
  exact trims_append (by simp [hfront, hbrace]) b.rest

theorem trims_of_bullet? {limit : ℕ} {b : Bullet} (h : bullet? limit t = some b) :
    Trims t b.rest :=
  trims_of_item? (Option.filter_eq_some_iff.mp h).1

theorem brace_notMem_of_underline? (h : underline? t = some n) : '\x7b' ∉ t := by
  obtain ⟨rest, houtdented, hunderline⟩ := Option.bind_eq_some_iff.mp h
  refine brace_notMem_of_outdented? houtdented ?_
  obtain ⟨tail, htail, hspaces⟩ := Text.exists_trimEnd_append isSpace rest
  rw [htail, List.mem_append, not_or]
  refine ⟨?_, fun hmem => absurd (hspaces _ hmem) (by decide)⟩
  split at hunderline
  · next c cs hcs =>
    split at hunderline
    · next hmark =>
      simp only [Bool.and_eq_true, Bool.or_eq_true, decide_eq_true_eq, List.all_eq_true,
        beq_iff_eq] at hmark
      have hall : ∀ d ∈ c :: cs, d = c := List.forall_mem_cons.mpr ⟨rfl, hmark.2⟩
      intro hmem
      rcases hmark.1 with rfl | rfl <;> cases hall _ (hcs ▸ hmem)
    · cases hunderline
  · cases hunderline

theorem brace_notMem_of_isDivider {limit : ℕ} (h : isDivider limit t) : '\x7b' ∉ t := by
  obtain ⟨rest, houtdented, hdivider⟩ := (Option.any_eq_true _ _).mp h
  refine brace_notMem_of_outdented? houtdented fun hmem => ?_
  split at hdivider
  · next c cs =>
    simp only [Bool.and_eq_true, Bool.or_eq_true, decide_eq_true_eq, List.all_eq_true] at hdivider
    obtain ⟨⟨hc, hall⟩, -⟩ := hdivider
    rcases hall _ hmem with rfl | hspace
    · rcases hc with (hc | hc) | hc <;> cases hc
    · exact absurd hspace (by decide)
  · cases hmem

theorem brace_notMem_of_isBlank (h : isBlank t) : '\x7b' ∉ t := fun hmem =>
  absurd (List.all_eq_true.mp h _ hmem) (by decide)

theorem stands_dropClosing (hw : IsWord w) (ht : Text.Stands marks w t) :
    Text.Stands marks w (dropClosing t) := by
  have hblank : ∀ c ∈ w, Pageloom.isBlank c = false := hw.forall_mem (by decide)
  have hkept : Text.Stands marks w (Text.trimEnd (· == '#') (Text.stripEnd t)) :=
    (ht.trimEnd hw.ne_nil hblank).trimEnd hw.ne_nil (hw.forall_mem (by decide))
  unfold dropClosing
  dsimp only
  split
  · exact ht
  · split
    · next hnone =>
      rw [List.getLast?_eq_none_iff.mp hnone] at hkept
      exact hkept
    · split
      · exact hkept.trimEnd hw.ne_nil hblank
      · exact ht

theorem stands_of_heading? {content : Text} (hw : IsWord w) (h : heading? t = some (n, content))
    (ht : Text.Stands marks w t) : Text.Stands marks w content := by
  obtain ⟨rest, houtdented, hheading⟩ := Option.bind_eq_some_iff.mp h
  rw [outdented?_eq_some houtdented] at ht
  have hrest := ht.of_append hw.head (brace_notMem_replicate_space _)
  dsimp only at hheading
  split at hheading
  · cases hheading
    rw [← takeWhile_append_drop (· == '#') rest] at hrest
    have hbehind := hrest.of_append hw.head fun hmem =>
      absurd (List.mem_takeWhile_imp hmem) (by decide)
    exact stands_dropClosing hw (hbehind.trim hw.ne_nil (hw.forall_mem (by decide)))
  · cases hheading

/-! ### Lines that are not blank -/

theorem isBlank_of_mem {c : Char} (h : c ∈ t) (hc : isLineBlank c = false) : isBlank t = false :=
  List.all_eq_false.mpr ⟨c, h, by simp [hc]⟩

theorem isBlank_of_fence? {f : Fence} (h : fence? t = some f) : isBlank t = false := by
  obtain ⟨hmark, rest, ht⟩ := fence?_eq_some h
  refine isBlank_of_mem (c := f.mark) ?_ (by rcases hmark with h | h <;> rw [h] <;> decide)
  rw [ht]
  simp

theorem isBlank_of_bullet? {limit : ℕ} {b : Bullet} (h : bullet? limit t = some b) :
    isBlank t = false := by
  obtain ⟨front, ht, -, hmark⟩ := item?_eq_some (Option.filter_eq_some_iff.mp h).1
  refine isBlank_of_mem (c := b.mark) (by rw [ht]; simp) ?_
  simp only [isDelimiter, isMark, Bool.or_eq_true, decide_eq_true_eq] at hmark
  rcases hmark with (h | h) | (h | h) | h <;> rw [h] <;> decide

theorem isBlank_of_isIndented (h : isIndented t) : isBlank t = false := by
  rw [isIndented, Bool.and_eq_true, Bool.not_eq_true'] at h
  exact h.1

theorem isBlank_of_htmlBlock? {limit : ℕ} {block : Tag.HtmlBlock}
    (h : htmlBlock? limit t = some block) : isBlank t = false := by
  obtain ⟨shown, houtdented, hstart⟩ := Option.bind_eq_some_iff.mp h
  have hmem : '<' ∈ shown := by
    unfold Tag.blockStart? at hstart
    split at hstart
    all_goals first | exact List.mem_cons_self | cases hstart
  rw [outdented?_eq_some houtdented]
  exact isBlank_of_mem (List.mem_append_right _ hmem) (by decide)

end Pageloom.Markdown.Line
