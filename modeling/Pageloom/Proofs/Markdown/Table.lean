import Pageloom.Markdown.Table
import Pageloom.Proofs.Markdown.Container
import Pageloom.Proofs.Markdown.Writing

/-!
# Words in tables

The lines of a table all hold a pipe, so none of them is blank. Its frame, the pipes between cells
and the blanks around them are no part of a word, so a word of a row is in one of its cells. The
line of dashes holds no word at all.

## Main definitions

* `Table.Keeps`: a form of lines that keeps their words.

## Main results

* `Table.exists_mem_cells`: a word of a row is in a cell of it.
* `Table.take?_eq_some`: the lines of a table, and that it shows the words on them.
-/

namespace Pageloom.Markdown.Table

open InlineReader (targetMarks)
open Line (lineMarks Awaits)

variable {w t inside : Text} {marks : List Text} {l : Line} {ls : List Line}

/-! ### Cells -/

/-- The first part, and those of what follows the first pipe that separates. -/
theorem exists_splitPipes_eq_cons (previous : Char) (t : Text) :
    ∃ first more, splitPipes previous t = first :: more ∧
      (t = first ∨ ∃ cs, t = first ++ '|' :: cs ∧ more = splitPipes '|' cs) := by
  fun_induction splitPipes previous t with
  | case1 => exact ⟨[], [], rfl, .inl rfl⟩
  | case2 previous c cs hpipe =>
    simp only [Bool.and_eq_true, decide_eq_true_eq] at hpipe
    exact ⟨[], splitPipes c cs, rfl, .inr ⟨cs, by rw [hpipe.1]; rfl, by rw [hpipe.1]⟩⟩
  | case3 previous c cs _ hnil ih =>
    obtain ⟨first, more, hparts, -⟩ := ih
    rw [hnil] at hparts
    cases hparts
  | case4 previous c cs _ part parts hcons ih =>
    obtain ⟨first, more, hparts, hfirst⟩ := ih
    rw [hcons] at hparts
    cases hparts
    refine ⟨c :: part, parts, rfl, hfirst.imp (congrArg (c :: ·)) ?_⟩
    rintro ⟨rest, rfl, hmore⟩
    exact ⟨rest, rfl, hmore⟩

/-- A word is in one of the parts between pipes. -/
theorem exists_mem_splitPipes (hw : IsWord w) (previous : Char) (h : Text.Stands marks w t) :
    ∃ part ∈ splitPipes previous t, Text.Stands marks w part := by
  have hpipe : '|' ∉ w := hw.notMem (by decide)
  induction hn : t.length using Nat.strongRecOn generalizing t previous with
  | ind n ih =>
    obtain ⟨first, more, hparts, ht⟩ := exists_splitPipes_eq_cons previous t
    rw [hparts]
    rcases ht with rfl | ⟨cs, rfl, rfl⟩
    · exact ⟨t, List.mem_cons_self, h⟩
    · rcases h.split (.inr fun c hc => by cases hc; exact hpipe) with hfirst | hbehind
      · exact ⟨first, List.mem_cons_self, hfirst⟩
      · have hcs := hbehind.of_append (a := ['|']) hw.head (by decide)
        have hlength : cs.length < n := by
          rw [← hn, List.length_append, List.length_cons]
          omega
        obtain ⟨part, hpart, hstands⟩ := ih _ hlength '|' hcs rfl
        exact ⟨part, List.mem_cons_of_mem _ hpart, hstands⟩

theorem stands_strip (hw : IsWord w) (h : Text.Stands marks w t) :
    Text.Stands marks w (Text.strip t) :=
  h.trim hw.ne_nil (hw.forall_mem (by decide))

/-- **A word of a row** is in one of its cells. -/
theorem exists_mem_cells (hw : IsWord w) (h : Text.Stands marks w t) :
    ∃ cell ∈ cells t, Text.Stands marks w cell := by
  obtain ⟨part, hpart, hstands⟩ := exists_mem_splitPipes hw ' ' (stands_strip hw h)
  exact ⟨_, List.mem_map_of_mem hpart, stands_strip hw hstands⟩

/-! ### Forms of lines -/

/-- A form of lines that hold a pipe, of which it keeps the words. -/
def Keeps (form : Text → Option Text) : Prop := ∀ t inside, form t = some inside →
  '|' ∈ t ∧ ∀ marks w, IsWord w → Text.Stands marks w t → Text.Stands marks w inside

theorem unframed?_eq_some (h : unframed? t = some inside) : t = '|' :: (inside ++ ['|']) := by
  unfold unframed? at h
  split at h
  · split at h
    · next cs hlast =>
      cases h
      rw [List.dropLast_append_getLast? _ hlast]
    · cases h
  · cases h

theorem keeps_unframed? : Keeps unframed? := by
  intro t inside h
  rw [unframed?_eq_some h]
  refine ⟨List.mem_cons_self, fun marks w hw hstands => ?_⟩
  have hinside := hstands.of_append (a := ['|']) hw.head (by decide)
  refine (hinside.split (.inr fun c hc => ?_)).resolve_right fun hpipe => ?_
  · cases hc
    exact hw.notMem (by decide)
  · exact absurd (Line.brace_mem_of_stands hw hpipe) (by decide)

theorem keeps_framedHead? : Keeps framedHead? := by
  intro t inside h
  obtain ⟨shown, houtdented, hframe⟩ :=
    Option.bind_eq_some_iff.mp (Option.filter_eq_some_iff.mp h).1
  have ⟨hpipe, hkeeps⟩ := keeps_unframed? shown inside hframe
  have htrim := Line.outdented?_eq_some houtdented
  refine ⟨?_, fun marks w hw hstands => hkeeps marks w hw ?_⟩
  · refine (Text.trimEnd_prefix Line.isSpace t).subset ?_
    rw [htrim]
    exact List.mem_append_right _ hpipe
  · have := hstands.trimEnd hw.ne_nil (p := Line.isSpace) (hw.forall_mem (by decide))
    rw [htrim] at this
    exact this.of_append hw.head (Line.brace_notMem_replicate_space _)

theorem keeps_framedRow? : Keeps framedRow? := by
  intro t inside h
  have ⟨hpipe, hkeeps⟩ := keeps_unframed? _ inside h
  exact ⟨Text.mem_of_mem_trim hpipe,
    fun marks w hw hstands => hkeeps marks w hw (stands_strip hw hstands)⟩

theorem keeps_openHead? : Keeps openHead? := by
  intro t inside h
  obtain ⟨houtdented, hhead⟩ := Option.filter_eq_some_iff.mp h
  rw [Line.outdented?_eq_some houtdented]
  refine ⟨List.mem_append_right _ ?_, fun marks w hw hstands =>
    hstands.of_append hw.head (Line.brace_notMem_replicate_space _)⟩
  split at hhead
  · next c cs =>
    rw [Bool.and_eq_true, List.elem_eq_mem, decide_eq_true_eq] at hhead
    exact List.mem_cons_of_mem c hhead.2
  · cases hhead

theorem keeps_openRule? : Keeps openRule? := by
  intro t inside h
  obtain ⟨houtdented, hrule⟩ := Option.filter_eq_some_iff.mp h
  rw [Line.outdented?_eq_some houtdented]
  refine ⟨List.mem_append_right _ ?_, fun marks w hw hstands =>
    hstands.of_append hw.head (Line.brace_notMem_replicate_space _)⟩
  simp only [Bool.and_eq_true, decide_eq_true_eq] at hrule
  exact ((List.dropWhile_suffix _).trans (List.dropWhile_suffix _)).subset
    (List.mem_of_mem_head? hrule.2)

theorem keeps_openRow? : Keeps openRow? := by
  intro t inside h
  unfold openRow? at h
  split at h
  · next hpipe =>
    cases h
    exact ⟨by simpa using hpipe, fun _ _ _ => id⟩
  · cases h

/-- A line of dashes holds no word. -/
def IsRule (form : Text → Option Text) : Prop :=
  Keeps form ∧ ∀ t inside, form t = some inside → '\x7b' ∉ inside

theorem brace_notMem_of_isRuleChar (h : inside.all isRuleChar) : '\x7b' ∉ inside := fun hmem =>
  absurd (List.all_eq_true.mp h _ hmem) (by decide)

theorem isRule_framedRule? : IsRule framedRule? := by
  refine ⟨fun t inside h => keeps_framedHead? t inside (Option.filter_eq_some_iff.mp h).1,
    fun t inside h => ?_⟩
  have hrule := (Option.filter_eq_some_iff.mp h).2
  rw [Bool.and_eq_true] at hrule
  exact brace_notMem_of_isRuleChar hrule.1

theorem isRule_openRule? : IsRule openRule? := by
  refine ⟨keeps_openRule?, fun t inside h => ?_⟩
  have hrule := (Option.filter_eq_some_iff.mp h).2
  rw [Bool.and_eq_true, Bool.and_eq_true] at hrule
  exact brace_notMem_of_isRuleChar hrule.1.1

/-! ### Tables -/

theorem mapM_eq_some {α β : Type} {f : α → Option β} {xs : List α} {ys : List β}
    (h : xs.mapM f = some ys) : ∀ x ∈ xs, ∃ y ∈ ys, f x = some y := by
  induction xs generalizing ys with
  | nil => simp
  | cons x xs ih =>
    rw [List.mapM_cons] at h
    obtain ⟨y, hy, h⟩ := Option.bind_eq_some_iff.mp h
    obtain ⟨more, hmore, ⟨⟩⟩ := Option.bind_eq_some_iff.mp h
    intro x' hx'
    rcases List.mem_cons.mp hx' with rfl | hx'
    · exact ⟨y, List.mem_cons_self, hy⟩
    · obtain ⟨y', hy', heq⟩ := ih hmore x' hx'
      exact ⟨y', List.mem_cons_of_mem y hy', heq⟩

/-- The cells of a row hold its texts. -/
theorem row?_eq_some {aligns : List Block.Align} {texts : List Text} {row : List Block.Cell}
    (h : row? aligns texts = some row) (ht : t ∈ texts) : ∃ cell ∈ row, cell.text = t := by
  unfold row? at h
  split at h
  · next hlength =>
    cases h
    obtain ⟨i, hi, rfl⟩ := List.mem_iff_getElem.mp ht
    exact ⟨_, List.getElem_mem (n := i) (by simpa [hlength] using hi), by simp⟩
  · cases h

/-- A table shows the words in the texts of its head and of its rows. -/
theorem make?_eq_some {head dashes : List Text} {texts : List (List Text)} {b : Block}
    (h : make? head dashes texts = some b) :
    b.isParagraph = false ∧ ((∃ t ∈ head, Text.Stands targetMarks w t) ∨
      (∃ row ∈ texts, ∃ t ∈ row, Text.Stands targetMarks w t) → b.Shows w) := by
  obtain ⟨aligns, -, h⟩ := Option.bind_eq_some_iff.mp h
  obtain ⟨first, hfirst, h⟩ := Option.bind_eq_some_iff.mp h
  obtain ⟨more, hmore, rfl⟩ := Option.map_eq_some_iff.mp h
  refine ⟨rfl, ?_⟩
  rintro (⟨t, ht, hstands⟩ | ⟨row, hrow, t, ht, hstands⟩)
  · obtain ⟨cell, hcell, rfl⟩ := row?_eq_some hfirst ht
    exact .head hcell hstands
  · obtain ⟨cells, hcells, hread⟩ := mapM_eq_some hmore row hrow
    obtain ⟨cell, hcell, rfl⟩ := row?_eq_some hread ht
    exact .row hcells hcell hstands

theorem rows_spec (row? : Text → Option Text) (ls : List Line) :
    ls = (rows row? ls).1.map Prod.fst ++ (rows row? ls).2 ∧
      ∀ entry ∈ (rows row? ls).1, row? entry.1.text = some entry.2 := by
  fun_induction rows row? ls with
  | case1 => simp
  | case2 => simp
  | case3 l ls t hread found rest hrows ih =>
    rw [hrows] at ih
    exact ⟨congrArg (l :: ·) ih.1, List.forall_mem_cons.mpr ⟨hread, ih.2⟩⟩

variable {run : Run} {head? rule? row? : Text → Option Text}

/-- What is known of lines that have the form of a table: none of them is blank, and a table shows
the words on them. -/
structure Spans (w : Text) (l : Line) (ls : List Line) (run : Run) : Prop where
  lines : ∃ used, run.lines = l :: used ∧ ls = used ++ run.rest
  solid : ∀ l ∈ run.lines, Line.isBlank l.text = false
  shows : ∀ b, run.table = some b →
    b.isParagraph = false ∧ (Awaits w True run.lines → b.Shows w)

theorem run?_eq_some (hw : IsWord w) (hhead : Keeps head?) (hrule : IsRule rule?)
    (hrow : Keeps row?) (h : run? head? rule? row? l ls = some run) : Spans w l ls run := by
  unfold run? at h
  split at h
  · next head m ls hl =>
    obtain ⟨rule, hm, hrun⟩ := Option.map_eq_some_iff.mp h
    obtain ⟨hls, hfound⟩ := rows_spec row? ls
    generalize rows row? ls = all at hrun hls hfound
    obtain ⟨found, rest⟩ := all
    cases hrun
    refine ⟨⟨_, rfl, congrArg (m :: ·) hls⟩, ?_, fun b hb => ?_⟩
    · have hpipe {t : Text} (h : '|' ∈ t) : Line.isBlank t = false :=
        Line.isBlank_of_mem h (by decide)
      refine List.forall_mem_cons.mpr ⟨hpipe (hhead _ _ hl).1,
        List.forall_mem_cons.mpr ⟨hpipe (hrule.1 _ _ hm).1, fun k hk => ?_⟩⟩
      obtain ⟨entry, hentry, rfl⟩ := List.mem_map.mp hk
      exact hpipe (hrow _ _ (hfound entry hentry)).1
    · refine ⟨(make?_eq_some (w := w) hb).1, fun hawaits => (make?_eq_some hb).2 ?_⟩
      obtain ⟨k, hk, hstands⟩ := hawaits.exists_stands
      rcases List.mem_cons.mp hk with rfl | hk
      · obtain ⟨t, ht, hcell⟩ := exists_mem_cells hw ((hhead _ _ hl).2 _ _ hw hstands)
        exact .inl ⟨t, ht, hcell.mono Line.targetMarks_subset⟩
      · rcases List.mem_cons.mp hk with rfl | hk
        · have hinside := (hrule.1 _ _ hm).2 _ _ hw hstands
          exact absurd (Line.brace_mem_of_stands hw hinside) (hrule.2 _ _ hm)
        · obtain ⟨entry, hentry, rfl⟩ := List.mem_map.mp hk
          have hinside := (hrow _ _ (hfound entry hentry)).2 _ _ hw hstands
          obtain ⟨t, ht, hcell⟩ := exists_mem_cells hw hinside
          exact .inr ⟨_, List.mem_map_of_mem hentry, t, ht, hcell.mono Line.targetMarks_subset⟩
  · cases h

/-- **A table shows the words** on its lines, none of which is blank. -/
theorem take?_eq_some (hw : IsWord w) (h : take? l ls = some run) : Spans w l ls run := by
  unfold take? at h
  split at h
  · next run' hrun =>
    cases h
    exact run?_eq_some hw keeps_framedHead? isRule_framedRule? keeps_framedRow? hrun
  · exact run?_eq_some hw keeps_openHead? isRule_openRule? keeps_openRow? h

end Pageloom.Markdown.Table
