import Pageloom.Markdown.Document
import Pageloom.Proofs.Markdown.Table

/-!
# Words in documents

A document that defines nothing is read in steps, each of which takes some lines. A word that is
ahead of a step is ahead of the next one, or it is in a block that the step has made or added to;
what is in a block stays there. At the end no line is left, so the word is in a block.

Two lines make one paragraph unless something ends it, so the text of the paragraph that is open
must not hide the word that follows it. A blank line ends all paragraphs, as does every other block.

## Main definitions

* `Document.Clear`: the open paragraph leaves a word behind it as it is.
* `Document.Carries`: the word is in a block, or ahead.
* `Document.Step`: what a step of the reader does.
* `Document.Reads`: what reading the lines in a container does.

## Main results

* `Document.step_readLine`: every step is one.
* `Document.reads_readLevel`: lines that define nothing are read without references, and the word is
  in a block.
* `Document.reads_readOutermost`: so it is with quotes and lists inside each other.
-/

namespace Pageloom.Markdown

open InlineReader (targetMarks)
open Line (lineMarks Awaits IsFree Narrows)

variable {w : Text} {b : Block} {l : Line} {ls used rest : List Line} {refs : References}

/-! ### Blocks of tight lists -/

theorem Block.tightenAll_eq_map (bs : List Block) : tightenAll bs = bs.map tighten := by
  induction bs with
  | nil => rfl
  | cons b bs ih => rw [tightenAll, ih, List.map_cons]

theorem Block.tightenItems_eq_map (items : List (List Block)) :
    tightenItems items = items.map (List.map tighten) := by
  induction items with
  | nil => rfl
  | cons item items ih => rw [tightenItems, ih, tightenAll_eq_map, List.map_cons]

/-- A list holds the words of its blocks, tight or not. -/
theorem Block.shows_list {item : List Block} {items : List (List Block)} (hitem : item ∈ items)
    (hb : b ∈ item) (h : b.Shows w) (htight : b.tighten.Shows w) (start : Option ℕ) (tight : Bool) :
    (Block.list start tight (if tight then tightenItems items else items)).Shows w := by
  split
  · rw [tightenItems_eq_map]
    exact .list (List.mem_map_of_mem hitem) (List.mem_map_of_mem hb) htight
  · exact .list hitem hb h

/-- A block of a tight list holds the same words. -/
theorem Block.Shows.tighten (h : b.Shows w) : b.tighten.Shows w := by
  induction h with
  | paragraph h => exact .bareText h
  | list hitem hb h ih =>
    rw [Block.tighten]
    exact Block.shows_list hitem hb h ih _ _
  | bareText h => exact .bareText h
  | heading h => exact .heading h
  | code h => exact .code h
  | html h => exact .html h
  | quote hb h => exact .quote hb h
  | head hcell h => exact .head hcell h
  | row hrow hcell h => exact .row hrow hcell h

namespace Document

/-- The text of the paragraph that the next line may continue. -/
def Reading.openText (s : Reading) : Text :=
  match s.blocks with
  | .paragraph t :: _ => t
  | _ => []

/-- A word behind the open paragraph is as free as by itself. -/
def Clear (w : Text) (s : Reading) : Prop :=
  ∀ t, Text.Stands targetMarks w t → Text.Stands targetMarks w (s.openText ++ t)

/-- The word is in a block that was read, or on the lines that are left. -/
def Carries (w : Text) (s : Reading) (ls : List Line) : Prop :=
  (∃ b ∈ s.blocks, b.Shows w) ∨ Awaits w (Clear w s) ls

/-- A step that reads `l` and takes some of the lines behind it. -/
structure Step (w : Text) (s : Reading) (l : Line) (ls : List Line) (r : Reading × List Line) :
    Prop where
  rest : r.2 <:+ ls
  refs : r.1.refs = s.refs
  carries : Carries w s (l :: ls) → Carries w r.1 r.2

/-- A reader of lines that keeps a word on them, and the references when nothing is defined. -/
def Reads (w : Text) (inside : ReadInside) : Prop := ∀ refs ls, IsFree ls →
  (inside refs ls).2 = refs ∧ (Awaits w True ls → ∃ b ∈ (inside refs ls).1, b.Shows w)

variable {s : Reading} {inside : ReadInside} {level : Level}

/-! ### Paragraphs -/

theorem clear_of_openText (h : s.openText = []) : Clear w s := fun t ht => by rwa [h]

theorem openText_of_isParagraph {bs : List Block} (hb : b.isParagraph = false) :
    Reading.openText ⟨b :: bs, refs⟩ = [] := by
  unfold Reading.openText
  split
  · next heq =>
    cases heq
    cases hb
  · rfl

/-- A paragraph with more text takes the place of the open one. -/
theorem blocks_addText (t : Text) (s : Reading) : ∃ bs,
    (s.addText t).blocks = .paragraph (s.openText ++ t) :: bs ∧
      ∀ b ∈ s.blocks, b ∈ bs ∨ b = .paragraph s.openText := by
  unfold Reading.addText
  split
  · next p bs hblocks =>
    have hopen : s.openText = p := by rw [Reading.openText, hblocks]
    refine ⟨bs, by rw [hopen], fun b hb => ?_⟩
    rw [hblocks, List.mem_cons] at hb
    rw [hopen]
    exact hb.symm
  · next hblocks =>
    have hopen : s.openText = [] := by
      unfold Reading.openText
      split
      · next heq => exact absurd heq (hblocks _ _)
      · rfl
    exact ⟨s.blocks, by rw [hopen]; rfl, fun b hb => .inl hb⟩

theorem openText_addText (t : Text) (s : Reading) : (s.addText t).openText = s.openText ++ t := by
  obtain ⟨bs, hbs, -⟩ := blocks_addText t s
  rw [Reading.openText, hbs]

theorem refs_addText (t : Text) (s : Reading) : (s.addText t).refs = s.refs := by
  unfold Reading.addText
  split <;> rfl

theorem addText_append (t u : Text) (s : Reading) :
    s.addText (t ++ u) = (s.addText t).addText u := by
  unfold Reading.addText
  split
  · simp
  · simp [Reading.push]

theorem shows_addText (t : Text) (h : ∃ b ∈ s.blocks, b.Shows w) :
    ∃ b ∈ (s.addText t).blocks, b.Shows w := by
  obtain ⟨b, hb, hshows⟩ := h
  obtain ⟨bs, hbs, hold⟩ := blocks_addText t s
  rw [hbs]
  rcases hold b hb with hmem | rfl
  · exact ⟨b, List.mem_cons_of_mem _ hmem, hshows⟩
  · cases hshows with
    | paragraph h => exact ⟨_, List.mem_cons_self, .paragraph (h.append t)⟩

/-- A line that is added to a paragraph leaves a word behind it clear, unless it holds a target or
an image. -/
theorem Clear.addText (h : Clear w s) (hl : Text.Avoids targetMarks l.text) (hfeed : l.feed) :
    Clear w (s.addText l.full) := by
  intro t ht
  have hbehind := h _ (ht.prepend (c := '\n') (by decide) hl)
  rw [openText_addText, Line.full_of_feed hfeed]
  simpa using hbehind

/-- A line that is not blank may be added to a paragraph. -/
theorem Carries.addText (h : Carries w s (l :: ls)) (hblank : Line.isBlank l.text = false)
    (hfree : IsFree (l :: ls)) : Carries w (s.addText l.full) ls := by
  rcases h with h | ⟨hclear, hstands⟩ | h
  · exact .inl (shows_addText _ h)
  · obtain ⟨bs, hbs, -⟩ := blocks_addText l.full s
    obtain ⟨behind, hfull⟩ := Line.text_prefix_full l
    have htext := hclear _ ((hstands.mono Line.targetMarks_subset).append behind)
    rw [hfull] at htext
    exact .inl ⟨_, hbs ▸ List.mem_cons_self, .paragraph htext⟩
  · cases ls with
    | nil => exact h.elim
    | cons m ls =>
      have hfeed : l.feed := (List.isChain_cons_cons.mp hfree.feeds).1
      refine .inr (h.mono fun hready => ?_)
      rcases hready with hready | ⟨hclear, havoids⟩
      · rw [hblank] at hready
        cases hready
      · exact hclear.addText havoids hfeed

theorem Carries.addText_joined (h : Carries w s (used ++ ls))
    (hblank : ∀ l ∈ used, Line.isBlank l.text = false) (hne : used ≠ [])
    (hfree : IsFree (used ++ ls)) : Carries w (s.addText (Line.joined used)) ls := by
  induction used generalizing s with
  | nil => exact absurd rfl hne
  | cons l used ih =>
    rw [List.forall_mem_cons] at hblank
    have hadded : Carries w (s.addText l.full) (used ++ ls) := h.addText hblank.1 hfree
    cases used with
    | nil => simpa [Line.joined] using hadded
    | cons m used =>
      rw [Line.joined_cons, addText_append]
      exact ih hadded hblank.2 (by simp) (hfree.of_isInfix (List.suffix_cons l _).isInfix)

/-! ### Kinds of steps -/

/-- A step that adds the line to a paragraph. -/
theorem step_addText (hblank : Line.isBlank l.text = false) (hfree : IsFree (l :: ls)) :
    Step w s l ls (s.addText l.full, ls) where
  rest := List.suffix_refl ls
  refs := refs_addText _ s
  carries h := h.addText hblank hfree

/-- A step that makes a block of the lines that it takes. -/
theorem step_push (hls : ls = used ++ rest) (hb : b.isParagraph = false)
    (hshows : Awaits w True (l :: used) → b.Shows w) : Step w s l ls (s.push b, rest) where
  rest := ⟨used, hls.symm⟩
  refs := rfl
  carries h := by
    rcases h with ⟨b', hb', h⟩ | h
    · exact .inl ⟨b', List.mem_cons_of_mem b hb', h⟩
    · rw [hls, ← List.cons_append] at h
      rcases Line.awaits_append h with h | h
      · exact .inl ⟨b, List.mem_cons_self, hshows (h.mono fun _ => trivial)⟩
      · exact .inr (h.mono fun _ => clear_of_openText (openText_of_isParagraph hb))

/-- A step that makes a block of one line. -/
theorem step_push_one (hb : b.isParagraph = false)
    (hshows : Text.Stands lineMarks w l.text → b.Shows w) : Step w s l ls (s.push b, ls) :=
  step_push (List.nil_append ls).symm hb fun h => hshows (h.resolve_right id).2

/-- A step that makes a block of a line that holds no word. -/
theorem step_push_wordless (hw : IsWord w) (hb : b.isParagraph = false) (hl : '\x7b' ∉ l.text) :
    Step w s l ls (s.push b, ls) :=
  step_push_one hb fun h => absurd (Line.brace_mem_of_stands hw h) hl

/-- A step that turns the open paragraph into a heading. -/
theorem step_underline {n : ℕ} (hw : IsWord w) (hl : '\x7b' ∉ l.text) (hopen : s.inParagraph) :
    Step w s l ls (s.underline n, ls) := by
  obtain ⟨p, bs, hblocks⟩ : ∃ p bs, s.blocks = .paragraph p :: bs := by
    unfold Reading.inParagraph at hopen
    obtain ⟨b, hb, hparagraph⟩ := (Option.any_eq_true _ _).mp hopen
    obtain ⟨bs, hbs⟩ := List.head?_eq_some_iff.mp hb
    cases b with
    | paragraph p => exact ⟨p, bs, hbs⟩
    | _ => cases hparagraph
  have hunderline : s.underline n = ⟨.heading n p :: bs, s.refs⟩ := by
    rw [Reading.underline, hblocks]
  rw [hunderline]
  refine ⟨List.suffix_refl ls, rfl, fun h => ?_⟩
  rcases h with ⟨b, hb, h⟩ | h
  · rw [hblocks] at hb
    rcases List.mem_cons.mp hb with rfl | hb
    · cases h with
      | paragraph h => exact .inl ⟨_, List.mem_cons_self, .heading h⟩
    · exact .inl ⟨b, List.mem_cons_of_mem _ hb, h⟩
  · have htail := h.tail fun hstands => hl (Line.brace_mem_of_stands hw hstands)
    exact .inr (htail.mono fun _ => clear_of_openText (openText_of_isParagraph rfl))

/-! ### Code and HTML -/

theorem splitAtLine_append (p : Text → Bool) (ls : List Line) :
    (splitAtLine p ls).1 ++ (splitAtLine p ls).2 = ls :=
  takeWhile_append_drop (fun l : Line => !p l.text) ls

theorem of_splitAtLine_eq_cons {p : Text → Bool} (h : (splitAtLine p ls).2 = l :: rest) :
    p l.text := by
  have hdrop : (splitAtLine p ls).2 = ls.dropWhile fun l => !p l.text :=
    List.append_cancel_left ((splitAtLine_append p ls).trans List.takeWhile_append_dropWhile.symm)
  have hhead := List.head?_dropWhile_not (fun l : Line => !p l.text) ls
  rw [← hdrop, h] at hhead
  simpa using hhead

theorem append_take_append_tail {α : Type} {xs front back : List α} (h : front ++ back = xs) :
    xs = front ++ back.take 1 ++ back.tail := by
  rw [← h, List.append_assoc, ← List.drop_one, List.take_append_drop]

theorem step_readFenced {f : Line.Fence} (hw : IsWord w) (hf : Line.fence? l.text = some f) :
    Step w s l ls (readFenced f ls s) := by
  have hls := splitAtLine_append f.isClosedBy ls
  have hclosed {k : Line} {rest : List Line} (h : (splitAtLine f.isClosedBy ls).2 = k :: rest) :
      f.isClosedBy k.text := of_splitAtLine_eq_cons h
  unfold readFenced
  generalize splitAtLine f.isClosedBy ls = parts at hls hclosed
  obtain ⟨code, rest⟩ := parts
  refine step_push (append_take_append_tail hls) rfl fun h => ?_
  rcases Line.awaits_append (h.tail (Line.not_stands_of_fence? hw hf)) with h | h
  · obtain ⟨m, hm, hstands⟩ := h.exists_stands
    refine .code (Line.infix_joined_of_mem (List.mem_map_of_mem hm) ?_)
    exact ((Line.trims_dropSpaces _ _).stands hw (by decide) (by decide) hstands).isInfix
  · -- the closing fence
    obtain ⟨m, hm, hstands⟩ := h.exists_stands
    cases rest with
    | nil => cases hm
    | cons k rest =>
      rw [List.take_succ_cons, List.take_zero, List.mem_singleton] at hm
      obtain ⟨g, hg, -⟩ := (Option.any_eq_true _ _).mp (hclosed rfl)
      exact absurd (hm ▸ hstands) (Line.not_stands_of_fence? hw hg)

/-- What holds a word is not dropped with the blank lines at the end. -/
theorem mem_dropBlank {t : Text} {ts : List Text} (h : t ∈ ts) (ht : Line.isBlank t = false) :
    t ∈ (ts.reverse.dropWhile Line.isBlank).reverse := by
  rw [← List.mem_reverse, ← List.takeWhile_append_dropWhile (p := Line.isBlank) (l := ts.reverse),
    List.mem_append] at h
  refine List.mem_reverse.mpr (h.resolve_left fun hblank => ?_)
  rw [List.mem_takeWhile_imp hblank] at ht
  cases ht

theorem step_readIndented (hw : IsWord w) : Step w s l ls (readIndented l ls s) := by
  have hls := splitAtLine_append (fun t => !Line.isBlank t && !Line.isIndented t) ls
  unfold readIndented
  generalize splitAtLine (fun t => !Line.isBlank t && !Line.isIndented t) ls = parts at hls
  obtain ⟨more, rest⟩ := parts
  refine step_push hls.symm rfl fun h => ?_
  obtain ⟨m, hm, hstands⟩ := h.exists_stands
  have hcode := (((Line.trims_tabTo 4 m.text).trans (Line.trims_dropSpaces 4 _)).stands hw
    (by decide) (by decide) hstands).isInfix
  refine .code (hcode.trans (Text.infix_join (mem_dropBlank (List.mem_map_of_mem hm) ?_)))
  exact Bool.eq_false_iff.mpr fun hblank => Line.brace_notMem_of_isBlank hblank
    (hcode.subset (List.mem_of_mem_head? hw.head))

theorem shows_html (h : Awaits w True ls) : Block.Shows w (.html (Line.joined ls)) :=
  have ⟨_, hm, hstands⟩ := h.exists_stands
  .html (Line.infix_joined_of_mem hm hstands.isInfix)

theorem step_readHtml (extent : Tag.Extent) : Step w s l ls (readHtml extent l ls s) := by
  unfold readHtml
  split
  · exact step_push (splitAtLine_append _ ls).symm rfl shows_html
  · split
    · exact step_push_one rfl fun h => .html (h.isInfix.trans (Line.text_prefix_full l).isInfix)
    · exact step_push (append_take_append_tail (splitAtLine_append _ ls)) rfl shows_html

/-! ### Quotes and lists -/

theorem isFree_of_append (hfree : IsFree (l :: ls)) (hls : ls = used ++ rest) :
    IsFree (l :: used) := by
  rw [hls] at hfree
  exact hfree.of_isInfix (List.prefix_append (l :: used) rest).isInfix

theorem step_readQuote {first : Text} (hw : IsWord w) (hinside : Reads w inside)
    (hfirst : Line.Trims l.text first) (hfree : IsFree (l :: ls)) :
    Step w s l ls (readQuote inside first l ls s) := by
  obtain ⟨used, hused, hnarrows⟩ := Quote.take_spec hfirst ls
  obtain ⟨hrefs, hchildren⟩ :=
    hinside s.refs _ ((isFree_of_append hfree hused).narrows hnarrows)
  unfold readQuote
  dsimp only
  rw [hrefs]
  refine step_push hused rfl fun h => ?_
  obtain ⟨b, hb, hshows⟩ := hchildren (h.narrows hw hnarrows)
  exact .quote hb hshows

/-- The items of a list are read one after the other. -/
theorem readItems_spec (hinside : Reads w inside) (refs : References) {items : List (List Line)}
    (hfree : ∀ item ∈ items, IsFree item) : (readItems inside refs items).2 = refs ∧
      ((∃ item ∈ items, Awaits w True item) →
        ∃ bs ∈ (readItems inside refs items).1, ∃ b ∈ bs, b.Shows w) := by
  induction items with
  | nil => simp [readItems]
  | cons item items ih =>
    rw [List.forall_mem_cons] at hfree
    obtain ⟨hrefs, hchildren⟩ := hinside refs item hfree.1
    obtain ⟨hmore, hshows⟩ := ih hfree.2
    unfold readItems
    dsimp only
    rw [hrefs]
    refine ⟨hmore, ?_⟩
    rintro ⟨item', hitem', hawaits⟩
    rcases List.mem_cons.mp hitem' with rfl | hitem'
    · exact ⟨_, List.mem_cons_self, hchildren hawaits⟩
    · obtain ⟨bs, hbs, hb⟩ := hshows ⟨item', hitem', hawaits⟩
      exact ⟨bs, List.mem_cons_of_mem _ hbs, hb⟩

theorem awaits_flatten {segs : List (List Line)} (h : Awaits w True segs.flatten) :
    ∃ seg ∈ segs, Awaits w True seg := by
  induction segs with
  | nil => exact h.elim
  | cons seg segs ih =>
    rcases Line.awaits_append h with h | h
    · exact ⟨seg, List.mem_cons_self, h⟩
    · obtain ⟨seg', hseg', h⟩ := ih h
      exact ⟨seg', List.mem_cons_of_mem seg hseg', h⟩

theorem exists_mem_of_forall₂ {α β : Type} {R : α → β → Prop} {xs : List α} {ys : List β} {y : β}
    (h : List.Forall₂ R xs ys) (hy : y ∈ ys) : ∃ x ∈ xs, R x y := by
  induction h with
  | nil => cases hy
  | @cons x _ xs ys hxy _ ih =>
    rcases List.mem_cons.mp hy with rfl | hy
    · exact ⟨x, List.mem_cons_self, hxy⟩
    · obtain ⟨x', hx', hxy⟩ := ih hy
      exact ⟨x', List.mem_cons_of_mem x hx', hxy⟩

theorem infix_flatten {α : Type} {xs : List α} {xss : List (List α)} (h : xs ∈ xss) :
    xs <:+: xss.flatten := by
  obtain ⟨front, back, rfl⟩ := List.append_of_mem h
  rw [List.flatten_append, List.flatten_cons, ← List.append_assoc]
  exact List.infix_append _ _ _

theorem step_readList {bullet : Line.Bullet} (hw : IsWord w) (hinside : Reads w inside)
    (hbullet : Line.Trims l.text bullet.rest) (hfree : IsFree (l :: ls)) :
    Step w s l ls (readList inside bullet l ls s) := by
  obtain ⟨used, segs, hused, hsegs, hnarrows⟩ := Listing.take_spec hbullet ls
  have hlines := isFree_of_append hfree hused
  have hitems : ∀ item ∈ (Listing.take bullet l ls).items, IsFree item := fun item hitem => by
    obtain ⟨seg, hseg, hitem⟩ := exists_mem_of_forall₂ hnarrows hitem
    exact (hlines.of_isInfix (hsegs ▸ infix_flatten hseg)).narrows hitem
  obtain ⟨hrefs, hchildren⟩ := readItems_spec hinside s.refs hitems
  unfold readList
  dsimp only
  rw [hrefs]
  refine step_push hused rfl fun h => ?_
  rw [hsegs] at h
  obtain ⟨seg, hseg, hawaits⟩ := awaits_flatten h
  obtain ⟨item, hitem, hnarrow⟩ :=
    exists_mem_of_forall₂ (List.Forall₂.flip (R := flip Narrows) hnarrows) hseg
  obtain ⟨bs, hbs, b, hb, hshows⟩ := hchildren ⟨item, hitem, hawaits.narrows hw hnarrow⟩
  exact Block.shows_list hbs hb hshows hshows.tighten _ _

/-! ### Definitions and tables -/

/-- Without a bracket and a colon, no link is defined. -/
theorem label?_eq_none {t : Text} (h : ¬ [']', ':'] <:+: t) : Definitions.label? t = none := by
  unfold Definitions.label?
  split
  · next cs houtdented =>
    split
    · next label rest hread =>
      rw [Line.outdented?_eq_some houtdented, Target.label?_eq_some hread] at h
      refine absurd ?_ h
      refine List.IsInfix.trans ?_ (List.suffix_append _ _).isInfix
      exact ⟨'[' :: label, rest, by simp⟩
    · rfl
  · rfl

/-- Without a bracket and a colon, no note begins. -/
theorem note?_eq_none (h : ¬ [']', ':'] <:+: l.text) (ls : List Line) :
    Definitions.note? l ls = none := by
  unfold Definitions.note?
  dsimp only
  split
  · next cs houtdented =>
    split
    · next label rest hread =>
      rw [Line.outdented?_eq_some houtdented, InlineReader.noteKey?_eq_some hread] at h
      refine absurd ?_ h
      refine List.IsInfix.trans ?_ (List.suffix_append _ _).isInfix
      exact ⟨'[' :: '^' :: label, rest, by simp⟩
    · rfl
  · rfl

theorem step_readTable {run : Table.Run} (hw : IsWord w) (hrun : Table.take? l ls = some run)
    (hfree : IsFree (l :: ls)) : Step w s l ls (readTable run s) := by
  have hspans := Table.take?_eq_some hw hrun
  obtain ⟨used, hlines, hls⟩ := hspans.lines
  unfold readTable
  split
  · next b hb =>
    obtain ⟨hblock, hshows⟩ := hspans.shows b hb
    exact step_push hls hblock (hlines ▸ hshows)
  · refine ⟨⟨used, hls.symm⟩, refs_addText _ s, fun h => ?_⟩
    rw [hls, ← List.cons_append, ← hlines] at h hfree
    exact h.addText_joined hspans.solid (by simp [hlines]) hfree

/-! ### Lines -/

theorem not_infix_unbroken (hfree : IsFree (l :: ls)) : ¬ [']', ':'] <:+: unbroken l ls :=
  (isFree_of_append hfree (splitAtLine_append Line.isBlank ls).symm).not_infix_joined

theorem step_readPlain (hw : IsWord w) (hfree : IsFree (l :: ls)) :
    Step w s l ls (readPlain level l ls s) := by
  have hnote := note?_eq_none (hfree.defines l List.mem_cons_self _ (by decide)) ls
  have hlabel := label?_eq_none (not_infix_unbroken hfree)
  unfold readPlain
  dsimp only
  rw [hnote, hlabel, ite_self, ite_self]
  dsimp only
  split
  · next block hblock =>
    split
    · exact step_addText (Line.isBlank_of_htmlBlock? hblock) hfree
    · exact step_readHtml _
  · split
    · next hblank => exact step_push_wordless hw rfl (Line.brace_notMem_of_isBlank hblank)
    · next hblank =>
      split
      · next run hrun =>
        split at hrun
        · exact step_readTable hw hrun hfree
        · cases hrun
      · exact step_addText (by simpa using hblank) hfree

theorem step_readContainer (hw : IsWord w)
    (hlevel : ∀ inside, level.inside? = some inside → Reads w inside) (hfree : IsFree (l :: ls)) :
    Step w s l ls (readContainer level l ls s) := by
  unfold readContainer
  split
  · next hdivider => exact step_push_wordless hw rfl (Line.brace_notMem_of_isDivider hdivider)
  · split
    · exact step_readPlain hw hfree
    · next inside hinside =>
      split
      · next first hfirst =>
        exact step_readQuote hw (hlevel inside hinside) (Line.trims_of_quoted? hfirst) hfree
      · split
        · next bullet hbullet =>
          unfold readBullet
          split
          · exact step_addText (Line.isBlank_of_bullet? hbullet) hfree
          · exact step_readList hw (hlevel inside hinside) (Line.trims_of_bullet? hbullet) hfree
        · exact step_readPlain hw hfree

/-- **Every step carries the word on**, whatever the line begins. -/
theorem step_readLine (hw : IsWord w)
    (hlevel : ∀ inside, level.inside? = some inside → Reads w inside) (hfree : IsFree (l :: ls)) :
    Step w s l ls (readLine level l ls s) := by
  unfold readLine
  split
  · next f hf =>
    split
    · exact step_readFenced hw hf
    · exact step_addText (Line.isBlank_of_fence? hf) hfree
  · split
    · next hindented =>
      split
      · exact step_addText (Line.isBlank_of_isIndented hindented) hfree
      · exact step_readIndented hw
    · split
      · next n t hheading =>
        exact step_push_one rfl fun h =>
          .heading ((Line.stands_of_heading? hw hheading h).mono Line.targetMarks_subset)
      · split
        · next n hunderline =>
          split at hunderline
          · next hopen =>
            rw [Bool.and_eq_true] at hopen
            exact step_underline hw (Line.brace_notMem_of_underline? hunderline) hopen.1
          · cases hunderline
        · exact step_readContainer hw hlevel hfree

/-! ### Runs -/

/-- The word is in a block when all lines are read. -/
theorem readLines_spec (hw : IsWord w)
    (hlevel : ∀ inside, level.inside? = some inside → Reads w inside) {n : ℕ} (hn : ls.length ≤ n)
    (hfree : IsFree ls) : (readLines level n ls s).refs = s.refs ∧
      (Carries w s ls → ∃ b ∈ (readLines level n ls s).blocks, b.Shows w) := by
  induction n generalizing ls s with
  | zero =>
    obtain rfl := List.eq_nil_of_length_eq_zero (Nat.le_zero.mp hn)
    exact ⟨rfl, fun h => h.resolve_right id⟩
  | succ n ih =>
    cases ls with
    | nil => exact ⟨rfl, fun h => h.resolve_right id⟩
    | cons l ls =>
      have hstep : Step w s l ls (readLine level l ls s) := step_readLine hw hlevel hfree
      have hlength := hstep.rest.length_le
      obtain ⟨hrefs, hshows⟩ := ih (s := (readLine level l ls s).1)
        (hlength.trans (Nat.le_of_succ_le_succ hn))
        (hfree.of_isInfix (hstep.rest.trans (List.suffix_cons l ls)).isInfix)
      exact ⟨hrefs.trans hstep.refs, fun h => hshows (hstep.carries h)⟩

/-- **Lines that define nothing** are read with no more references, and a word on them is in a
block. -/
theorem reads_readLevel (hw : IsWord w)
    (hlevel : ∀ inside, level.inside? = some inside → Reads w inside) :
    Reads w (readLevel level) := by
  intro refs ls hfree
  obtain ⟨hrefs, hshows⟩ := readLines_spec (s := ⟨[], refs⟩) hw hlevel le_rfl hfree
  refine ⟨hrefs, fun h => ?_⟩
  obtain ⟨b, hb, h⟩ := hshows (.inr (h.mono fun _ => clear_of_openText rfl))
  exact ⟨b, List.mem_reverse.mpr hb, h⟩

theorem reads_readInside (hw : IsWord w) (depth : ℕ) : Reads w (readInside depth) := by
  induction depth with
  | zero => exact reads_readLevel hw (by simp)
  | succ n ih => exact reads_readLevel hw fun inside h => by cases h; exact ih

theorem reads_readOutermost (hw : IsWord w) (ext : Extensions) : Reads w (readOutermost ext) :=
  reads_readLevel hw fun inside h => by cases h; exact reads_readInside hw _

end Document

end Pageloom.Markdown
