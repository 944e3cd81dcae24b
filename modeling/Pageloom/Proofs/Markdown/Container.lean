import Mathlib.Data.List.Forall2
import Pageloom.Markdown.Container
import Pageloom.Proofs.Markdown.Line

/-!
# Words in quotes and lists

A word is ahead on the lines that are left to read: on one of them, and with no target or image in
the lines from the last blank one on, since these may be one paragraph with the line of the word. A
quote and the items of a list get some of the lines, which are trimmed. Lines are left out only at
the start and at the end of an item, and those hold no brace.

## Main definitions

* `Line.Awaits`: the word is ahead.
* `Line.IsFree`: lines that define nothing.
* `Line.Trimmed`, `Line.Narrows`: what a container makes of a line, and of its lines.

## Main results

* `Line.Awaits.narrows`, `Line.IsFree.narrows`: both are handed on to the lines in a container.
* `Quote.take_spec`, `Listing.take_spec`: the lines that quotes and lists take.
-/

namespace Pageloom.Markdown

open InlineReader (targetMarks)

namespace Line

/-- The word is on one of the lines, at a place that is not in a target, an image or the line of a
fence. The text in front of it is `clear` if no target or image is left open: behind a blank line,
or when the lines since then hold none. -/
def Awaits (w : Text) : (clear : Prop) → List Line → Prop
  | _, [] => False
  | clear, l :: ls => (clear ∧ Text.Stands lineMarks w l.text) ∨
      Awaits w (isBlank l.text ∨ clear ∧ Text.Avoids targetMarks l.text) ls

/-- Lines that define nothing, since no colon stands behind a bracket. All but the last one end with
a line feed. -/
structure IsFree (ls : List Line) : Prop where
  defines : ∀ l ∈ ls, Text.Avoids ["]:"] l.text
  feeds : ls.IsChain fun l _ => l.feed

/-- The second line is the first one, trimmed. -/
def Trimmed (l m : Line) : Prop := Trims l.text m.text ∧ m.feed = l.feed

/-- The second lines are the first ones, trimmed; lines without a brace may be missing at the start
and at the end. -/
def Narrows (ls ms : List Line) : Prop :=
  ∃ front kept back, ls = front ++ kept ++ back ∧ (∀ l ∈ front, '\x7b' ∉ l.text) ∧
    (∀ l ∈ back, '\x7b' ∉ l.text) ∧ List.Forall₂ Trimmed kept ms

variable {w t : Text} {l m : Line} {ls ms front : List Line} {clear clear' : Prop}

/-! ### A word ahead -/

theorem Awaits.mono (h : Awaits w clear ls) (hclear : clear → clear') : Awaits w clear' ls := by
  induction ls generalizing clear clear' with
  | nil => exact h
  | cons l ls ih =>
    exact h.imp (And.imp_left hclear) fun h => ih h (Or.imp_right (And.imp_left hclear))

/-- The word is on some first lines, or behind them. -/
theorem awaits_append (h : Awaits w clear (ls ++ ms)) : Awaits w clear ls ∨ Awaits w True ms := by
  induction ls generalizing clear with
  | nil => exact .inr (h.mono fun _ => trivial)
  | cons l ls ih =>
    rcases h with h | h
    · exact .inl (.inl h)
    · exact (ih h).imp_left .inr

theorem Awaits.exists_stands (h : Awaits w clear ls) :
    ∃ l ∈ ls, Text.Stands lineMarks w l.text := by
  induction ls generalizing clear with
  | nil => exact h.elim
  | cons l ls ih =>
    rcases h with h | h
    · exact ⟨l, List.mem_cons_self, h.2⟩
    · obtain ⟨m, hm, hstands⟩ := ih h
      exact ⟨m, List.mem_cons_of_mem l hm, hstands⟩

theorem brace_mem_of_stands {marks : List Text} (hw : IsWord w) (h : Text.Stands marks w t) :
    '\x7b' ∈ t := h.isInfix.subset (List.mem_of_mem_head? hw.head)

/-- Lines without braces do not hold a word. -/
theorem not_awaits (hw : IsWord w) (h : ∀ l ∈ ls, '\x7b' ∉ l.text) : ¬ Awaits w clear ls := by
  intro hawaits
  obtain ⟨l, hl, hstands⟩ := hawaits.exists_stands
  exact h l hl (brace_mem_of_stands hw hstands)

/-- A line without the word is passed over. -/
theorem Awaits.tail (h : Awaits w clear (l :: ls)) (hl : ¬ Text.Stands lineMarks w l.text) :
    Awaits w True ls := (h.resolve_left fun hhere => hl hhere.2).mono fun _ => trivial

/-! ### Lines that define nothing -/

theorem IsFree.of_isInfix (h : IsFree ls) (hms : ms <:+: ls) : IsFree ms :=
  ⟨fun l hl => h.defines l (hms.subset hl), h.feeds.infix hms⟩

theorem full_of_feed (h : l.feed) : l.full = l.text ++ ['\n'] := if_pos h

theorem text_prefix_full (l : Line) : l.text <+: l.full := by
  unfold full
  split
  · exact List.prefix_append _ _
  · exact List.prefix_refl _

theorem joined_cons (l : Line) (ls : List Line) : joined (l :: ls) = l.full ++ joined ls := rfl

/-- What stands in the joined lines stands on one of them, unless it holds a line feed. -/
theorem infix_joined (hfeeds : ls.IsChain fun l _ => l.feed) (hne : t ≠ []) (ht : '\n' ∉ t)
    (h : t <:+: joined ls) : ∃ l ∈ ls, t <:+: l.text := by
  have hfull {l : Line} (h : t <:+: l.full) : t <:+: l.text := by
    unfold full at h
    split at h
    · exact (Text.infix_concat_of_notMem ht hne).mp h
    · exact h
  induction ls with
  | nil => exact absurd (List.infix_nil.mp h) hne
  | cons l ls ih =>
    rw [List.isChain_cons] at hfeeds
    cases ls with
    | nil =>
      rw [joined_cons, joined, List.flatMap_nil, List.append_nil] at h
      exact ⟨l, List.mem_cons_self, hfull h⟩
    | cons m ls =>
      have hfeed : l.feed := hfeeds.1 m rfl
      rw [joined_cons, full_of_feed hfeed, List.append_assoc, List.singleton_append] at h
      rcases (Text.infix_append_cons ht).mp h with hl | hls
      · exact ⟨l, List.mem_cons_self, hl⟩
      · obtain ⟨k, hk, hinfix⟩ := ih hfeeds.2 hls
        exact ⟨k, List.mem_cons_of_mem l hk, hinfix⟩

theorem IsFree.not_infix_joined (h : IsFree ls) : ¬ [']', ':'] <:+: joined ls := fun hinfix =>
  have ⟨l, hl, hinfix⟩ := infix_joined h.feeds (by decide) (by decide) hinfix
  h.defines l hl _ (by decide) hinfix

theorem infix_joined_of_mem (hl : l ∈ ls) (h : w <:+: l.text) : w <:+: joined ls := by
  obtain ⟨before, behind, rfl⟩ := List.append_of_mem hl
  rw [joined, List.flatMap_append, List.flatMap_cons, ← List.append_assoc]
  exact (h.trans (text_prefix_full l).isInfix).trans (List.infix_append _ _ _)

/-! ### Trimmed lines -/

theorem Trims.notMem {u : Text} (h : Trims t u) (hu : '\x7b' ∉ u) : '\x7b' ∉ t := by
  obtain ⟨n, a, b, rfl, rfl, ha⟩ := h
  rw [List.mem_append, not_or] at hu ⊢
  exact ⟨ha, hu.2⟩

theorem brace_notMem_of_trimmed (htrim : List.Forall₂ Trimmed ls ms)
    (hms : ∀ m ∈ ms, '\x7b' ∉ m.text) : ∀ l ∈ ls, '\x7b' ∉ l.text := by
  induction htrim with
  | nil => simp
  | cons hlm _ ih =>
    rw [List.forall_mem_cons] at hms ⊢
    exact ⟨hlm.1.notMem hms.1, ih hms.2⟩

theorem Awaits.trimmed (hw : IsWord w) (htrim : List.Forall₂ Trimmed ls ms)
    (h : Awaits w clear ls) : Awaits w clear ms := by
  induction htrim generalizing clear with
  | nil => exact h
  | @cons l m ls ms hlm _ ih =>
    rcases h with h | h
    · exact .inl ⟨h.1, hlm.1.stands hw (by decide) (by decide) h.2⟩
    · exact .inr (ih (h.mono (Or.imp hlm.1.isBlank
        (And.imp_right (hlm.1.avoids (by decide) (by decide))))))

theorem IsFree.trimmed (htrim : List.Forall₂ Trimmed ls ms) (h : IsFree ls) : IsFree ms := by
  obtain ⟨hdefines, hfeeds⟩ := h
  induction htrim with
  | nil => exact ⟨hdefines, hfeeds⟩
  | @cons l m ls ms hlm hlsms ih =>
    rw [List.forall_mem_cons] at hdefines
    rw [List.isChain_cons] at hfeeds
    have hms := ih hdefines.2 hfeeds.2
    refine ⟨List.forall_mem_cons.mpr ⟨hlm.1.avoids (by decide) (by decide) hdefines.1, hms.defines⟩,
      List.isChain_cons.mpr ⟨fun k hk => ?_, hms.feeds⟩⟩
    cases hlsms with
    | nil => cases hk
    | @cons l' => exact hlm.2.trans (hfeeds.1 l' rfl)

/-- A word ahead in the lines of a container is ahead in what the container holds. -/
theorem Awaits.narrows (hw : IsWord w) (hnarrows : Narrows ls ms) (h : Awaits w clear ls) :
    Awaits w True ms := by
  obtain ⟨front, kept, back, rfl, hfront, hback, htrim⟩ := hnarrows
  have hkept : Awaits w True kept := by
    rcases awaits_append h with h | h
    · exact (awaits_append h).resolve_left (not_awaits hw hfront)
    · exact absurd h (not_awaits hw hback)
  exact hkept.trimmed hw htrim

theorem IsFree.narrows (hnarrows : Narrows ls ms) (h : IsFree ls) : IsFree ms := by
  obtain ⟨front, kept, back, rfl, -, -, htrim⟩ := hnarrows
  exact (h.of_isInfix (List.infix_append front kept back)).trimmed htrim

theorem narrows_of_trimmed (htrim : List.Forall₂ Trimmed ls ms) : Narrows ls ms :=
  ⟨[], ls, [], by simp, by simp, by simp, htrim⟩

end Line

open Line (Trims Trimmed Narrows)

variable {l : Line} {ls seg : List Line}

/-! ### Quotes -/

namespace Quote

theorem trims_content (t : Text) : Trims t (content t) :=
  (Line.trims_tabTo 3 t).trans (Line.trims_dropSpaces 1 _)

theorem following_spec (strict afterBlank : Bool) (ls : List Line) :
    ∃ used, ls = used ++ (following strict afterBlank ls).2 ∧
      List.Forall₂ Trimmed used (following strict afterBlank ls).1 := by
  fun_induction following strict afterBlank ls with
  | case1 => exact ⟨[], rfl, .nil⟩
  | case2 afterBlank l ls quoted hquoted t inside rest hfollowing ih =>
    rw [hfollowing] at ih
    obtain ⟨used, hused, htrim⟩ := ih
    have hl : Trims l.text t := (Line.trims_of_quoted? hquoted).trans (trims_content quoted)
    exact ⟨l :: used, congrArg (l :: ·) hused, .cons ⟨hl, rfl⟩ htrim⟩
  | case3 => exact ⟨[], rfl, .nil⟩
  | case4 afterBlank l ls hquoted hlazy inside rest hfollowing ih =>
    rw [hfollowing] at ih
    obtain ⟨used, hused, htrim⟩ := ih
    exact ⟨l :: used, congrArg (l :: ·) hused, .cons ⟨Line.trims_tabTo 3 _, rfl⟩ htrim⟩

/-- A quote takes the lines up to some place, and holds them trimmed. -/
theorem take_spec {first : Text} (hfirst : Trims l.text first) (ls : List Line) :
    ∃ used, ls = used ++ (take l first ls).2 ∧ Narrows (l :: used) (take l first ls).1 := by
  obtain ⟨used, hused, htrim⟩ := following_spec
    (Line.isBlank (content first) || Line.isIndented (content first) ||
      (Line.fence? (content first)).isSome) false ls
  refine ⟨used, hused, Line.narrows_of_trimmed (List.forall₂_map_right_iff.mpr ?_)⟩
  have hwiden (m n : Line) (h : Trimmed m n) : Trimmed m { n with text := Line.widenTab n.text } :=
    ⟨h.1.trans (Line.trims_widenTab _), h.2⟩
  have hcontent : Trims l.text (content first) := hfirst.trans (trims_content first)
  have hl : Trimmed l { l with text := content first } := ⟨hcontent, rfl⟩
  exact (List.Forall₂.cons hl htrim).imp hwiden

end Quote

/-! ### Lists -/

namespace Listing

/-- The lines that are given, from the first one that the open item keeps on, are those that it
holds. -/
def Holds (seg : List Line) (o : OpenItem) : Prop :=
  ∃ front kept, seg = front ++ kept ∧ (∀ l ∈ front, '\x7b' ∉ l.text) ∧
    List.Forall₂ Trimmed kept o.lines.reverse

variable {o : OpenItem}

theorem Holds.add {m : Line} (h : Holds seg o) (hm : Trimmed l m) :
    Holds (seg ++ [l]) (o.add m) := by
  obtain ⟨front, kept, rfl, hfront, htrim⟩ := h
  refine ⟨front, kept ++ [l], by simp, hfront, ?_⟩
  rw [OpenItem.add, List.reverse_cons]
  exact List.rel_append htrim (.cons hm .nil)

theorem holds_ofBullet {b : Line.Bullet} (hb : Trims l.text b.rest) :
    Holds [l] (.ofBullet b l) := by
  unfold OpenItem.ofBullet
  dsimp only
  split
  · next hempty =>
    have hrest : '\x7b' ∉ b.rest := fun hmem =>
      absurd (List.all_eq_true.mp hempty _ hmem) (by decide)
    exact ⟨[l], [], rfl, by simpa using hb.notMem hrest, .nil⟩
  · have hwide : Trims l.text (Line.widenTab (Line.tabTo 3 b.rest)) :=
      (hb.trans (Line.trims_tabTo 3 _)).trans (Line.trims_widenTab _)
    refine ⟨[], [l], rfl, by simp, .cons ⟨hwide.trans ?_, rfl⟩ .nil⟩
    dsimp only
    generalize Line.widenTab (Line.tabTo 3 b.rest) = t
    split
    · next hindent => exact Line.trims_drop (Nat.le_trans (by decide) hindent)
    · conv => lhs; rw [← takeWhile_append_drop isBlank t]
      exact Line.trims_append (fun hmem => absurd (List.mem_takeWhile_imp hmem) (by decide)) _

/-- The lines of an item are what is left of it and some blank lines. -/
theorem exists_trimmed_append (m : Line) (ms : List Line) :
    ∃ most blanks, ms = most ++ blanks ∧ trimmed (m :: ms) = m :: most ∧
      ∀ m ∈ blanks, '\x7b' ∉ m.text := by
  refine ⟨_, (ms.reverse.takeWhile fun l => Text.isBlankText l.text).reverse, ?_, rfl,
    fun m hm hmem => ?_⟩
  · rw [← List.reverse_append, List.takeWhile_append_dropWhile, List.reverse_reverse]
  · have hblank : Text.isBlankText m.text :=
      List.mem_takeWhile_imp (p := fun l : Line => Text.isBlankText l.text) (List.mem_reverse.mp hm)
    exact absurd (List.all_eq_true.mp hblank _ hmem) (by decide)

theorem Holds.narrows (h : Holds seg o) : Narrows seg o.close := by
  obtain ⟨front, kept, rfl, hfront, htrim⟩ := h
  unfold OpenItem.close
  generalize o.lines.reverse = ms at htrim
  cases htrim with
  | nil => exact ⟨front, [], [], by simp, hfront, by simp, .nil⟩
  | @cons l m ls ms hlm hlsms =>
    obtain ⟨most, blanks, rfl, hmost, hblanks⟩ := exists_trimmed_append m ms
    rw [hmost]
    refine ⟨front, l :: ls.take most.length, ls.drop most.length, by simp, hfront,
      Line.brace_notMem_of_trimmed (List.forall₂_drop_append _ _ _ hlsms) hblanks,
      .cons hlm (List.forall₂_take_append _ _ _ hlsms)⟩

/-- The items of a list share out its lines among themselves. -/
theorem following_spec (mark : Char) (o : OpenItem) (ls : List Line) (h : Holds seg o) :
    ∃ segs, seg ++ ls = segs.flatten ++ (following mark o ls).rest ∧
      List.Forall₂ Narrows segs (following mark o ls).items := by
  have hclosed {o : OpenItem} {seg : List Line} (h : Holds seg o) (ls : List Line) :
      ∃ segs, seg ++ ls = segs.flatten ++ ls ∧ List.Forall₂ Narrows segs [o.close] :=
    ⟨[seg], by simp, .cons h.narrows .nil⟩
  fun_induction following mark o ls generalizing seg
  case case1 => exact hclosed h _
  case case2 o l ls hblank ih =>
    have hl : Trimmed l { l with text := [] } :=
      ⟨by simpa using Line.trims_append (Line.brace_notMem_of_isBlank hblank) [], rfl⟩
    simpa using ih (h.add hl)
  case case3 => exact hclosed h _
  case case4 o l ls hblank t hwidth hgoes ih =>
    have hl : Trimmed l { l with text := Line.widenTab ((Line.tabTo 4 l.text).drop o.width) } :=
      ⟨((Line.trims_tabTo 4 _).trans (Line.trims_drop hwidth)).trans (Line.trims_widenTab _), rfl⟩
    simpa using ih (h.add hl)
  case case5 => exact hclosed h _
  case case6 o l ls hblank t hwidth hdivider b hnext ih =>
    have hb : Trims l.text b.rest := Line.trims_of_item? (Option.filter_eq_some_iff.mp hnext).1
    obtain ⟨segs, hsegs, hitems⟩ := ih (holds_ofBullet hb)
    refine ⟨seg :: segs, ?_, .cons h.narrows hitems⟩
    rw [List.flatten_cons, List.append_assoc]
    exact congrArg (seg ++ ·) hsegs
  case case7 => exact hclosed h _
  case case8 o l ls hblank t hwidth hdivider hnext hgoes ih =>
    have hl : Trimmed l { l with text := Line.tabTo 4 l.text, lazy := true } :=
      ⟨Line.trims_tabTo 4 _, rfl⟩
    simpa using ih (h.add hl)

theorem following_rest (mark : Char) (o : OpenItem) (ls : List Line) :
    (following mark o ls).rest <:+ ls := by
  fun_induction following mark o ls
  case case1 => exact List.suffix_refl _
  case case2 o l ls hblank ih => exact ih.trans (List.suffix_cons l ls)
  case case3 => exact List.suffix_refl _
  case case4 o l ls hblank t hwidth hgoes ih => exact ih.trans (List.suffix_cons l ls)
  case case5 => exact List.suffix_refl _
  case case6 o l ls hblank t hwidth hdivider b hnext ih => exact ih.trans (List.suffix_cons l ls)
  case case7 => exact List.suffix_refl _
  case case8 o l ls hblank t hwidth hdivider hnext hgoes ih =>
    exact ih.trans (List.suffix_cons l ls)

/-- A list takes the lines up to some place, and its items hold them. -/
theorem take_spec {b : Line.Bullet} (hb : Trims l.text b.rest) (ls : List Line) :
    ∃ used segs, ls = used ++ (take b l ls).rest ∧ l :: used = segs.flatten ∧
      List.Forall₂ Narrows segs (take b l ls).items := by
  obtain ⟨segs, hsegs, hitems⟩ := following_spec b.mark (.ofBullet b l) ls (holds_ofBullet hb)
  obtain ⟨used, hused⟩ := following_rest b.mark (.ofBullet b l) ls
  have hall : l :: used ++ (take b l ls).rest = segs.flatten ++ (take b l ls).rest := by
    rw [take, ← hsegs, List.singleton_append, List.cons_append, hused]
  exact ⟨used, segs, hused.symm, List.append_cancel_right hall, hitems⟩

end Listing

end Pageloom.Markdown
