import Pageloom.Proofs.Markdown.Emphasis
import Pageloom.Proofs.Markdown.Scanning

/-!
# Words in inline content

A text is read from left to right, so a word in it is ahead, being read, or among the parts. It is
read in several steps when it holds underscores; then the parts end with items that spell its
beginning. No other construct begins inside of a word, and none that begins before it ends there.

What comes before the word must not make it a part of something else: the target of a link, or the
alternative text of an image.

## Main definitions

* `InlineReader.Seen`: the word can be seen in the parts.
* `InlineReader.Carries`: the word is ahead, being read, or can be seen.

## Main results

* `InlineReader.Carries.push`: a piece for what is read, as most steps push one.
* `InlineReader.seen_run`: a word of a text can be seen once the text is read.
* `InlineReader.shows_read`: and so it can be seen in the content.
-/

namespace Pageloom.Markdown

open Emphasis (Item)

namespace InlineReader

/-- What may make the text behind it a part of something else: the start of a link's target, and
that of an image. -/
def targetMarks : List Text := ["](", "!["]

/-- No image is open among the parts. -/
def ImageFree (parts : List Part) : Prop := ∀ b, .bracket b ∈ parts → b.image = false

/-- Items as parts, newest first. -/
def laid (items : List Item) : List Part := items.reverse.map .item

/-- The word can be seen in the parts, and no image is open before it. -/
def Seen (w : Text) (parts : List Part) : Prop :=
  ∃ above items below, parts = above ++ laid items ++ below ∧ Bears w items ∧ ImageFree below

/-- How the reader carries a word over: the word stands in the text ahead, which has at most `n`
characters, or the parts end with its beginning and the text begins with the rest of it, or it can
be seen. -/
inductive Carries (w : Text) (n : ℕ) (parts : List Part) (t : Text) : Prop where
  | ahead (himage : ImageFree parts) (h : Text.Stands targetMarks w t) (hn : t.length ≤ n)
  | amid {items : List Item} {below : List Part} {start begun rest behind : Text}
      (hparts : parts = laid items ++ below) (h : Spells items (start ++ begun))
      (hw : w = begun ++ rest) (ht : t = rest ++ behind) (hbegun : begun ≠ []) (hrest : rest ≠ [])
      (hmeet : begun.getLast? = some '_' → rest.head? ≠ some '_') (himage : ImageFree below)
      (hn : t.length ≤ n)
  | seen (h : Seen w parts)

variable {w t u rest cs : Text} {n : ℕ} {parts below : List Part} {items : List Item} {p : Part}
  {i : Inline} {is : List Inline} {c : Char} {s : Reading}

/-! ### Parts -/

theorem imageFree_nil : ImageFree [] := by simp [ImageFree]

theorem ImageFree.of_subset (h : ImageFree parts)
    (hsub : ∀ b, .bracket b ∈ below → .bracket b ∈ parts) : ImageFree below :=
  fun b hb => h b (hsub b hb)

theorem ImageFree.bracket {b : Bracket} (h : ImageFree parts) (hb : b.image = false) :
    ImageFree (.bracket b :: parts) := fun b' hb' => by
  rcases List.mem_cons.mp hb' with heq | hmem
  · cases heq
    exact hb
  · exact h b' hmem

theorem bracket_notMem_laid (b : Bracket) (items : List Item) : .bracket b ∉ laid items := by
  simp [laid]

theorem ImageFree.push (h : ImageFree parts) (i : Item) : ImageFree (.item i :: parts) :=
  h.of_subset fun b hb => (List.mem_cons.mp hb).resolve_left (by simp)

theorem Seen.push (h : Seen w parts) (p : Part) : Seen w (p :: parts) :=
  have ⟨above, items, below, hparts, hbears, himage⟩ := h
  ⟨p :: above, items, below, by rw [hparts]; rfl, hbears, himage⟩

theorem Seen.append (h : Seen w below) (parts : List Part) : Seen w (parts ++ below) :=
  have ⟨above, items, behind, hbelow, hbears, himage⟩ := h
  ⟨parts ++ above, items, behind, by simp [hbelow], hbears, himage⟩

theorem Seen.of_piece (h : Shows w [i]) (himage : ImageFree parts) :
    Seen w (.item (.piece i) :: parts) :=
  ⟨[], [.piece i], parts, rfl, .pieces h, himage⟩

/-- The word ahead or seen, when a character comes next that it does not hold. -/
theorem Carries.of_notMem (h : Carries w n parts (c :: cs)) (hc : c ∉ w) :
    Seen w parts ∨ (ImageFree parts ∧ Text.Stands targetMarks w (c :: cs) ∧ cs.length < n) := by
  cases h with
  | ahead himage h hn => exact .inr ⟨himage, h, hn⟩
  | @amid items below start begun rest behind hparts h hw ht hbegun hrest =>
    obtain ⟨d, rest, rfl⟩ := List.exists_cons_of_ne_nil hrest
    cases ht
    exact absurd (by simp [hw]) hc
  | seen h => exact .inl h

/-- Nothing is left to read when the text is at its end. -/
theorem Carries.seen_of_nil (h : Carries w n parts []) (hw : IsWord w) : Seen w parts := by
  cases h with
  | ahead _ h => exact absurd (List.infix_nil.mp h.isInfix) hw.ne_nil
  | amid _ _ _ ht _ hrest => exact absurd (List.append_eq_nil_iff.mp ht.symm).1 hrest
  | seen h => exact h

theorem length_le_of_append (ht : c :: cs = u ++ rest) (hne : u ≠ []) (hn : cs.length < n + 1) :
    rest.length ≤ n := by
  have hlength := congrArg List.length ht
  have := List.length_pos_of_ne_nil hne
  rw [List.length_cons, List.length_append] at hlength
  omega

/-- A character that the word does not hold may be dropped. -/
theorem Carries.drop (h : Carries w n parts (c :: t)) (hc : c ∉ w) (hw : IsWord w) :
    Carries w n parts t := by
  rcases h.of_notMem hc with hseen | ⟨himage, hstands, hn⟩
  · exact .seen hseen
  · exact .ahead himage (Text.Stands.of_append (a := [c]) hstands hw.head fun hmem =>
      hc (List.mem_singleton.mp hmem ▸ List.mem_of_head? hw.head)) (Nat.le_of_lt hn)

/-- What is read becomes a piece. It begins with a character that the word does not hold, and does
not end inside of the word; if the word stands in it, the piece shows the word. -/
theorem Carries.push (h : Carries w (n + 1) parts (c :: cs)) (hc : c ∉ w) (ht : c :: cs = u ++ rest)
    (hne : u ≠ []) (hmeet : (∀ d, u.getLast? = some d → d ∉ w) ∨ ∀ d, rest.head? = some d → d ∉ w)
    (hshow : Text.Stands targetMarks w u → Shows w [i]) :
    Carries w n (.item (.piece i) :: parts) rest := by
  rcases h.of_notMem hc with hseen | ⟨himage, hstands, hn⟩
  · exact .seen (hseen.push _)
  · rw [ht] at hstands
    rcases hstands.split hmeet with hused | hrest
    · exact .seen (.of_piece (hshow hused) himage)
    · exact .ahead (himage.push _) hrest (length_le_of_append ht hne hn)

theorem Carries.push_closed {d : Char} (h : Carries w (n + 1) parts (c :: cs)) (hc : c ∉ w)
    (ht : cs = u ++ d :: rest) (hd : d ∉ w)
    (hshow : Text.Stands targetMarks w (c :: (u ++ [d])) → Shows w [i]) :
    Carries w n (.item (.piece i) :: parts) rest := by
  refine h.push hc (u := c :: (u ++ [d])) (by simp [ht]) (by simp) (.inl fun e he => ?_) hshow
  rw [← List.cons_append, List.getLast?_concat] at he
  cases he
  exact hd

/-- The word does not begin in what is read. -/
theorem Carries.skip (h : Carries w (n + 1) parts (c :: cs)) (hc : c ∉ w) (ht : c :: cs = u ++ rest)
    (hne : u ≠ []) (hbrace : '\x7b' ∉ u) (hw : IsWord w) (i : Inline) :
    Carries w n (.item (.piece i) :: parts) rest := by
  rcases h.of_notMem hc with hseen | ⟨himage, hstands, hn⟩
  · exact .seen (hseen.push _)
  · rw [ht] at hstands
    exact .ahead (himage.push _) (hstands.of_append hw.head hbrace) (length_le_of_append ht hne hn)

theorem Carries.skip_one (h : Carries w (n + 1) parts (c :: rest)) (hc : c ∉ w) (hw : IsWord w)
    (i : Inline) : Carries w n (.item (.piece i) :: parts) rest :=
  h.skip hc (u := [c]) rfl (by simp) (fun hmem =>
    hc (List.mem_singleton.mp hmem ▸ List.mem_of_head? hw.head)) hw i

/-! ### The word itself -/

/-- Items that spell the beginning of the word, and what stands before it, and do not end with an
underscore: the rest of the word is still to be read, or there is none. -/
theorem Carries.of_spells {start begun behind : Text} (hw : IsWord w)
    (h : Spells items (start ++ begun)) (heq : w ++ behind = begun ++ t) (hbegun : begun ≠ [])
    (hlast : begun.getLast? ≠ some '_') (himage : ImageFree below) (hn : t.length ≤ n) :
    Carries w n (laid items ++ below) t := by
  rcases List.append_eq_append_iff.mp heq with ⟨x, rfl, -⟩ | ⟨x, rfl, hx⟩
  · refine .seen ⟨[], items, below, rfl, .spelled h ?_ ?_, himage⟩
    · exact (List.prefix_append w x).isInfix.trans (List.suffix_append start _).isInfix
    · rwa [List.getLast?_append_of_ne_nil _ hbegun]
  · rcases eq_or_ne x [] with rfl | hne
    · refine .seen ⟨[], items, below, rfl, .spelled h ?_ ?_, himage⟩
      · rw [List.append_nil]
        exact (List.suffix_append start _).isInfix
      · rwa [List.getLast?_append_of_ne_nil _ hbegun]
    · exact .amid rfl h rfl hx hbegun hne (fun h => absurd h hlast) himage hn

/-- Text that is read up to the end of the word, up to an underscore in it, or before it. -/
theorem Carries.pushText (h : Carries w (n + 1) parts (u ++ rest)) (hw : IsWord w)
    (hne : u ≠ []) (hlast : u.getLast? ≠ some '_') :
    Carries w n (.item (.piece (.text u)) :: parts) rest := by
  have hlength (hn : (u ++ rest).length ≤ n + 1) : rest.length ≤ n := by
    have := List.length_pos_of_ne_nil hne
    rw [List.length_append] at hn
    omega
  cases h with
  | seen h => exact .seen (h.push _)
  | ahead himage h hn =>
    obtain ⟨before, behind, heq, hbefore⟩ := h
    rw [List.append_assoc] at heq
    rcases List.append_eq_append_iff.mp heq with ⟨x, rfl, hx⟩ | ⟨x, rfl, hx⟩
    · refine .ahead (himage.push _) ⟨x, behind, by rw [hx, List.append_assoc], ?_⟩ (hlength hn)
      exact hbefore.of_isInfix (List.suffix_append u x).isInfix
    · rcases eq_or_ne x [] with rfl | hx'
      · exact .ahead (himage.push _) ⟨[], behind, hx.symm, hbefore.of_isInfix List.nil_infix⟩
          (hlength hn)
      · rw [List.getLast?_append_of_ne_nil _ hx'] at hlast
        exact Carries.of_spells hw (.text hne) hx hx' hlast himage (hlength hn)
  | @amid items below start begun rest' behind hparts h hword ht hbegun hrest hmeet himage hn =>
    have hhead : u.head? = rest'.head? := by
      rw [← List.head?_append_of_ne_nil _ hne, ht, List.head?_append_of_ne_nil _ hrest]
    have hspells : Spells (items ++ [.piece (.text u)]) (start ++ (begun ++ u)) := by
      rw [← List.append_assoc]
      refine h.addText hne fun hmark d hd => ?_
      rw [List.getLast?_append_of_ne_nil _ hbegun] at hmark
      rw [hhead] at hd
      refine ((hword ▸ hw).isAlphanumeric_of_meet hmark hd (.inl rfl)).2 fun hd' => ?_
      exact hmeet hmark (hd' ▸ hd)
    have hparts' : Part.item (.piece (.text u)) :: parts =
        laid (items ++ [.piece (.text u)]) ++ below := by
      simp [hparts, laid]
    have hahead : w ++ behind = begun ++ u ++ rest := by
      rw [hword, List.append_assoc, ← ht, List.append_assoc]
    rw [hparts']
    refine .of_spells hw hspells hahead (List.append_ne_nil_of_left_ne_nil hbegun _) ?_ himage
      (hlength hn)
    rwa [List.getLast?_append_of_ne_nil _ hne]

/-- A text begins with a run of a character, which the rest does not continue. -/
theorem exists_run (c : Char) (t : Text) : ∃ k rest, t = List.replicate k c ++ rest ∧
    rest.head? ≠ some c ∧ ∀ behind, rest ≠ [] →
      (t ++ behind).takeWhile (· == c) = List.replicate k c := by
  induction t with
  | nil => exact ⟨0, [], rfl, by simp, by simp⟩
  | cons d t ih =>
    by_cases hd : d = c
    · obtain ⟨k, rest, rfl, hrest, hrun⟩ := ih
      refine ⟨k + 1, rest, by simp [hd, List.replicate_succ], hrest, fun behind hne => ?_⟩
      rw [List.cons_append, List.takeWhile_cons_of_pos (by simpa using hd), hrun behind hne, hd]
      rfl
    · exact ⟨0, d :: t, rfl, by simpa using hd, fun behind _ => by simp [hd]⟩

/-- A run of marks. Inside of the word it is a run of underscores between letters. -/
theorem Carries.pushMarks (h : Carries w (n + 1) parts (c :: cs)) (hw : IsWord w)
    (hc : c = '*' ∨ c = '_') :
    Carries w n (.item (.marks c ((cs.takeWhile (· == c)).length + 1)) :: parts)
      (cs.drop (cs.takeWhile (· == c)).length) := by
  have hlength (hn : (c :: cs).length ≤ n + 1) :
      (cs.drop (cs.takeWhile (· == c)).length).length ≤ n := by
    rw [List.length_cons] at hn
    rw [List.length_drop]
    omega
  cases h with
  | seen h => exact .seen (h.push _)
  | ahead himage h hn =>
    refine .ahead (himage.push _) ?_ (hlength hn)
    rw [← takeWhile_append_drop (· == c) cs, ← List.cons_append] at h
    refine h.of_append hw.head fun hmem => ?_
    rcases List.mem_cons.mp hmem with rfl | hmem
    · simp at hc
    · have heq : '\x7b' = c := by simpa using List.mem_takeWhile_imp (p := (· == c)) hmem
      simp [← heq] at hc
  | @amid items below start begun rest behind hparts h hword ht hbegun hrest hmeet himage hn =>
    obtain ⟨d, rest, rfl⟩ := List.exists_cons_of_ne_nil hrest
    cases ht
    have hmark : c = '_' := hc.resolve_left fun hstar =>
      absurd (hw.chars c (by simp [hword])) (hstar ▸ by decide)
    subst hmark
    obtain ⟨k, behind', rfl, hbehind, hrun⟩ := exists_run '_' rest
    have hne : behind' ≠ [] := by
      rintro rfl
      refine hw.last ?_
      rw [hword, List.append_nil, ← List.replicate_succ, List.replicate_succ', ← List.append_assoc,
        List.getLast?_concat]
    have hlast : begun.getLast? ≠ some '_' := fun h => hmeet h rfl
    have hspells : Spells (items ++ [.marks '_' (k + 1)])
        (start ++ (begun ++ List.replicate (k + 1) '_')) := by
      rw [← List.append_assoc]
      refine h.addMarks (fun c hc => ?_) k
      rw [List.getLast?_append_of_ne_nil _ hbegun] at hc
      exact ((hword ▸ hw).isAlphanumeric_of_meet hc rfl (.inr rfl)).1 fun heq => hlast (heq ▸ hc)
    have hcs : (List.replicate k '_' ++ behind').append behind =
        List.replicate k '_' ++ (behind' ++ behind) := List.append_assoc _ _ _
    have htake := hrun behind hne
    rw [List.append_assoc] at htake
    rw [hcs] at hn ⊢
    rw [htake, List.length_replicate, List.drop_left' List.length_replicate]
    refine Carries.amid (by simp [hparts, laid]) hspells ?_ rfl
      (by simp) hne (fun _ => hbehind) himage ?_
    · rw [hword, List.append_assoc, List.replicate_succ, List.cons_append]
    · rw [List.length_cons, List.length_append] at hn
      omega

/-! ### One step -/

theorem Carries.backslash (h : Carries w (n + 1) s.parts ('\\' :: rest)) (hw : IsWord w) :
    Carries w n (backslash rest s).1.parts (backslash rest s).2 := by
  have hslash : '\\' ∉ w := hw.notMem (by decide)
  unfold InlineReader.backslash
  split
  · next after =>
    refine h.skip hslash (u := '\\' :: '\n' :: after.takeWhile isBlank) ?_ (by simp) ?_ hw _
    · rw [List.cons_append, List.cons_append, List.takeWhile_append_dropWhile]
    · simpa using fun hmem => absurd (List.mem_takeWhile_imp hmem) (by decide)
  · next c after _ =>
    have hskip (hc : '\x7b' ≠ c) (i : Inline) : Carries w n (s.push i).parts after :=
      h.skip hslash (u := ['\\', c]) rfl (by simp) (by simpa using hc) hw i
    split
    · next hc => exact hskip (hc ▸ by decide) _
    · split
      · by_cases hc : '\x7b' = c
        · -- the escaped brace is the first character of a word
          exact (h.drop hslash hw).pushText hw (u := [c]) (by simp) (by simp [← hc])
        · exact hskip hc _
      · exact h.skip_one hslash hw _
  · exact h.skip_one hslash hw _

theorem Carries.spaces (h : Carries w (n + 1) s.parts (c :: cs)) (hc : c = ' ' ∨ c = '\n')
    (hw : IsWord w) : Carries w n (spaces (c :: cs) s).1.parts (spaces (c :: cs) s).2 := by
  have hcw : c ∉ w := hw.notMem_of_isBlank (hc.elim (· ▸ by decide) (· ▸ by decide))
  have hbrace : '\x7b' ∉ (c :: cs).takeWhile (· == ' ') := fun hmem => by
    simpa using List.mem_takeWhile_imp (p := (· == ' ')) hmem
  have ht := (takeWhile_append_drop (· == ' ') (c :: cs)).symm
  unfold InlineReader.spaces
  dsimp only
  split
  · next rest hrest =>
    rw [hrest] at ht
    refine h.skip hcw (u := (c :: cs).takeWhile (· == ' ') ++ '\n' :: rest.takeWhile isBlank) ?_
      (by simp) ?_ hw _
    · rw [List.append_assoc, List.cons_append, List.takeWhile_append_dropWhile]
      exact ht
    · simpa using ⟨fun hmem => absurd hmem (by simpa using hbrace),
        fun hmem => absurd (List.mem_takeWhile_imp hmem) (by decide)⟩
  · next hfeed =>
    refine h.skip hcw (u := (c :: cs).takeWhile (· == ' ')) ht (fun hnil => ?_) hbrace hw _
    rcases hc with rfl | rfl
    · simp at hnil
    · exact hfeed cs (by rw [hnil]; rfl)

theorem infix_codeText (hw : IsWord w) (h : w <:+: t) : w <:+: codeText t := by
  have hspace : ' ' ∉ w := hw.notMem (by decide)
  have hline : w <:+: Text.replaceChar '\n' ' ' t := by
    refine Text.infix_map h fun c hc => if_neg ?_
    rintro rfl
    exact absurd hc (hw.notMem (by decide))
  unfold codeText
  dsimp only
  generalize Text.replaceChar '\n' ' ' t = line at hline
  split
  · next hends =>
    simp only [Bool.and_eq_true, decide_eq_true_eq] at hends
    obtain ⟨line, rfl⟩ := List.head?_eq_some_iff.mp hends.1.1
    have hinner := (Text.infix_cons_of_notMem hspace hw.ne_nil).mp hline
    rcases List.eq_nil_or_concat line with rfl | ⟨inner, d, rfl⟩
    · exact hinner
    · have hd := hends.1.2
      rw [List.concat_eq_append, ← List.cons_append, List.getLast?_concat] at hd
      rw [Option.some.inj hd, List.concat_eq_append,
        Text.infix_concat_of_notMem hspace hw.ne_nil] at hinner
      simpa using hinner
  · exact hline

theorem Carries.backquotes (h : Carries w (n + 1) s.parts ('\x60' :: cs)) (hw : IsWord w) :
    Carries w n (backquotes ('\x60' :: cs) s).1.parts (backquotes ('\x60' :: cs) s).2 := by
  have hquote : '\x60' ∉ w := hw.notMem (by decide)
  obtain ⟨m, hm⟩ : ∃ m, ('\x60' :: cs).takeWhile (· == '\x60') = List.replicate (m + 1) '\x60' :=
    ⟨(cs.takeWhile (· == '\x60')).length, List.eq_replicate_iff.mpr
      ⟨by simp, fun c hc => by simpa using List.mem_takeWhile_imp (p := (· == '\x60')) hc⟩⟩
  have ht := (takeWhile_append_drop (· == '\x60') ('\x60' :: cs)).symm
  unfold InlineReader.backquotes
  dsimp only
  rw [hm, List.length_replicate] at ht ⊢
  generalize ('\x60' :: cs).drop (m + 1) = rest at ht ⊢
  split
  · next code after hread =>
    obtain ⟨rfl, inner, hinner⟩ := codeUpTo?_eq_some hread
    rw [List.replicate_zero, List.nil_append] at hinner
    subst hinner
    have hcode : (inner ++ List.replicate (m + 1) '\x60').take
        ((inner ++ List.replicate (m + 1) '\x60').length - (m + 1)) = inner := by
      simp
    have hcs : cs =
        List.replicate m '\x60' ++ (inner ++ List.replicate m '\x60') ++ '\x60' :: after := by
      rw [List.replicate_succ, List.cons_append] at ht
      rw [(List.cons.inj ht).2, ← List.replicate_succ, List.replicate_succ']
      simp
    refine h.push_closed hquote hcs hquote fun hstands => .code (infix_codeText hw ?_)
    have hinfix := hstands.isInfix
    rw [hcode]
    rwa [Text.infix_cons_of_notMem hquote hw.ne_nil, Text.infix_concat_of_notMem hquote hw.ne_nil,
      Text.infix_replicate_append hquote hw.ne_nil, Text.infix_append_replicate hquote hw.ne_nil]
      at hinfix
  · exact h.skip hquote ht (by simp) (by simp) hw _

theorem Carries.angle (h : Carries w (n + 1) s.parts ('<' :: rest)) (hw : IsWord w) :
    Carries w n (angle rest s).1.parts (angle rest s).2 := by
  have hangle : '<' ∉ w := hw.notMem (by decide)
  have hclose : '>' ∉ w := hw.notMem (by decide)
  have hshown {label : Text} (hpart : w <:+: '<' :: (label ++ ['>'])) : w <:+: label := by
    rwa [Text.infix_cons_of_notMem hangle hw.ne_nil, Text.infix_concat_of_notMem hclose hw.ne_nil]
      at hpart
  have hpush {u after : Text} {i : Inline} (hread : rest = u ++ '>' :: after)
      (hshow : w <:+: '<' :: (u ++ ['>']) → Shows w [i]) : Carries w n (s.push i).parts after :=
    h.push_closed hangle hread hclose fun hstands => hshow hstands.isInfix
  have hlink {label after : Text} (url : Text) (hread : rest = label ++ '>' :: after) :
      Carries w n (s.pushAutolink url label ('<' :: label ++ ['>'])).parts after := by
    unfold Reading.pushAutolink
    split
    · exact hpush hread .text
    · exact hpush hread fun hinfix => .autolink (hshown hinfix) hinfix
  unfold InlineReader.angle
  split
  · next url after hread => exact hlink url (angledUrl?_eq_some hread)
  · split
    · next mail after hread => exact hlink _ (angledMail?_eq_some hread)
    · split
      · next after hread =>
        obtain ⟨u, hu⟩ := Tag.rawHtml?_eq_some hread
        cases u with
        | nil => cases hu
        | cons d u =>
          obtain ⟨-, hrest⟩ : d = '<' ∧ u ++ '>' :: after = rest := List.cons.inj hu
          have hraw : rest.take (rest.length - after.length) = u ++ ['>'] := by
            rw [← hrest, List.append_cons, List.length_append, Nat.add_sub_cancel]
            exact List.take_left
          rw [hraw]
          have hhtml := hpush hrest.symm Shows.html
          unfold Reading.pushHtml
          dsimp only
          split
          · exact hhtml
          · split <;> exact hhtml
      · exact h.skip_one hangle hw _

theorem Carries.openBracket (ext : Extensions) (h : Carries w (n + 1) s.parts ('[' :: rest))
    (hw : IsWord w) :
    Carries w n (openBracket ext {} rest s).1.parts (openBracket ext {} rest s).2 := by
  have hopen : '[' ∉ w := hw.notMem (by decide)
  unfold InlineReader.openBracket
  dsimp only
  split
  · next name after hread =>
    -- no note is defined, so this is text
    have hrest : rest = '^' :: name ++ ']' :: after := by
      split at hread
      · split at hread
        · rw [noteKey?_eq_some hread, List.cons_append]
        · cases hread
      · cases hread
    exact h.push_closed hopen hrest (hw.notMem (by decide)) fun hstands => .text hstands.isInfix
  · rcases h.of_notMem hopen with hseen | ⟨himage, hstands, hn⟩
    · exact .seen (hseen.push _)
    · exact .ahead (himage.bracket rfl)
        (hstands.of_append (a := ['[']) hw.head (by decide)) (Nat.le_of_lt_succ hn)

/-! ### Closing brackets -/

theorem newestBracket?_eq_some {above inner : List Item} {b : Bracket}
    (h : newestBracket? above parts = some (inner, b, below)) :
    ∃ top : List Item, parts = top.map .item ++ .bracket b :: below ∧
      inner = top.reverse ++ above := by
  induction parts generalizing above with
  | nil => simp [newestBracket?] at h
  | cons p parts ih =>
    cases p with
    | item i =>
      obtain ⟨top, rfl, rfl⟩ := ih h
      exact ⟨i :: top, rfl, by simp⟩
    | bracket b' =>
      cases h
      exact ⟨[], rfl, rfl⟩

/-- Items that stand among parts with a bracket stand on one side of it. -/
theorem laid_append_of_eq {top : List Item} {b : Bracket} {above behind : List Part}
    (h : top.map .item ++ .bracket b :: below = above ++ laid items ++ behind) :
    (∃ y, top.map .item = above ++ (laid items ++ y) ∧ behind = y ++ .bracket b :: below) ∨
      ∃ x, below = x ++ laid items ++ behind := by
  rw [List.append_assoc] at h
  rcases List.append_eq_append_iff.mp h with ⟨x, rfl, hx⟩ | ⟨x, htop, hx⟩
  · cases x with
    | nil =>
      cases hlaid : laid items with
      | nil => exact .inl ⟨[], by simp, by simpa [hlaid] using hx.symm⟩
      | cons p ps =>
        rw [hlaid] at hx
        cases hx
        exact absurd (hlaid ▸ List.mem_cons_self) (bracket_notMem_laid b items)
    | cons p x =>
      obtain ⟨-, hbelow⟩ := List.cons.inj hx
      exact .inr ⟨x, by rw [hbelow, List.append_assoc]; rfl⟩
  · rcases List.append_eq_append_iff.mp hx with ⟨y, rfl, hy⟩ | ⟨y, hlaid, hy⟩
    · exact .inl ⟨y, htop, hy⟩
    · cases y with
      | nil => exact .inl ⟨[], by rw [htop, hlaid]; simp, hy.symm⟩
      | cons p y =>
        cases hy
        exact absurd (by rw [hlaid]; simp) (bracket_notMem_laid b items)

/-- The items in which the word can be seen are above a bracket, or they are below it. -/
theorem Seen.split {top : List Item} {b : Bracket}
    (h : Seen w (top.map .item ++ .bracket b :: below)) :
    (∃ above items front, top = above ++ items.reverse ++ front ∧ Bears w items ∧
      ImageFree (.bracket b :: below)) ∨ Seen w below := by
  obtain ⟨above, items, behind, heq, hbears, himage⟩ := h
  rcases laid_append_of_eq heq with ⟨y, htop, rfl⟩ | ⟨x, rfl⟩
  · obtain ⟨above, rest, rfl, -, hrest⟩ := List.map_eq_append_iff.mp htop
    obtain ⟨items', front, rfl, hitems, -⟩ := List.map_eq_append_iff.mp hrest
    obtain rfl : items' = items.reverse :=
      List.map_injective_iff.mpr (fun _ _ h => Part.item.inj h) hitems
    exact .inl ⟨above, items, front, by rw [List.append_assoc], hbears,
      himage.of_subset fun b' hb' => List.mem_append_right y hb'⟩
  · exact .inr ⟨x, items, behind, rfl, hbears, himage⟩

theorem ImageFree.unbracket {top : List Item} {b : Bracket}
    (h : ImageFree (top.map .item ++ .bracket b :: below)) (i : Item) :
    ImageFree (top.map .item ++ .item i :: below) :=
  h.of_subset fun b' hb' => by simpa using .inr (by simpa using hb')

/-- A bracket that becomes text leaves the word as it is. -/
theorem Seen.unbracket {top : List Item} {b : Bracket}
    (h : Seen w (top.map .item ++ .bracket b :: below)) (i : Item) :
    Seen w (top.map .item ++ .item i :: below) := by
  rcases h.split with ⟨above, items, front, rfl, hbears, himage⟩ | hbelow
  · refine ⟨above.map .item, items, front.map .item ++ .item i :: below, by simp [laid], hbears, ?_⟩
    exact himage.of_subset fun b' hb' => List.mem_cons_of_mem _ (by simpa using hb')
  · exact (hbelow.push _).append _

theorem bracket_mem_disableLinks {b : Bracket} (h : .bracket b ∈ disableLinks parts) :
    ∃ b', .bracket b' ∈ parts ∧ b.image = b'.image := by
  obtain ⟨p, hp, heq⟩ := List.mem_map.mp h
  cases p with
  | item i => cases heq
  | bracket b' =>
    cases heq
    exact ⟨b', hp, rfl⟩

theorem ImageFree.disableLinks (h : ImageFree parts) : ImageFree (disableLinks parts) := fun _ hb =>
  have ⟨b', hb', heq⟩ := bracket_mem_disableLinks hb
  heq.trans (h b' hb')

theorem Seen.disableLinks (h : Seen w parts) : Seen w (disableLinks parts) := by
  obtain ⟨above, items, below, rfl, hbears, himage⟩ := h
  have hlaid : InlineReader.disableLinks (laid items) = laid items := by
    rw [InlineReader.disableLinks, laid, List.map_map]
    rfl
  refine ⟨InlineReader.disableLinks above, items, InlineReader.disableLinks below, ?_, hbears,
    himage.disableLinks⟩
  conv_rhs => rw [← hlaid]
  simp only [InlineReader.disableLinks, List.map_append]

/-- Without definitions a closing bracket needs a parenthesis behind it. -/
theorem target?_eq_none (shown : Text) (h : rest.head? ≠ some '(') :
    target? {} shown rest = none := by
  unfold target?
  dsimp only
  split
  · next found hfound =>
    split at hfound
    · exact absurd rfl h
    · cases hfound
  · rfl

theorem Carries.closeBracket (h : Carries w (n + 1) s.parts (']' :: rest)) (hw : IsWord w) :
    Carries w n (closeBracket {} s rest).1.parts (closeBracket {} s rest).2 := by
  have hclose : ']' ∉ w := hw.notMem (by decide)
  unfold InlineReader.closeBracket
  split
  · exact h.skip_one hclose hw _
  · next inner b below hbracket =>
    obtain ⟨top, hparts, rfl⟩ := newestBracket?_eq_some hbracket
    rw [List.append_nil]
    dsimp only
    rw [List.reverse_reverse]
    rcases h.of_notMem hclose with hseen | ⟨himage, hstands, hn⟩
    · rw [hparts] at hseen
      split
      · refine .seen ?_
        rcases hseen.split with ⟨above, items, front, rfl, hbears, himage⟩ | hbelow
        · -- the word is in the brackets, which are not those of an image
          rw [himage b List.mem_cons_self]
          have hbelow : ImageFree below := himage.of_subset fun _ hb => List.mem_cons_of_mem _ hb
          refine .of_piece (.link (Shows.withoutAutolinks ?_)) hbelow.disableLinks
          exact shows_resolve hbears (by simp) _ _
        · split
          · exact hbelow.push _
          · exact hbelow.disableLinks.push _
      · exact .seen ((hseen.unbracket _).push _)
    · have hparen : rest.head? ≠ some '(' := fun hhead => by
        obtain ⟨cs, rfl⟩ := List.head?_eq_some_iff.mp hhead
        have hmark : [']', '('] ∈ targetMarks := by decide
        exact Text.not_stands_of_mark (t := cs) hmark hw.head (by decide) hstands
      rw [target?_eq_none _ hparen, ite_self]
      rw [hparts] at himage
      exact .ahead ((himage.unbracket _).push _)
        (hstands.of_append (a := [']']) hw.head (by decide)) (Nat.le_of_lt_succ hn)

/-! ### Further steps -/

theorem Carries.openImage (h : Carries w (n + 1) parts ('!' :: '[' :: rest)) (hw : IsWord w)
    (b : Bracket) : Carries w n (.bracket b :: parts) rest := by
  rcases h.of_notMem (hw.notMem (by decide)) with hseen | ⟨-, hstands, -⟩
  · exact .seen (hseen.push _)
  · have hmark : ['!', '['] ∈ targetMarks := by decide
    exact absurd hstands (Text.not_stands_of_mark (t := rest) hmark hw.head (by decide))

theorem Carries.bareUrl {inBracket : Bool} {url : Text}
    (h : Carries w (n + 1) s.parts ('h' :: cs)) (hw : IsWord w)
    (hread : bareUrl? inBracket ('h' :: cs) = some (url, rest)) :
    Carries w n (s.pushAutolink url url url).parts rest := by
  obtain ⟨ht, hend⟩ := bareUrl?_eq_some hread
  have hne : url ≠ [] := by
    rintro rfl
    obtain rfl : rest = 'h' :: cs := ht.symm
    exact absurd (hend 'h' rfl) (by decide)
  have hinside : ∀ d ∈ w, ¬ (isBlank d || d == '<' || ".,:;\"')]".toList.elem d) :=
    hw.forall_mem (by decide)
  have hmeet (d : Char) (hd : rest.head? = some d) : d ∉ w := fun hmem =>
    hinside d hmem (hend d hd)
  have hpush {i : Inline} (hshow : w <:+: url → Shows w [i]) : Carries w n (s.push i).parts rest :=
    h.push (hw.notMem (by decide)) ht hne (.inr hmeet) fun hstands => hshow hstands.isInfix
  unfold Reading.pushAutolink
  split
  · exact hpush .text
  · exact hpush fun hinfix => .autolink hinfix hinfix

theorem Carries.deletion {inside : Text} (h : Carries w (n + 1) parts ('~' :: '~' :: cs))
    (hw : IsWord w) (hread : deletion? cs = some (inside, rest))
    (hinside : Carries w n [] inside → Shows w is) :
    Carries w n (.item (.piece (.deleted is)) :: parts) rest := by
  have htilde : '~' ∉ w := hw.notMem (by decide)
  rcases h.of_notMem htilde with hseen | ⟨himage, hstands, hn⟩
  · exact .seen (hseen.push _)
  · rw [deletion?_eq_some hread] at hstands hn
    simp only [List.length_cons, List.length_append] at hn
    have hbehind := hstands.of_append (a := ['~', '~']) hw.head (by decide)
    rcases hbehind.split (.inr fun d hd => by cases hd; exact htilde) with hin | hrest
    · have hshows := hinside (.ahead imageFree_nil hin (by omega))
      exact .seen (.of_piece (.deleted hshows) himage)
    · exact .ahead (himage.push _) (hrest.of_append (a := ['~', '~']) hw.head (by decide))
        (by omega)

theorem Carries.plain (h : Carries w (n + 1) s.parts (c :: cs)) (hw : IsWord w)
    (hc : isSpecial c = false) : Carries w n
      (s.pushText (c :: cs.takeWhile fun d => !isSpecial d)).parts
      (cs.drop (cs.takeWhile fun d => !isSpecial d).length) := by
  rw [← takeWhile_append_drop (fun d => !isSpecial d) cs, ← List.cons_append] at h
  refine Carries.pushText h hw (by simp) fun hlast => ?_
  rcases List.mem_cons.mp (List.mem_of_getLast? hlast) with heq | hmem
  · rw [← heq] at hc
    cases hc
  · exact absurd (List.mem_takeWhile_imp hmem) (by decide)

/-! ### The whole text -/

theorem Seen.finish (h : Seen w s.parts) : Shows w s.finish := by
  obtain ⟨above, items, below, hparts, hbears, -⟩ := h
  have hitems : (laid items).reverse.map Part.flatten = items := by
    simp [laid, List.map_reverse, Function.comp_def, Part.flatten]
  refine shows_resolve hbears ?_ _ _
  rw [hparts, List.reverse_append, List.reverse_append, List.map_append, List.map_append, hitems,
    ← List.append_assoc]
  exact List.infix_append _ _ _

/-- **A word of a text** can be seen once the text is read. -/
theorem seen_run (ext : Extensions) (hw : IsWord w) (h : Carries w n s.parts t) :
    Seen w (run ext {} n t s).parts := by
  induction n generalizing t s with
  | zero =>
    cases t with
    | nil => exact h.seen_of_nil hw
    | cons c cs =>
      cases h with
      | ahead _ _ hn => cases hn
      | amid _ _ _ _ _ _ _ _ hn => cases hn
      | seen h => exact h
  | succ n ih =>
    cases t with
    | nil => exact h.seen_of_nil hw
    | cons c cs =>
      have hskip (hc : c ∉ w) : Seen w (run ext {} n cs (s.pushText [c])).parts :=
        ih (h.skip_one hc hw _)
      unfold run
      dsimp only
      split
      · exact ih (h.backslash hw)
      · exact ih (h.backquotes hw)
      · exact ih (h.angle hw)
      · exact ih (h.openBracket ext hw)
      · exact ih (h.closeBracket hw)
      · split
        · exact ih (h.openImage hw _)
        · exact hskip (hw.notMem (by decide))
      · split
        · next inside rest hread =>
          split
          · split at hread
            · split at hread
              · refine ih (h.deletion hw hread fun hinside => ?_)
                exact (ih (s := { s with parts := [] }) hinside).finish
              · cases hread
            · cases hread
          · exact hskip (hw.notMem (by decide))
        · exact hskip (hw.notMem (by decide))
      · split
        · next url rest hread =>
          split at hread
          · exact ih (h.bareUrl hw hread)
          · cases hread
        · exact hskip (hw.notMem (by decide))
      · split
        · next hc => exact ih (h.pushMarks hw (by simpa using hc))
        · split
          · next hc => exact ih (h.spaces (by simpa using hc) hw)
          · refine ih (h.plain hw ?_)
            simp_all [isSpecial]

/-- A word of a text can be seen in its content, unless a target or an image comes before it. -/
theorem shows_read (ext : Extensions) (cited : List Text) (hw : IsWord w)
    (h : Text.Stands targetMarks w t) : Shows w (read ext {} cited t).1 :=
  (seen_run ext hw (.ahead imageFree_nil h le_rfl)).finish

end InlineReader

end Pageloom.Markdown
