import Pageloom.Markdown.Emphasis
import Pageloom.Proofs.Markdown.Word

/-!
# Words among emphasis

A word is read as pieces of text with runs of underscores between them, or it stands inside of one
piece. Neither is torn apart when the runs are paired up. An underscore between letters neither
opens nor closes emphasis, so no run inside of a word is ever on the stack, and what a pair of runs
encloses is everything between them.

## Main definitions

* `Markdown.Shows`: pieces of inline content in which a word can be seen.
* `Markdown.Spells`: items that spell a text whose underscores stand between letters.
* `Markdown.Bears`: items in which a word can be seen once their runs are paired up.

## Main results

* `Markdown.Held.close`: one run leaves a word on the stack as it is.
* `Markdown.shows_resolve`: a word can be seen in what its items stand for.
-/

namespace Pageloom.Markdown

open Emphasis

/-! ### Pieces -/

/-- The word can be seen in the pieces: it is spelled by texts one after the other, or it stands in
one piece. The alternative text of an image does not count, since tags are dropped from it. -/
inductive Shows (w : Text) : List Inline → Prop where
  | texts {ts : List Text} (h : w <:+: ts.flatten) : Shows w (ts.map .text)
  | code {t : Text} (h : w <:+: t) : Shows w [.code t]
  | html {t : Text} (h : w <:+: t) : Shows w [.html t]
  | autolink {url label source : Text} (hlabel : w <:+: label) (hsource : w <:+: source) :
      Shows w [.autolink url label source]
  | emphasis {is : List Inline} (h : Shows w is) : Shows w [.emphasis is]
  | strong {is : List Inline} (h : Shows w is) : Shows w [.strong is]
  | deleted {is : List Inline} (h : Shows w is) : Shows w [.deleted is]
  | link {url title : Text} {is : List Inline} (h : Shows w is) : Shows w [.link url title is]
  | within {is : List Inline} (before behind : List Inline) (h : Shows w is) :
      Shows w (before ++ is ++ behind)

/-- The items spell the text, and each run of underscores stands behind a letter and before one, if
anything follows it. -/
inductive Spells : List Item → Text → Prop where
  | text {x : Text} (hx : x ≠ []) : Spells [.piece (.text x)] x
  | addText {items : List Item} {t x : Text} (h : Spells items t) (hx : x ≠ [])
      (hmeet : t.getLast? = some '_' → ∀ c, x.head? = some c → isAlphanumeric c) :
      Spells (items ++ [.piece (.text x)]) (t ++ x)
  | addMarks {items : List Item} {t : Text} (h : Spells items t)
      (hmeet : ∀ c, t.getLast? = some c → isAlphanumeric c) (n : ℕ) :
      Spells (items ++ [.marks '_' (n + 1)]) (t ++ List.replicate (n + 1) '_')

/-- The word can be seen in what the items stand for: they spell it, or they are finished pieces. -/
inductive Bears (w : Text) : List Item → Prop where
  | spelled {items : List Item} {t : Text} (h : Spells items t) (hw : w <:+: t)
      (hlast : t.getLast? ≠ some '_') : Bears w items
  | pieces {is : List Inline} (h : Shows w is) : Bears w (is.map .piece)

variable {w t x : Text} {items rest : List Item} {is cs : List Inline}
  {stack below : List Emphasis.Entry}

theorem Shows.of_isInfix (h : Shows w is) (hcs : is <:+: cs) : Shows w cs := by
  obtain ⟨before, behind, rfl⟩ := hcs
  exact .within before behind h

theorem Shows.text (h : w <:+: t) : Shows w [.text t] :=
  @Shows.texts _ [t] (by simpa using h)

theorem allWithoutAutolinks_eq_map (is : List Inline) :
    Inline.allWithoutAutolinks is = is.map Inline.withoutAutolinks := by
  induction is with
  | nil => rfl
  | cons i is ih => rw [Inline.allWithoutAutolinks, ih, List.map_cons]

/-- The word can be seen in the source of an automatic link, too. -/
theorem Shows.withoutAutolinks (h : Shows w is) : Shows w (Inline.allWithoutAutolinks is) := by
  rw [allWithoutAutolinks_eq_map]
  induction h with
  | texts h =>
    rw [List.map_map]
    exact .texts h
  | code h => exact .code h
  | html h => exact .html h
  | autolink _ hsource => exact .text hsource
  | emphasis _ ih => exact .emphasis (allWithoutAutolinks_eq_map _ ▸ ih)
  | strong _ ih => exact .strong (allWithoutAutolinks_eq_map _ ▸ ih)
  | deleted _ ih => exact .deleted (allWithoutAutolinks_eq_map _ ▸ ih)
  | link h => exact .link h
  | within before behind _ ih =>
    rw [List.map_append, List.map_append]
    exact .within _ _ ih

/-! ### Items -/

/-- The character that stands behind the items so far: the first one of the rest, or `after`. -/
def next (after : Char) (rest : List Item) : Char := (rest.head?.map Item.first).getD after

/-! ### Reading items -/

theorem exists_resolveFrom_append (after before : Char) (items rest : List Item)
    (stack : List Emphasis.Entry) : ∃ before' stack',
      resolveFrom after before (items ++ rest) stack = resolveFrom after before' rest stack' := by
  induction items generalizing before stack with
  | nil => exact ⟨before, stack, rfl⟩
  | cons item items ih =>
    cases item with
    | piece i => exact ih _ _
    | marks mark count => exact ih _ _

theorem flanks_inWord {c d : Char} (hc : isAlphanumeric c) (hd : isAlphanumeric d) :
    flanks '_' c d = (false, false) := by
  simp [flanks, hc, hd]

/-- Items that spell a text become texts, one for each item. -/
theorem resolveFrom_spells (h : Spells items t) (after before : Char) (rest : List Item)
    (stack : List Emphasis.Entry)
    (hnext : t.getLast? = some '_' → isAlphanumeric (next after rest)) :
    ∃ (ts : List Text) (c : Char), ts.flatten = t ∧ t.getLast? = some c ∧
      resolveFrom after before (items ++ rest) stack =
        resolveFrom after c rest
          ((ts.map fun t => Emphasis.Entry.piece (.text t)).reverse ++ stack) := by
  induction h generalizing rest with
  | text hx =>
    obtain ⟨x, c, rfl⟩ := (List.eq_nil_or_concat _).resolve_left hx
    exact ⟨[x.concat c], c, by simp, by simp, by simp [resolveFrom, Item.last]⟩
  | @addText items t x h hx hmeet ih =>
    obtain ⟨ts, c, hts, hc, heq⟩ := ih (.piece (.text x) :: rest) (fun hlast => by
      obtain ⟨d, x, rfl⟩ := List.exists_cons_of_ne_nil hx
      exact hmeet hlast d rfl)
    obtain ⟨x, d, rfl⟩ := (List.eq_nil_or_concat _).resolve_left hx
    refine ⟨ts ++ [x.concat d], d, by simp [hts], by simp, ?_⟩
    rw [List.append_assoc, List.singleton_append, heq]
    simp [resolveFrom, Item.last]
  | @addMarks items t h hmeet n ih =>
    have hlast : t.getLast? ≠ some '_' := fun hlast => absurd (hmeet _ hlast) (by decide)
    have hmarks : (t ++ List.replicate (n + 1) '_').getLast? = some '_' := by
      simp [List.replicate_succ']
    obtain ⟨ts, c, hts, hc, heq⟩ := ih (.marks '_' (n + 1) :: rest) fun h => absurd h hlast
    refine ⟨ts ++ [List.replicate (n + 1) '_'], '_', by simp [hts], hmarks, ?_⟩
    rw [List.append_assoc, List.singleton_append, heq, resolveFrom]
    have hflanks := flanks_inWord (hmeet c hc) (hnext hmarks)
    rw [next] at hflanks
    simp [hflanks, close, settle, Run.text]

/-! ### Pairing runs -/

/-- The word can be seen in pieces that stand on the stack one above the other. -/
def Held (w : Text) (stack : List Emphasis.Entry) : Prop :=
  ∃ is, Shows w is ∧ (is.map Emphasis.Entry.piece).reverse <:+: stack

theorem Held.of_isInfix (h : Held w below) (hstack : below <:+: stack) : Held w stack :=
  have ⟨is, hshows, his⟩ := h
  ⟨is, hshows, his.trans hstack⟩

theorem Held.of_piece {i : Inline} (h : Shows w [i]) : Held w (.piece i :: stack) :=
  ⟨[i], h, (List.prefix_append [_] stack).isInfix⟩

/-- It can be seen in what the stack stands for. -/
theorem Held.shows (h : Held w stack) : Shows w (stack.reverse.map Entry.finish) := by
  obtain ⟨is, hshows, his⟩ := h
  have hpieces := (List.reverse_infix.mpr his).map Entry.finish
  have hfinish : (is.map Emphasis.Entry.piece).map Entry.finish = is := by
    rw [List.map_map]
    exact List.map_id is
  rw [List.reverse_reverse, hfinish] at hpieces
  exact hshows.of_isInfix hpieces

/-- An opener divides the stack: what is above it is enclosed. -/
theorem opener?_eq_some {closer o : Run} {above inner : List Inline}
    (h : opener? closer above stack = some (inner, o, below)) :
    ∃ top, stack = top ++ .run o :: below ∧ inner = top.reverse.map Entry.finish ++ above := by
  induction stack generalizing above with
  | nil => simp [opener?] at h
  | cons entry stack ih =>
    have hcons (i : Inline) (hi : entry.finish = i) (h : opener? closer (i :: above) stack =
        some (inner, o, below)) : ∃ top, entry :: stack = top ++ .run o :: below ∧
          inner = top.reverse.map Entry.finish ++ above := by
      obtain ⟨top, rfl, rfl⟩ := ih h
      exact ⟨entry :: top, rfl, by simp [hi]⟩
    cases entry with
    | piece i => exact hcons i rfl h
    | run r =>
      rw [opener?] at h
      split at h
      · cases h
        exact ⟨[], rfl, rfl⟩
      · exact hcons r.text rfl h

theorem Held.settle (h : Held w stack) (r : Run) : Held w (settle r stack) := by
  rw [Emphasis.settle]
  split
  · exact h
  · exact h.of_isInfix (List.suffix_cons _ stack).isInfix

/-- A run encloses a word or leaves it where it is. -/
theorem Held.close (h : Held w stack) (n : ℕ) (r : Run) : Held w (close n r stack) := by
  induction n generalizing r stack with
  | zero => exact h.settle r
  | succ n ih =>
    rw [Emphasis.close]
    split
    · split
      · exact h.settle r
      · next inner o below hopener =>
        split
        · exact h.settle r
        · obtain ⟨top, rfl, rfl⟩ := opener?_eq_some hopener
          obtain ⟨is, hshows, his⟩ := h
          refine ih ?_ _
          rcases (Text.infix_append_cons (by simp)).mp his with htop | hbelow
          · have hinner : Shows w (top.reverse.map Entry.finish ++ []) :=
              List.append_nil _ ▸ Held.shows ⟨is, hshows, htop⟩
            refine .of_piece ?_
            split
            · exact .strong hinner
            · exact .emphasis hinner
          · have hrest (o : Run) : Held w (if o.count = 0 then below else .run o :: below) := by
              split
              · exact ⟨is, hshows, hbelow⟩
              · exact Held.of_isInfix ⟨is, hshows, hbelow⟩ (List.suffix_cons _ below).isInfix
            exact (hrest _).of_isInfix (List.suffix_cons _ _).isInfix
    · exact h.settle r

theorem Held.resolveFrom (h : Held w stack) (after before : Char) (items : List Item) :
    Held w (resolveFrom after before items stack) := by
  induction items generalizing before stack with
  | nil => exact h
  | cons item items ih =>
    cases item with
    | piece i => exact ih (h.of_isInfix (List.suffix_cons _ stack).isInfix) _
    | marks mark count => exact ih (h.close _ _) _

theorem exists_resolveFrom_pieces (after before : Char) (is : List Inline) (rest : List Item)
    (stack : List Emphasis.Entry) : ∃ before',
      resolveFrom after before (is.map .piece ++ rest) stack =
        resolveFrom after before' rest ((is.map .piece).reverse ++ stack) := by
  induction is generalizing before stack with
  | nil => exact ⟨before, rfl⟩
  | cons i is ih =>
    obtain ⟨before', heq⟩ := ih (Item.piece i).last (.piece i :: stack)
    exact ⟨before', by simpa [resolveFrom] using heq⟩

/-- **A word can be seen in what its items stand for**, whatever items stand around them. -/
theorem shows_resolve (h : Bears w rest) (hrest : rest <:+: items) (before after : Char) :
    Shows w (resolve before after items) := by
  obtain ⟨front, behind, rfl⟩ := hrest
  rw [List.append_assoc]
  obtain ⟨before, stack, hfront⟩ :=
    exists_resolveFrom_append after before front (rest ++ behind) []
  have hheld : Held w (resolveFrom after before (rest ++ behind) stack) := by
    cases h with
    | spelled h hw hlast =>
      obtain ⟨ts, c, rfl, -, heq⟩ :=
        resolveFrom_spells h after before behind stack fun h => absurd h hlast
      rw [heq]
      refine Held.resolveFrom ⟨ts.map .text, .texts hw, ?_⟩ _ _ _
      rw [List.map_map]
      exact (List.prefix_append _ stack).isInfix
    | pieces h =>
      obtain ⟨before, heq⟩ := exists_resolveFrom_pieces after before _ behind stack
      rw [heq]
      exact Held.resolveFrom ⟨_, h, (List.prefix_append _ stack).isInfix⟩ _ _ _
  rw [resolve, hfront]
  exact hheld.shows

end Pageloom.Markdown
