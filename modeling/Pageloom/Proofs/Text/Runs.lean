import Mathlib.Data.List.Chain
import Pageloom.Proofs.Text.Places

/-!
# Runs of characters

The maximal runs of a class of characters, and texts that are made of such runs with one mark
between two of them. A character that is not of the class parts a text into two that have their runs
each for itself; all there is to know about runs comes from this.

## Main definitions

* `Text.IsSpaced`: a mark stands between other characters only, and by itself.

## Main results

* `Text.mem_runs_iff`, `Text.flatten_runs`: what a run is, and what the runs are together.
* `Text.runs_join`: runs with marks between them are the runs again.
* `Text.trim_squeeze`, `Text.trim_mark_squeeze`: a text that is squeezed and trimmed has single
  marks between its runs.
* `Text.isSpaced_join`, `Text.inOrder_join`: words with single marks between them.
-/

namespace Pageloom

namespace Text

variable {t before behind w : Text} {ws : List Text} {p q : Char → Bool} {mark sep c : Char}

/-! ### Runs -/

theorem runs_cons_of_neg (hc : p c = false) (t : Text) : runs p (c :: t) = runs p t := by
  rw [runs.eq_def]
  simp only [hc, Bool.false_eq_true, if_false]

/-- A character of the class lengthens the run with which the text behind it starts, or is a run. -/
theorem runs_cons_of_pos (hc : p c) (t : Text) :
    runs p (c :: t) =
      if t.head?.any p then
        match runs p t with
        | [] => [[c]]
        | run :: rest => (c :: run) :: rest
      else [c] :: runs p t := by
  rw [runs.eq_def]
  cases t with
  | nil => simp [hc, runs]
  | cons d t =>
    simp only [hc, if_true, List.head?_cons, Option.any_some]
    rfl

/-- A text that starts with the class has a first run. -/
theorem exists_runs_cons (hc : p c) (t : Text) : ∃ run rest, runs p (c :: t) = run :: rest := by
  rw [runs_cons_of_pos hc]
  split
  · split <;> exact ⟨_, _, rfl⟩
  · exact ⟨_, _, rfl⟩

/-- **A character that is not of the class** parts the runs of a text. -/
theorem runs_append_cons (hc : p c = false) (before behind : Text) :
    runs p (before ++ c :: behind) = runs p before ++ runs p behind := by
  induction before with
  | nil => exact runs_cons_of_neg hc behind
  | cons d before ih =>
    rw [List.cons_append]
    cases hd : p d with
    | false => rw [runs_cons_of_neg hd, runs_cons_of_neg hd, ih]
    | true =>
      rw [runs_cons_of_pos hd, runs_cons_of_pos hd, ih]
      cases before with
      | nil => simp [hc, runs]
      | cons e before =>
        cases he : p e with
        | false => simp [he]
        | true =>
          obtain ⟨run, rest, hruns⟩ := exists_runs_cons he before
          simp [he, hruns]

theorem runs_of_forall (hne : t ≠ []) (h : ∀ c ∈ t, p c) : runs p t = [t] := by
  induction t with
  | nil => exact absurd rfl hne
  | cons c t ih =>
    obtain ⟨hc, ht⟩ := List.forall_mem_cons.mp h
    rw [runs_cons_of_pos hc]
    cases t with
    | nil => rfl
    | cons d t => simp [ht d List.mem_cons_self, ih (List.cons_ne_nil d t) ht]

theorem runs_of_forall_not (h : ∀ c ∈ t, p c = false) : runs p t = [] := by
  induction t with
  | nil => rfl
  | cons c t ih =>
    obtain ⟨hc, ht⟩ := List.forall_mem_cons.mp h
    rw [runs_cons_of_neg hc, ih ht]

/-- What goes in front of a text and is not of the class makes no difference to its runs. -/
theorem runs_append_left (h : ∀ c ∈ before, p c = false) (t : Text) :
    runs p (before ++ t) = runs p t := by
  induction before with
  | nil => rfl
  | cons c before ih =>
    obtain ⟨hc, hbefore⟩ := List.forall_mem_cons.mp h
    rw [List.cons_append, runs_cons_of_neg hc, ih hbefore]

theorem runs_append_right (h : ∀ c ∈ behind, p c = false) (t : Text) :
    runs p (t ++ behind) = runs p t := by
  cases behind with
  | nil => rw [List.append_nil]
  | cons c behind =>
    obtain ⟨hc, hbehind⟩ := List.forall_mem_cons.mp h
    rw [runs_append_cons hc, runs_of_forall_not hbehind, List.append_nil]

theorem runs_congr (h : ∀ c ∈ t, p c = q c) : runs p t = runs q t := by
  induction t with
  | nil => rfl
  | cons c t ih =>
    obtain ⟨hc, ht⟩ := List.forall_mem_cons.mp h
    cases hp : p c with
    | false => rw [runs_cons_of_neg hp, runs_cons_of_neg (hc ▸ hp), ih ht]
    | true =>
      have hhead : t.head?.any p = t.head?.any q := by
        cases t with
        | nil => rfl
        | cons d t => exact ht d List.mem_cons_self
      rw [runs_cons_of_pos hp, runs_cons_of_pos (hc ▸ hp), ih ht, hhead]

/-- The runs one after the other are the characters of the class. -/
theorem flatten_runs (p : Char → Bool) (t : Text) : (runs p t).flatten = t.filter p := by
  induction t with
  | nil => rfl
  | cons c t ih =>
    cases hc : p c with
    | false => rw [runs_cons_of_neg hc, ih, List.filter_cons_of_neg (by simp [hc])]
    | true =>
      rw [runs_cons_of_pos hc, List.filter_cons_of_pos hc, ← ih]
      split
      · split
        · next hruns => simp [hruns]
        · next hruns => simp [hruns]
      · simp

/-- What is of the class and not empty is a run, if the text or the class ends on either side. -/
theorem mem_runs_append (hne : w ≠ []) (hall : ∀ c ∈ w, p c)
    (hbefore : ∀ c ∈ before.getLast?, p c = false) (hbehind : ∀ c ∈ behind.head?, p c = false) :
    w ∈ runs p (before ++ w ++ behind) := by
  have hright : w ∈ runs p (w ++ behind) := by
    cases behind with
    | nil => simp [runs_of_forall hne hall]
    | cons d behind => simp [runs_append_cons (hbehind d rfl), runs_of_forall hne hall]
  rw [List.append_assoc]
  rcases List.eq_nil_or_concat before with rfl | ⟨before, c, rfl⟩
  · exact hright
  · rw [List.concat_append, runs_append_cons (hbefore c (by simp))]
    exact List.mem_append_right _ hright

/-- A text of the class is its only run, unless it is empty. -/
theorem mem_runs_of_forall (h : ∀ c ∈ t, p c) : w ∈ runs p t ↔ w = t ∧ w ≠ [] := by
  by_cases hne : t = []
  · rw [hne]
    exact ⟨fun hw => absurd hw List.not_mem_nil, fun hw => absurd hw.1 hw.2⟩
  · rw [runs_of_forall hne h, List.mem_singleton]
    exact ⟨fun hw => ⟨hw, hw ▸ hne⟩, And.left⟩

theorem exists_append_of_mem_runs (h : w ∈ runs p t) : w ≠ [] ∧ (∀ c ∈ w, p c) ∧
    ∃ before behind, t = before ++ w ++ behind ∧ (∀ c ∈ before.getLast?, p c = false) ∧
      ∀ c ∈ behind.head?, p c = false := by
  -- the text up to the first character that is not of the class is a run, if it is not empty
  induction hlength : t.length using Nat.strong_induction_on generalizing t with
  | _ n ih =>
  cases hcut : cutWhere? (fun c => !p c) t with
  | none =>
    have hall : ∀ c ∈ t, p c := by simpa using cutWhere?_eq_none_iff.mp hcut
    obtain ⟨rfl, hne⟩ := (mem_runs_of_forall hall).mp h
    exact ⟨hne, hall, [], [], by simp, nofun, nofun⟩
  | some cut =>
    obtain ⟨first, c, rest⟩ := cut
    obtain ⟨rfl, hc, hfirst⟩ := cutWhere?_eq_some_iff.mp hcut
    replace hc : p c = false := by simpa using hc
    replace hfirst : ∀ d ∈ first, p d := by simpa using hfirst
    rw [runs_append_cons hc, List.mem_append, mem_runs_of_forall hfirst] at h
    rcases h with ⟨rfl, hne⟩ | h
    · exact ⟨hne, hfirst, [], c :: rest, by simp, nofun, by simpa using hc⟩
    · have hshorter : rest.length < n := by
        rw [← hlength, List.length_append, List.length_cons]
        omega
      obtain ⟨hne, hall, before, behind, rfl, hbefore, hbehind⟩ := ih _ hshorter h rfl
      refine ⟨hne, hall, first ++ c :: before, behind, by simp, fun d hd => ?_, hbehind⟩
      rw [List.getLast?_append_of_ne_nil _ (List.cons_ne_nil c before)] at hd
      cases before with
      | nil =>
        cases hd
        exact hc
      | cons e before => exact hbefore d (by simpa using hd)

/-- **A run** is not empty, it is of the class, and it ends where the text or the class ends. -/
theorem mem_runs_iff : w ∈ runs p t ↔ w ≠ [] ∧ (∀ c ∈ w, p c) ∧ ∃ before behind,
    t = before ++ w ++ behind ∧ (∀ c ∈ before.getLast?, p c = false) ∧
      ∀ c ∈ behind.head?, p c = false := by
  refine ⟨exists_append_of_mem_runs, ?_⟩
  rintro ⟨hne, hall, before, behind, rfl, hbefore, hbehind⟩
  exact mem_runs_append hne hall hbefore hbehind

theorem ne_nil_of_mem_runs (h : w ∈ runs p t) : w ≠ [] := (mem_runs_iff.mp h).1

theorem of_mem_of_mem_runs (h : w ∈ runs p t) (hc : c ∈ w) : p c := (mem_runs_iff.mp h).2.1 c hc

theorem mem_of_mem_runs (h : w ∈ runs p t) (hc : c ∈ w) : c ∈ t := by
  obtain ⟨-, -, before, behind, rfl, -⟩ := mem_runs_iff.mp h
  simp [hc]

/-- What is of the class stands in a run. -/
theorem exists_mem_runs (hc : c ∈ t) (hp : p c) : ∃ w ∈ runs p t, c ∈ w :=
  List.mem_flatten.mp (flatten_runs p t ▸ List.mem_filter.mpr ⟨hc, hp⟩)

/-! ### Runs with marks between them -/

theorem join_cons_cons (sep part : Text) (c : Char) (parts : List Text) :
    join sep ((c :: part) :: parts) = c :: join sep (part :: parts) := by
  cases parts <;> rfl

theorem join_map (f : Char → Char) (sep : Text) (ws : List Text) :
    (join sep ws).map f = join (sep.map f) (ws.map (List.map f)) := by
  induction ws with
  | nil => rfl
  | cons w ws ih =>
    cases ws with
    | nil => rfl
    | cons v ws => simpa [join] using ih

/-- Where no separator is of the class, what is of the class stands in the words. -/
theorem filter_join {sep : Text} (hsep : sep.filter p = []) (ws : List Text) :
    (join sep ws).filter p = ws.flatten.filter p := by
  induction ws with
  | nil => rfl
  | cons w ws ih =>
    cases ws with
    | nil => simp [join]
    | cons v ws => simp only [join, List.filter_append, hsep, List.append_nil, ih,
        List.flatten_cons]

theorem flatten_sublist_join (sep : Text) (ws : List Text) : ws.flatten.Sublist (join sep ws) := by
  induction ws with
  | nil => exact List.Sublist.refl _
  | cons w ws ih =>
    cases ws with
    | nil => simp [join]
    | cons v ws =>
      rw [List.flatten_cons, join, List.append_assoc]
      · exact (ih.trans (List.sublist_append_right sep _)).append_left w
      · exact List.cons_ne_nil v ws

/-- Words that are not empty have something between their ends. -/
theorem join_eq_nil_iff (h : ∀ w ∈ ws, w ≠ []) (sep : Text) : join sep ws = [] ↔ ws = [] := by
  cases ws with
  | nil => simp [join]
  | cons w ws =>
    obtain ⟨c, w, rfl⟩ := List.exists_cons_of_ne_nil (h w List.mem_cons_self)
    simp [join_cons_cons]

theorem mem_join {sep : Text} (h : c ∈ join sep ws) : c ∈ sep ∨ ∃ w ∈ ws, c ∈ w := by
  induction ws with
  | nil => cases h
  | cons w ws ih =>
    cases ws with
    | nil => exact .inr ⟨w, List.mem_cons_self, h⟩
    | cons v ws =>
      rw [join_cons_of_ne_nil (List.cons_ne_nil v ws), List.append_assoc, List.mem_append,
        List.mem_append] at h
      rcases h with h | h | h
      · exact .inr ⟨w, List.mem_cons_self, h⟩
      · exact .inl h
      · exact (ih h).imp_right fun ⟨u, hu, hc⟩ => ⟨u, List.mem_cons_of_mem w hu, hc⟩

/-- Runs with marks between them are the runs again. -/
theorem runs_join (h : ∀ w ∈ ws, w ≠ [] ∧ ∀ c ∈ w, p c) (hmark : p mark = false) :
    runs p (join [mark] ws) = ws := by
  induction ws with
  | nil => rfl
  | cons w ws ih =>
    obtain ⟨⟨hne, hw⟩, hws⟩ := List.forall_mem_cons.mp h
    cases ws with
    | nil => exact runs_of_forall hne hw
    | cons v ws =>
      rw [join_cons_of_ne_nil (List.cons_ne_nil v ws), List.append_assoc, List.singleton_append,
        runs_append_cons hmark, ih hws, runs_of_forall hne hw, List.singleton_append]

/-- The mark stands at neither end of the text, and nowhere twice in a row. -/
structure IsSpaced (mark : Char) (t : Text) : Prop where
  head : t.head? ≠ some mark
  last : t.getLast? ≠ some mark
  single : ¬ [mark, mark] <:+: t

/-- A mark behind a word is by itself if none follows at once. -/
theorem not_pair_infix_append (hw : mark ∉ w) (hhead : t.head? ≠ some mark)
    (ht : ¬ [mark, mark] <:+: t) : ¬ [mark, mark] <:+: w ++ mark :: t := by
  induction w with
  | nil =>
    rw [List.nil_append, List.infix_cons_iff, List.cons_prefix_cons]
    rintro (⟨-, hpre⟩ | hinf)
    · obtain ⟨rest, rfl⟩ := hpre
      exact hhead rfl
    · exact ht hinf
  | cons c w ih =>
    obtain ⟨hc, hw⟩ := not_or.mp (List.mem_cons.not.mp hw)
    rw [List.cons_append, List.infix_cons_iff, List.cons_prefix_cons]
    rintro (⟨heq, -⟩ | hinf)
    · exact hc heq
    · exact ih hw hinf

/-- Words that do not hold the mark, with single marks between them. -/
theorem isSpaced_join (h : ∀ w ∈ ws, w ≠ [] ∧ mark ∉ w) : IsSpaced mark (join [mark] ws) := by
  induction ws with
  | nil => exact ⟨nofun, nofun, by simp [join]⟩
  | cons w ws ih =>
    obtain ⟨⟨hne, hw⟩, hws⟩ := List.forall_mem_cons.mp h
    have hhead : w.head? ≠ some mark := fun hhead => hw (List.mem_of_mem_head? hhead)
    cases ws with
    | nil =>
      exact ⟨hhead, fun hlast => hw (List.mem_of_getLast? hlast),
        fun hinf => hw (hinf.subset List.mem_cons_self)⟩
    | cons v ws =>
      obtain ⟨hhead', hlast', hsingle'⟩ := ih hws
      have hrest : join [mark] (v :: ws) ≠ [] :=
        (join_eq_nil_iff (fun u hu => (hws u hu).1) [mark]).not.mpr (List.cons_ne_nil v ws)
      rw [join_cons_of_ne_nil (List.cons_ne_nil v ws), List.append_assoc, List.singleton_append]
      refine ⟨?_, ?_, not_pair_infix_append hw hhead' hsingle'⟩
      · rwa [List.head?_append_of_ne_nil _ hne]
      · rwa [List.getLast?_append_of_ne_nil _ (List.cons_ne_nil mark _),
          ← List.singleton_append, List.getLast?_append_of_ne_nil _ hrest]

/-- Words with something between them stand one behind the other. -/
theorem inOrder_join (sep : Text) (ws : List Text) : InOrder ws (join sep ws) := by
  induction ws with
  | nil => exact .nil _
  | cons w ws ih =>
    cases ws with
    | nil => exact .singleton w
    | cons v ws =>
      rw [join_cons_of_ne_nil (List.cons_ne_nil v ws), List.append_assoc]
      exact .cons [] w (ih.prepend sep)

theorem InOrder.flatten_sublist (h : InOrder ws t) : ws.flatten.Sublist t := by
  induction h with
  | nil t => exact List.nil_sublist t
  | cons before w h ih =>
    exact (ih.append_left w).trans (List.sublist_append_right before _)

/-- Nothing fits in front of a text that has to fit in itself. -/
theorem eq_nil_of_append_sublist (h : (before ++ t).Sublist t) : before = [] := by
  have hlength := h.length_le
  rw [List.length_append] at hlength
  exact List.eq_nil_of_length_eq_zero (by omega)

/-! ### Squeezing -/

/-- Trimming drops the first character only if everything behind it goes. -/
theorem trimEnd_cons (p : Char → Bool) (c : Char) (t : Text) :
    trimEnd p (c :: t) = if p c ∧ trimEnd p t = [] then [] else c :: trimEnd p t := by
  rw [trimEnd, trimEnd, List.reverse_cons, List.dropWhile_append]
  cases hdrop : t.reverse.dropWhile p with
  | nil => by_cases hc : p c <;> simp [hc]
  | cons d ds => simp

theorem trimEnd_cons_of_neg (hc : p c = false) (t : Text) :
    trimEnd p (c :: t) = c :: trimEnd p t := trimEnd_append_cons hc [] t

theorem squeezeFrom_cons_of_neg (hc : p c = false) (inside : Bool) (t : Text) :
    squeezeFrom p mark inside (c :: t) = c :: squeezeFrom p mark false t := by
  rw [squeezeFrom, if_neg (by simp [hc])]

theorem squeezeFrom_cons_of_pos (hc : p c) (t : Text) :
    squeezeFrom p mark false (c :: t) = mark :: squeezeFrom p mark true (c :: t) := by
  rw [squeezeFrom, squeezeFrom, if_pos hc, if_pos hc, if_neg Bool.false_ne_true, if_pos rfl]

/-- A run that starts the text has a mark or not; trimming makes no difference between the two. -/
theorem trimStart_squeezeFrom (hmark : p mark) (inside : Bool) (t : Text) :
    trimStart p (squeezeFrom p mark inside t) = squeezeFrom p mark true t := by
  induction t generalizing inside with
  | nil => rfl
  | cons c t ih =>
    cases hc : p c with
    | false =>
      rw [squeezeFrom_cons_of_neg hc, squeezeFrom_cons_of_neg hc, trimStart,
        List.dropWhile_cons_of_neg (by simp [hc])]
    | true =>
      have hinside : squeezeFrom p mark true (c :: t) = squeezeFrom p mark true t := by
        rw [squeezeFrom, if_pos hc, if_pos rfl]
      cases inside with
      | false =>
        rw [squeezeFrom_cons_of_pos hc, trimStart, List.dropWhile_cons_of_pos hmark, hinside]
        exact ih true
      | true => rw [hinside, ih]

/-- **Squeezing and trimming** leaves the runs of the other characters, with one mark between two of
them. -/
theorem trim_squeeze (hmark : p mark) (t : Text) :
    trim p (squeeze p mark t) = join [mark] (runs (fun c => !p c) t) := by
  rw [trim, squeeze, trimStart_squeezeFrom hmark]
  induction t with
  | nil => rfl
  | cons c t ih =>
    cases hc : p c with
    | true =>
      rw [squeezeFrom, if_pos hc, if_pos rfl, ih, runs_cons_of_neg (by simp [hc])]
    | false =>
      rw [squeezeFrom_cons_of_neg hc, trimEnd_cons_of_neg hc, runs_cons_of_pos (by simp [hc])]
      cases t with
      | nil => rfl
      | cons d t =>
        cases hd : p d with
        | false =>
          -- The run goes on.
          have hrun : (d :: t).head?.any (fun c => !p c) := by simp [hd]
          rw [squeezeFrom_cons_of_neg hd] at ih ⊢
          rw [ih, if_pos hrun]
          cases runs (fun c => !p c) (d :: t) with
          | nil => rfl
          | cons run rest => rw [join_cons_cons]
        | true =>
          -- The run ends, and it is the last one or has a mark behind it.
          have hrun : ¬ (d :: t).head?.any (fun c => !p c) := by simp [hd]
          rw [squeezeFrom_cons_of_pos hd, trimEnd_cons, ih, if_neg hrun]
          cases hruns : runs (fun c => !p c) (d :: t) with
          | nil => simp [hmark, join]
          | cons run rest =>
            have hne : run ≠ [] := ne_nil_of_mem_runs (hruns ▸ List.mem_cons_self)
            obtain ⟨e, run, rfl⟩ := List.exists_cons_of_ne_nil hne
            rw [if_neg (by simp [join_cons_cons]), join_cons_cons,
              join_cons_of_ne_nil (List.cons_ne_nil _ rest), join_cons_cons]
            rfl

theorem not_of_mem_squeezeFrom {inside : Bool} (h : c ∈ squeezeFrom p mark inside t) :
    c = mark ∨ p c = false := by
  induction t generalizing inside with
  | nil => cases h
  | cons d t ih =>
    cases hd : p d with
    | false =>
      rw [squeezeFrom_cons_of_neg hd] at h
      exact (List.mem_cons.mp h).elim (fun hc => .inr (hc ▸ hd)) ih
    | true =>
      rw [squeezeFrom, if_pos hd] at h
      split at h
      · exact ih h
      · exact (List.mem_cons.mp h).elim .inl ih

theorem trim_congr (h : ∀ c ∈ t, p c = q c) : trim p t = trim q t := by
  have hdrop {u : Text} (hu : ∀ c ∈ u, p c = q c) : u.dropWhile p = u.dropWhile q := by
    induction u with
    | nil => rfl
    | cons c u ih =>
      obtain ⟨hc, hu⟩ := List.forall_mem_cons.mp hu
      rw [List.dropWhile_cons, List.dropWhile_cons, hc, ih hu]
  rw [trim, trim, trimEnd, trimEnd, trimStart, trimStart, hdrop h, hdrop fun c hc => h c
    ((List.dropWhile_sublist q).subset (List.mem_reverse.mp hc))]

/-- The marks are all of the class that is left of a text that is squeezed, so no more has to be
trimmed. -/
theorem trim_mark_squeeze (hmark : p mark) (t : Text) :
    trim (· == mark) (squeeze p mark t) = join [mark] (runs (fun c => !p c) t) := by
  rw [← trim_squeeze hmark]
  refine trim_congr fun c hc => ?_
  rcases not_of_mem_squeezeFrom hc with rfl | hp
  · simp [hmark]
  · rw [hp, beq_eq_false_iff_ne]
    rintro rfl
    rw [hmark] at hp
    cases hp

end Text

end Pageloom
