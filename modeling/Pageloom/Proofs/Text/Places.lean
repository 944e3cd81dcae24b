import Mathlib.Data.List.Infix
import Pageloom.Proofs.Text.Breaks
import Pageloom.Proofs.Text.Parts

/-!
# Places in a text

A word stands in a text, and some marks do not occur before it. A reader that goes through the text
takes it apart, and the word stays in one piece as long as no part begins or ends inside of it. What
is before the word only gets shorter, so the marks do not come before it in its part either.

## Main definitions

* `Text.Avoids`: none of some marks occurs in a text.
* `Text.Stands`: a word stands in a text, and none of some marks before it.
* `Text.InOrder`: words stand in a text one behind the other.

## Main results

* `Text.Stands.split`: a text in two parts that do not meet inside the word.
* `Text.Stands.trim`: characters at the ends that the word does not consist of.
* `Text.infix_unifyBreaks_iff`: what is on one line does not depend on how lines are broken.
* `Text.InOrder.append`, `Text.InOrder.of_append`: words in the parts of a text.
-/

namespace Pageloom.Text

variable {marks few : List Text} {w t a b : Text} {c : Char} {p : Char → Bool}

/-- None of the marks occurs in the text. -/
def Avoids (marks : List Text) (t : Text) : Prop := ∀ mark ∈ marks, ¬ mark <:+: t

instance (marks : List Text) (t : Text) : Decidable (Avoids marks t) :=
  inferInstanceAs (Decidable (∀ mark ∈ marks, ¬ mark <:+: t))

/-- The word stands in the text at a place before which none of the marks occurs. -/
def Stands (marks : List Text) (w t : Text) : Prop :=
  ∃ before behind, t = before ++ w ++ behind ∧ Avoids marks before

/-! ### Words without a character -/

/-- A part of a list does not reach over an element that it does not hold. -/
theorem infix_append_cons {α : Type*} {w a b : List α} {c : α} (hc : c ∉ w) :
    w <:+: a ++ c :: b ↔ w <:+: a ∨ w <:+: b := by
  constructor
  · rintro ⟨before, behind, h⟩
    rw [List.append_assoc] at h
    rcases List.append_eq_append_iff.mp h with ⟨x, ha, hx⟩ | ⟨x, hbefore, hx⟩
    · -- the word begins in `a`
      rcases List.append_eq_append_iff.mp hx with ⟨y, hy, -⟩ | ⟨y, hy, hb⟩
      · exact .inl ⟨before, y, by rw [ha, hy, List.append_assoc]⟩
      · cases y with
        | nil => exact .inl ⟨before, [], by rw [ha, hy]; simp⟩
        | cons d y =>
          cases hb
          exact absurd (by simp [hy]) hc
    · cases x with
      | nil =>
        cases w with
        | nil => exact .inl (List.nil_infix)
        | cons d w =>
          cases hx
          exact absurd List.mem_cons_self hc
      | cons d x =>
        cases hx
        exact .inr ⟨x, behind, by simp⟩
  · rintro (h | h)
    · exact h.trans (List.prefix_append a _).isInfix
    · exact h.trans ((List.suffix_cons c b).trans (List.suffix_append a _)).isInfix

theorem infix_cons_of_notMem (hc : c ∉ w) (hne : w ≠ []) : w <:+: c :: t ↔ w <:+: t := by
  rw [← List.nil_append (c :: t), infix_append_cons hc, List.infix_nil, or_iff_right hne]

theorem infix_concat_of_notMem (hc : c ∉ w) (hne : w ≠ []) : w <:+: t ++ [c] ↔ w <:+: t := by
  rw [infix_append_cons hc, List.infix_nil, or_iff_left hne]

theorem infix_replicate_append (hc : c ∉ w) (hne : w ≠ []) (n : ℕ) :
    w <:+: List.replicate n c ++ t ↔ w <:+: t := by
  induction n with
  | zero => rfl
  | succ n ih => rw [List.replicate_succ, List.cons_append, infix_cons_of_notMem hc hne, ih]

theorem infix_append_replicate (hc : c ∉ w) (hne : w ≠ []) (n : ℕ) :
    w <:+: t ++ List.replicate n c ↔ w <:+: t := by
  induction n with
  | zero => rw [List.replicate_zero, List.append_nil]
  | succ n ih =>
    rw [List.replicate_succ', ← List.append_assoc, infix_concat_of_notMem hc hne, ih]

theorem Avoids.of_isInfix (h : Avoids marks t) (ha : a <:+: t) : Avoids marks a :=
  fun mark hmem hinf => h mark hmem (hinf.trans ha)

theorem Avoids.mono (h : Avoids marks t) (hfew : few ⊆ marks) : Avoids few t :=
  fun mark hmem => h mark (hfew hmem)

theorem avoids_append_cons (hc : ∀ mark ∈ marks, c ∉ mark) (ha : Avoids marks a)
    (hb : Avoids marks b) : Avoids marks (a ++ c :: b) := fun mark hmem hinf =>
  ((infix_append_cons (hc mark hmem)).mp hinf).elim (ha mark hmem) (hb mark hmem)

theorem avoids_nil (hne : [] ∉ marks) : Avoids marks [] := fun _ hmem hinf =>
  hne (List.infix_nil.mp hinf ▸ hmem)

/-- Characters of which no mark consists may be put in front. -/
theorem Avoids.replicate_append (hc : ∀ mark ∈ marks, c ∉ mark) (hne : [] ∉ marks)
    (h : Avoids marks t) (n : ℕ) : Avoids marks (List.replicate n c ++ t) := by
  induction n with
  | zero => exact h
  | succ n ih => exact avoids_append_cons (a := []) hc (avoids_nil hne) ih

/-! ### Words with something before them -/

theorem stands_nil_iff : Stands [] w t ↔ w <:+: t :=
  exists₂_congr fun before behind => by simp [Avoids, eq_comm]

theorem Stands.mono (h : Stands marks w t) (hfew : few ⊆ marks) : Stands few w t :=
  have ⟨before, behind, ht, hbefore⟩ := h
  ⟨before, behind, ht, hbefore.mono hfew⟩

theorem Stands.isInfix (h : Stands marks w t) : w <:+: t :=
  stands_nil_iff.mp (h.mono (List.nil_subset marks))

theorem Stands.append (h : Stands marks w a) (b : Text) : Stands marks w (a ++ b) :=
  have ⟨before, behind, ha, hbefore⟩ := h
  ⟨before, behind ++ b, by rw [ha, List.append_assoc], hbefore⟩

/-- What ends with a character of no mark may be put in front, if it avoids the marks. -/
theorem Stands.prepend (hc : ∀ mark ∈ marks, c ∉ mark) (ha : Avoids marks a)
    (h : Stands marks w b) : Stands marks w (a ++ c :: b) := by
  obtain ⟨before, behind, rfl, hbefore⟩ := h
  exact ⟨a ++ c :: before, behind, by simp, avoids_append_cons hc ha hbefore⟩

theorem Stands.replicate_append (hc : ∀ mark ∈ marks, c ∉ mark) (hne : [] ∉ marks)
    (h : Stands marks w t) (n : ℕ) : Stands marks w (List.replicate n c ++ t) := by
  obtain ⟨before, behind, rfl, hbefore⟩ := h
  exact ⟨List.replicate n c ++ before, behind, by simp, hbefore.replicate_append hc hne n⟩

/-- The word does not begin in a text without its first character. -/
theorem Stands.of_append (h : Stands marks w (a ++ b)) (hw : w.head? = some c) (hc : c ∉ a) :
    Stands marks w b := by
  obtain ⟨w, rfl⟩ := List.head?_eq_some_iff.mp hw
  obtain ⟨before, behind, heq, hbefore⟩ := h
  rw [List.append_assoc] at heq
  rcases List.append_eq_append_iff.mp heq with ⟨x, rfl, hb⟩ | ⟨x, rfl, hx⟩
  · exact ⟨x, behind, by rw [hb, List.append_assoc],
      hbefore.of_isInfix (List.suffix_append a x).isInfix⟩
  · cases x with
    | nil => exact ⟨[], behind, hx.symm, hbefore.of_isInfix List.nil_infix⟩
    | cons d x =>
      obtain ⟨rfl, -⟩ := List.cons.inj hx
      exact absurd (by simp) hc

/-- No mark comes right before a place where the word stands. -/
theorem not_stands_of_mark {mark : Text} (hmark : mark ∈ marks) (hw : w.head? = some c)
    (hc : c ∉ mark) : ¬ Stands marks w (mark ++ t) := by
  rintro ⟨before, behind, heq, hbefore⟩
  obtain ⟨w, rfl⟩ := List.head?_eq_some_iff.mp hw
  rw [List.append_assoc] at heq
  rcases List.append_eq_append_iff.mp heq with ⟨x, rfl, -⟩ | ⟨x, rfl, hx⟩
  · exact hbefore mark hmark (List.prefix_append mark x).isInfix
  · cases x with
    | nil => exact hbefore _ hmark (by simp)
    | cons d x =>
      obtain ⟨rfl, -⟩ := List.cons.inj hx
      exact absurd (by simp) hc

/-- A word does not belong to two parts of a text at once, if the first part ends or the second one
begins with another character. -/
theorem Stands.split (h : Stands marks w (a ++ b))
    (hmeet : (∀ c, a.getLast? = some c → c ∉ w) ∨ ∀ c, b.head? = some c → c ∉ w) :
    Stands marks w a ∨ Stands marks w b := by
  obtain ⟨before, behind, heq, hbefore⟩ := h
  rw [List.append_assoc] at heq
  rcases List.append_eq_append_iff.mp heq with ⟨x, rfl, hb⟩ | ⟨x, rfl, hx⟩
  · exact .inr ⟨x, behind, by rw [hb, List.append_assoc],
      hbefore.of_isInfix (List.suffix_append a x).isInfix⟩
  · rcases List.append_eq_append_iff.mp hx with ⟨y, rfl, -⟩ | ⟨y, rfl, hb⟩
    · exact .inl ⟨before, y, by simp, hbefore⟩
    · -- the word is `x ++ y`, so one of them is empty
      rcases List.eq_nil_or_concat x with rfl | ⟨x, d, rfl⟩
      · exact .inr ⟨[], behind, hb, hbefore.of_isInfix List.nil_infix⟩
      · cases y with
        | nil => exact .inl ⟨before, [], by simp, hbefore⟩
        | cons e y =>
          subst hb
          rcases hmeet with hmeet | hmeet
          · exact absurd (by simp) (hmeet d (by simp))
          · exact absurd (by simp) (hmeet e (by simp))

theorem Stands.dropWhile (h : Stands marks w t) (hw : w.head? = some c) (hc : p c = false) :
    Stands marks w (t.dropWhile p) := by
  rw [← List.takeWhile_append_dropWhile (p := p) (l := t)] at h
  exact h.of_append hw fun hmem => by simp [List.mem_takeWhile_imp hmem] at hc

theorem Stands.trimEnd (h : Stands marks w t) (hne : w ≠ []) (hw : ∀ c ∈ w, p c = false) :
    Stands marks w (trimEnd p t) := by
  obtain ⟨before, behind, rfl, hbefore⟩ := h
  obtain ⟨w, d, rfl⟩ := (List.eq_nil_or_concat w).resolve_left hne
  have hsplit : before ++ w.concat d ++ behind = before ++ w ++ d :: behind := by simp
  rw [hsplit, trimEnd_append_cons (hw d (by simp))]
  exact ⟨before, Text.trimEnd p behind, by simp, hbefore⟩

/-- Characters that the word does not hold may be dropped at the ends. -/
theorem Stands.trim (h : Stands marks w t) (hne : w ≠ []) (hw : ∀ c ∈ w, p c = false) :
    Stands marks w (trim p t) := by
  obtain ⟨c, w, rfl⟩ := List.exists_cons_of_ne_nil hne
  exact (h.dropWhile rfl (hw c List.mem_cons_self)).trimEnd hne hw

theorem infix_map {f : Char → Char} (h : w <:+: t) (hw : ∀ c ∈ w, f c = c) : w <:+: t.map f := by
  have := h.map f
  rwa [List.map_congr_left hw, List.map_id'] at this

/-! ### Parts -/

theorem infix_join {sep part : Text} {parts : List Text} (h : part ∈ parts) :
    part <:+: join sep parts := by
  induction parts with
  | nil => cases h
  | cons first parts ih =>
    rcases eq_or_ne parts [] with rfl | hne
    · rw [List.mem_singleton] at h
      rw [h]
      exact List.infix_refl first
    · rw [join_cons_of_ne_nil hne, List.append_assoc]
      rcases List.mem_cons.mp h with rfl | h
      · exact (List.prefix_append _ _).isInfix
      · exact (ih h).trans ((List.suffix_append _ _).trans (List.suffix_append _ _)).isInfix

theorem infix_of_mem_split {sep : Char} {part : Text} (h : part ∈ split sep t) : part <:+: t :=
  join_split sep t ▸ infix_join h

/-- The last part of a text and the first one of the text behind it are one part. -/
theorem split_append {sep : Char} {parts more : List Text} {last first u : Text}
    (ht : split sep t = parts ++ [last]) (hu : split sep u = first :: more) :
    split sep (t ++ u) = parts ++ (last ++ first) :: more := by
  induction t generalizing parts last with
  | nil =>
    obtain ⟨rfl, hlast⟩ := List.append_eq_singleton_iff.mp ht.symm |>.resolve_right (by simp)
    cases hlast
    exact hu
  | cons c t ih =>
    rw [List.cons_append, split]
    rw [split] at ht
    by_cases hc : c = sep
    · rw [if_pos hc] at ht ⊢
      cases parts with
      | nil => exact absurd (List.cons.inj ht).2 (split_ne_nil sep t)
      | cons part parts =>
        obtain ⟨rfl, htail⟩ := List.cons.inj ht
        rw [ih htail]
        rfl
    · rw [if_neg hc] at ht ⊢
      obtain ⟨part, rest, hsplit⟩ := List.exists_cons_of_ne_nil (split_ne_nil sep t)
      rw [hsplit] at ht
      cases parts with
      | nil =>
        cases ht
        have htail := @ih [] part hsplit
        rw [htail]
        rfl
      | cons part' parts =>
        obtain ⟨rfl, rfl⟩ := List.cons.inj ht
        have htail := @ih (part :: parts) last hsplit
        rw [htail]
        rfl

/-! ### Line breaks -/

theorem not_prefix_cons (hne : w ≠ []) (hc : c ∉ w) (t : Text) : ¬ w <+: c :: t := fun h =>
  (List.prefix_cons_iff.mp h).elim hne fun ⟨_, hw, _⟩ => hc (hw ▸ List.mem_cons_self)

/-- A word that holds no line break begins both texts or neither of them. -/
theorem Unifies.prefix_iff {s : Text} (h : Unifies s t) (hreturn : '\r' ∉ w) (hfeed : '\n' ∉ w) :
    w <+: s ↔ w <+: t := by
  by_cases hne : w = []
  · simp [hne]
  induction h generalizing w with
  | nil => rfl
  | pair => exact iff_of_false (not_prefix_cons hne hreturn _) (not_prefix_cons hne hfeed _)
  | alone => exact iff_of_false (not_prefix_cons hne hreturn _) (not_prefix_cons hne hfeed _)
  | other _ _ ih =>
    rw [List.prefix_cons_iff, List.prefix_cons_iff]
    refine or_congr_right (exists_congr fun w' => and_congr_right ?_)
    rintro rfl
    rcases eq_or_ne w' [] with rfl | hne'
    · simp
    · exact ih (mt (List.mem_cons_of_mem _) hreturn) (mt (List.mem_cons_of_mem _) hfeed) hne'

theorem Unifies.infix_iff {s : Text} (h : Unifies s t) (hne : w ≠ []) (hreturn : '\r' ∉ w)
    (hfeed : '\n' ∉ w) : w <:+: s ↔ w <:+: t := by
  induction h with
  | nil => rfl
  | pair _ ih =>
    simp [List.infix_cons_iff, not_prefix_cons hne hreturn, not_prefix_cons hne hfeed, ih]
  | alone _ _ ih =>
    simp [List.infix_cons_iff, not_prefix_cons hne hreturn, not_prefix_cons hne hfeed, ih]
  | other hc h ih =>
    rw [List.infix_cons_iff, List.infix_cons_iff, (Unifies.other hc h).prefix_iff hreturn hfeed, ih]

theorem unifyBreaks_append_of_notMem (h : '\r' ∉ a) (t : Text) :
    unifyBreaks (a ++ t) = a ++ unifyBreaks t := by
  induction a with
  | nil => rfl
  | cons c a ih =>
    obtain ⟨hc, ha⟩ := not_or.mp (List.mem_cons.not.mp h)
    rw [List.cons_append, unifyBreaks_cons_of_ne (Ne.symm hc), ih ha, List.cons_append]

/-- What holds no line break does not depend on how lines are broken. -/
theorem infix_unifyBreaks_iff (hne : w ≠ []) (hreturn : '\r' ∉ w) (hfeed : '\n' ∉ w) :
    w <:+: unifyBreaks t ↔ w <:+: t :=
  ((unifies_unifyBreaks t).infix_iff hne hreturn hfeed).symm

/-! ### Words one behind the other -/

/-- The words stand in the text one behind the other. -/
inductive InOrder : List Text → Text → Prop where
  | nil (t : Text) : InOrder [] t
  | cons (before w : Text) {rest : Text} {ws : List Text} (h : InOrder ws rest) :
      InOrder (w :: ws) (before ++ (w ++ rest))

namespace InOrder

variable {ws ws' : List Text}

theorem prepend (before : Text) (h : InOrder ws t) : InOrder ws (before ++ t) := by
  cases h with
  | nil => exact nil _
  | cons start w h =>
    rw [← List.append_assoc]
    exact cons (before ++ start) w h

theorem append (ha : InOrder ws a) (hb : InOrder ws' b) : InOrder (ws ++ ws') (a ++ b) := by
  induction ha with
  | nil t => exact hb.prepend t
  | cons before w h ih =>
    rw [List.append_assoc, List.append_assoc]
    exact cons before w ih

theorem extend (h : InOrder ws a) (b : Text) : InOrder ws (a ++ b) := by
  simpa using h.append (nil b)

theorem singleton (w : Text) : InOrder [w] w := by
  simpa using cons [] w (nil [])

/-- Words stay in order when a part goes at the end that none of them reaches into. -/
theorem of_append (h : InOrder ws (a ++ b))
    (hcut : ∀ w ∈ ws, ∀ v, v ≠ [] → v <+: b → ¬ w <:+ a ++ v) : InOrder ws a := by
  generalize ht : a ++ b = t at h
  induction h generalizing a with
  | nil => exact nil a
  | cons before w h ih =>
    rw [← List.append_assoc] at ht
    obtain ⟨start, rfl, hrest⟩ : ∃ start, a = before ++ w ++ start ∧ start ++ b = _ := by
      rcases List.append_eq_append_iff.mp ht with ⟨v, hv, hb⟩ | ⟨start, ha, hrest⟩
      · obtain rfl : v = [] := by
          by_contra hne
          exact hcut w List.mem_cons_self v hne ⟨_, hb.symm⟩ ⟨before, hv⟩
        exact ⟨[], by simpa using hv.symm, hb⟩
      · exact ⟨start, ha, hrest.symm⟩
    rw [List.append_assoc]
    refine cons before w (ih (fun w' hw' v hne hv hsuffix => ?_) hrest)
    refine hcut w' (List.mem_cons_of_mem _ hw') v hne hv (hsuffix.trans ?_)
    rw [List.append_assoc]
    exact List.suffix_append _ _

end InOrder

end Pageloom.Text
