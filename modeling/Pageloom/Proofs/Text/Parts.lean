import Mathlib.Data.List.DropRight
import Mathlib.Data.List.Infix
import Pageloom.Text.Basic

/-!
# Parts of texts

What the ways of taking a text apart leave of it: a cut at the first character of a class, the parts
between separators, and a text without the characters of a class at its ends.

## Main results

* `Text.cutWhere?_eq_some_iff`, `Text.cutWhere?_eq_none_iff`: where a text is cut, and when not.
* `Text.cut?_eq_some`, `Text.cut?_eq_none_iff`: the same for the first occurrence of a text.
* `Text.split_append_cons`, `Text.join_split`: the parts of a text, and the text of its parts.
* `Text.head?_trim`: a text that is trimmed begins with none of the characters.
* `Text.trimEnd_eq_iff`: what is dropped at the end, and what is left.
* `Text.trim_trimEnd`: the end may be trimmed beforehand.
-/

namespace Pageloom.Text

variable {p : Char → Bool} {t before behind start needle rest : Text} {c : Char}

theorem split_ne_nil (sep : Char) (t : Text) : split sep t ≠ [] := by
  cases t with
  | nil => simp [split]
  | cons c t =>
    rw [split]
    split
    · simp
    · split <;> simp

theorem split_of_notMem {sep : Char} (h : sep ∉ t) : split sep t = [t] := by
  induction t with
  | nil => rfl
  | cons c t ih =>
    have hc : c ≠ sep := fun hc => h (hc ▸ List.mem_cons_self)
    rw [split, if_neg hc, ih fun hmem => h (List.mem_cons_of_mem c hmem)]

/-- What stands before the first separator is the first part. -/
theorem split_append_cons {sep : Char} (h : sep ∉ start) (rest : Text) :
    split sep (start ++ sep :: rest) = start :: split sep rest := by
  induction start with
  | nil => simp [split]
  | cons c start ih =>
    have hc : c ≠ sep := fun hc => h (hc ▸ List.mem_cons_self)
    rw [List.cons_append, split, if_neg hc, ih fun hmem => h (List.mem_cons_of_mem c hmem)]

/-- Dropping characters other than the separator changes each part by itself. -/
theorem split_filter {p : Char → Bool} {sep : Char} (h : p sep = true) (t : Text) :
    split sep (t.filter p) = (split sep t).map (List.filter p) := by
  induction t with
  | nil => rfl
  | cons c t ih =>
    have hne := split_ne_nil sep t
    obtain ⟨part, parts, hparts⟩ := List.exists_cons_of_ne_nil hne
    by_cases hc : c = sep
    · subst hc
      simp [split, h, ih]
    · cases hp : p c with
      | true => simp [split, hp, hc, ih, hparts]
      | false => simp [split, hp, hc, ih, hparts]

/-- Changing characters that are no separators into such changes each part by itself. -/
theorem split_map {f : Char → Char} {sep : Char} (h : ∀ c, f c = sep ↔ c = sep) (t : Text) :
    split sep (t.map f) = (split sep t).map (List.map f) := by
  induction t with
  | nil => rfl
  | cons c t ih =>
    obtain ⟨part, parts, hparts⟩ := List.exists_cons_of_ne_nil (split_ne_nil sep t)
    by_cases hc : c = sep
    · simp [split, hc, (h sep).mpr rfl, ih]
    · simp [split, mt (h c).mp hc, hc, ih, hparts]

/-- What is added without a separator belongs to the last part. -/
theorem split_append_of_notMem {sep : Char} (h : sep ∉ rest) (t : Text) :
    ∃ parts last,
      split sep t = parts ++ [last] ∧ split sep (t ++ rest) = parts ++ [last ++ rest] := by
  induction t with
  | nil => exact ⟨[], [], rfl, split_of_notMem h⟩
  | cons c t ih =>
    obtain ⟨parts, last, ht, hrest⟩ := ih
    by_cases hc : c = sep
    · refine ⟨[] :: parts, last, ?_, ?_⟩
      · rw [split, if_pos hc, ht, List.cons_append]
      · rw [List.cons_append, split, if_pos hc, hrest, List.cons_append]
    · cases parts with
      | nil => exact ⟨[], c :: last, by simp [split, hc, ht], by simp [split, hc, hrest]⟩
      | cons part parts =>
        exact ⟨(c :: part) :: parts, last, by simp [split, hc, ht], by simp [split, hc, hrest]⟩

/-- No part holds the character that parts end at. -/
theorem notMem_of_mem_split {part : Text} {sep : Char} (h : part ∈ split sep t) :
    sep ∉ part := by
  induction t generalizing part with
  | nil =>
    rw [List.mem_singleton.mp h]
    exact List.not_mem_nil
  | cons c t ih =>
    obtain ⟨first, rest, hsplit⟩ := List.exists_cons_of_ne_nil (split_ne_nil sep t)
    rw [split, hsplit] at h
    have hfirst : sep ∉ first := ih (hsplit ▸ List.mem_cons_self)
    have hrest : ∀ x ∈ rest, sep ∉ x := fun x hx => ih (hsplit ▸ List.mem_cons_of_mem first hx)
    by_cases hc : c = sep
    · rw [if_pos hc] at h
      rcases List.mem_cons.mp h with rfl | h
      · exact List.not_mem_nil
      · exact (List.mem_cons.mp h).elim (fun h => h ▸ hfirst) (hrest part)
    · rw [if_neg hc] at h
      rcases List.mem_cons.mp h with rfl | h
      · exact List.not_mem_cons_of_ne_of_not_mem (Ne.symm hc) hfirst
      · exact hrest part h

theorem join_cons_of_ne_nil {parts : List Text} (h : parts ≠ []) (sep part : Text) :
    join sep (part :: parts) = part ++ sep ++ join sep parts := by
  cases parts with
  | nil => exact absurd rfl h
  | cons next parts => rfl

theorem join_prefix_join_append (sep : Text) (xs ys : List Text) :
    join sep xs <+: join sep (xs ++ ys) := by
  induction xs with
  | nil => exact List.nil_prefix
  | cons x xs ih =>
    rcases xs with _ | ⟨next, xs⟩
    · rcases ys with _ | ⟨y, ys⟩
      · exact List.prefix_rfl
      · exact ⟨sep ++ join sep (y :: ys), (List.append_assoc _ _ _).symm⟩
    · exact (List.prefix_append_right_inj _).mpr ih

/-- The parts between the separators, with the separators between them, are the text. -/
theorem join_split (sep : Char) (t : Text) : join [sep] (split sep t) = t := by
  induction t with
  | nil => rfl
  | cons c t ih =>
    have hne := split_ne_nil sep t
    rw [split]
    by_cases hc : c = sep
    · rw [if_pos hc, join_cons_of_ne_nil hne, ih, hc]
      rfl
    · rw [if_neg hc]
      cases hparts : split sep t with
      | nil => exact absurd hparts hne
      | cons part parts =>
        rw [hparts] at ih
        cases parts with
        | nil => exact congrArg (c :: ·) ih
        | cons next parts => exact congrArg (c :: ·) ih

/-- A text begins with its first part. -/
theorem exists_split_eq_cons (sep : Char) (t : Text) :
    ∃ part parts rest, split sep t = part :: parts ∧ t = part ++ rest := by
  obtain ⟨part, parts, hsplit⟩ := List.exists_cons_of_ne_nil (split_ne_nil sep t)
  have ht := join_split sep t
  rw [hsplit] at ht
  cases parts with
  | nil => exact ⟨part, [], [], hsplit, by rw [← ht, List.append_nil]; rfl⟩
  | cons next parts =>
    exact ⟨part, next :: parts, _, hsplit, by rw [← ht, join_cons_of_ne_nil (by simp),
      List.append_assoc]⟩

/-- Each character of a text is a separator or stands in a part. -/
theorem eq_or_mem_of_mem (sep : Char) (h : c ∈ t) : c = sep ∨ ∃ part ∈ split sep t, c ∈ part := by
  induction t with
  | nil => cases h
  | cons d t ih =>
    obtain ⟨part, parts, hsplit⟩ := List.exists_cons_of_ne_nil (split_ne_nil sep t)
    by_cases hd : d = sep
    · rw [split, if_pos hd]
      rcases List.mem_cons.mp h with rfl | h
      · exact .inl hd
      · exact (ih h).imp_right fun ⟨q, hq, hc⟩ => ⟨q, List.mem_cons_of_mem _ hq, hc⟩
    · rw [split, if_neg hd, hsplit]
      rw [hsplit] at ih
      rcases List.mem_cons.mp h with rfl | h
      · exact .inr ⟨c :: part, List.mem_cons_self, List.mem_cons_self⟩
      · refine (ih h).imp_right fun ⟨q, hq, hc⟩ => ?_
        rcases List.mem_cons.mp hq with rfl | hq
        · exact ⟨d :: q, List.mem_cons_self, List.mem_cons_of_mem d hc⟩
        · exact ⟨q, List.mem_cons_of_mem _ hq, hc⟩

/-! ### Cutting at the first character of a class -/

theorem cutWhere?_eq_none_iff : cutWhere? p t = none ↔ ∀ d ∈ t, p d = false := by
  induction t with
  | nil => simp [cutWhere?]
  | cons d t ih => by_cases hd : p d <;> simp [cutWhere?, hd, ih]

theorem cutWhere?_eq_some_iff :
    cutWhere? p t = some (before, c, behind) ↔
      t = before ++ c :: behind ∧ p c = true ∧ ∀ d ∈ before, p d = false := by
  induction t generalizing before with
  | nil => simp [cutWhere?]
  | cons d t ih =>
    rw [cutWhere?]
    by_cases hd : p d
    · rw [if_pos hd]
      constructor
      · rintro ⟨⟩
        exact ⟨rfl, hd, by simp⟩
      · rintro ⟨heq, -, hbefore⟩
        cases before with
        | nil =>
          cases heq
          rfl
        | cons b before =>
          cases heq
          simp [hd] at hbefore
    · rw [if_neg hd]
      constructor
      · intro h
        obtain ⟨⟨before', c', behind'⟩, hcut, ⟨⟩⟩ := Option.map_eq_some_iff.mp h
        obtain ⟨rfl, hc, hbefore⟩ := ih.mp hcut
        exact ⟨rfl, hc, List.forall_mem_cons.mpr ⟨by simpa using hd, hbefore⟩⟩
      · rintro ⟨heq, hc, hbefore⟩
        cases before with
        | nil =>
          cases heq
          exact absurd hc hd
        | cons b before =>
          cases heq
          exact Option.map_eq_some_iff.mpr
            ⟨_, ih.mpr ⟨rfl, hc, (List.forall_mem_cons.mp hbefore).2⟩, rfl⟩

/-- A text is cut at the first occurrence of a character. -/
theorem cutWhere?_eq (h : c ∉ before) (behind : Text) :
    cutWhere? (· = c) (before ++ c :: behind) = some (before, c, behind) :=
  cutWhere?_eq_some_iff.mpr
    ⟨rfl, by simp, fun d hd => decide_eq_false (ne_of_mem_of_not_mem hd h)⟩

/-! ### Cutting at a text -/

theorem dropPrefix?_eq_some_iff : dropPrefix? start t = some rest ↔ t = start ++ rest := by
  induction start generalizing t with
  | nil => simp [dropPrefix?]
  | cons s start ih =>
    cases t with
    | nil => simp [dropPrefix?]
    | cons c t =>
      by_cases hsc : s = c
      · simp [dropPrefix?, hsc, ih]
      · simp [dropPrefix?, hsc, Ne.symm hsc]

theorem startsWith_iff : startsWith start t ↔ start <+: t := by
  rw [startsWith, Option.isSome_iff_exists]
  exact exists_congr fun rest => dropPrefix?_eq_some_iff.trans eq_comm

theorem endsWith_iff {tail : Text} : endsWith tail t ↔ tail <:+ t := by
  rw [endsWith, startsWith_iff, List.reverse_prefix]

theorem cut?_eq_none_iff : cut? needle t = none ↔ ¬ needle <:+: t := by
  induction t with
  | nil => by_cases hne : needle = [] <;> simp [cut?, hne]
  | cons c t ih =>
    rw [List.infix_cons_iff, ← startsWith_iff, startsWith, cut?]
    cases hdrop : dropPrefix? needle (c :: t) <;> simp [ih]

/-- A text is cut at the first place where the other text occurs. Up to there it does not occur,
also not with its own beginning. -/
theorem cut?_eq_some (hne : needle ≠ []) (h : cut? needle t = some (before, behind)) :
    t = before ++ needle ++ behind ∧ ¬ needle <:+: before ++ needle.dropLast := by
  induction t generalizing before with
  | nil => simp [cut?, hne] at h
  | cons c t ih =>
    rw [cut?] at h
    split at h
    · next rest hdrop =>
      cases h
      refine ⟨dropPrefix?_eq_some_iff.mp hdrop, fun hinf => ?_⟩
      have hlength := hinf.length_le
      have hpos := List.length_pos_of_ne_nil hne
      simp at hlength
      omega
    · next hdrop =>
      obtain ⟨⟨before', behind'⟩, hcut, ⟨⟩⟩ := Option.map_eq_some_iff.mp h
      obtain ⟨rfl, hfirst⟩ := ih hcut
      refine ⟨by simp, fun hinf => ?_⟩
      rw [List.cons_append, List.infix_cons_iff] at hinf
      refine hinf.elim (fun hpre => ?_) hfirst
      have hlonger : c :: (before' ++ needle.dropLast) <+: c :: (before' ++ needle ++ behind) := by
        rw [List.prefix_cons_inj, List.append_assoc, List.prefix_append_right_inj]
        exact (List.dropLast_prefix needle).trans (List.prefix_append needle behind)
      obtain ⟨rest, hrest⟩ := hpre.trans hlonger
      rw [dropPrefix?_eq_some_iff.mpr hrest.symm] at hdrop
      cases hdrop

/-! ### Characters at the ends -/

theorem trimEnd_prefix (p : Char → Bool) (t : Text) : trimEnd p t <+: t :=
  List.rdropWhile_prefix p t

/-- What is dropped at the end, and that it is of the class. -/
theorem exists_trimEnd_append (p : Char → Bool) (t : Text) :
    ∃ tail, t = trimEnd p t ++ tail ∧ ∀ c ∈ tail, p c := by
  refine ⟨(t.reverse.takeWhile p).reverse, ?_, fun c hc => ?_⟩
  · rw [trimEnd, ← List.reverse_append, List.takeWhile_append_dropWhile, List.reverse_reverse]
  · exact List.mem_takeWhile_imp (List.mem_reverse.mp hc)

theorem trim_sublist (p : Char → Bool) (t : Text) : (trim p t).Sublist t :=
  (Text.trimEnd_prefix p (trimStart p t)).sublist.trans (List.dropWhile_sublist p)

theorem mem_of_mem_trim (h : c ∈ trim p t) : c ∈ t := (trim_sublist p t).subset h

/-- Nothing of the class stands at the start of a text that is trimmed. -/
theorem head?_trim (h : (trim p t).head? = some c) : p c = false := by
  obtain ⟨rest, hrest⟩ := trimEnd_prefix p (trimStart p t)
  obtain ⟨tail, htail⟩ := List.head?_eq_some_iff.mp h
  have hdrop : t.dropWhile p = c :: (tail ++ rest) := by
    rw [← List.cons_append, ← htail]
    exact hrest.symm
  have hne : t.dropWhile p ≠ [] := by rw [hdrop]; exact List.cons_ne_nil _ _
  have := List.head_dropWhile_not p hne
  simpa [hdrop] using this

/-- A text that begins with none of the characters is trimmed at its end only. -/
theorem trim_of_head? (h : t.head? = some c) (hc : p c = false) : trim p t = trimEnd p t := by
  obtain ⟨tail, rfl⟩ := List.head?_eq_some_iff.mp h
  rw [trim, trimStart, List.dropWhile_cons_of_neg (by simp [hc])]

/-- Nothing is dropped up to the last character that is not of the class. -/
theorem trimEnd_append_cons (hc : p c = false) (start rest : Text) :
    trimEnd p (start ++ c :: rest) = start ++ c :: trimEnd p rest := by
  have hrev : (start ++ c :: rest).reverse = rest.reverse ++ c :: start.reverse := by simp
  rw [trimEnd, trimEnd, hrev, List.dropWhile_append]
  cases hdrop : rest.reverse.dropWhile p with
  | nil => simp [hc]
  | cons d ds => simp

/-- **Trimming the end** drops nothing but characters of the class, and leaves none of them
there. -/
theorem trimEnd_eq_iff {u : Text} : trimEnd p t = u ↔
    (∃ tail, t = u ++ tail ∧ ∀ c ∈ tail, p c) ∧ ∀ c, u.getLast? = some c → p c = false := by
  constructor
  · rintro rfl
    refine ⟨exists_trimEnd_append p t, fun c hc => ?_⟩
    have hne : trimEnd p t ≠ [] := by
      rintro hnil
      simp [hnil] at hc
    rw [List.getLast?_eq_some_getLast hne] at hc
    obtain rfl := Option.some.inj hc
    exact Bool.eq_false_iff.mpr (List.rdropWhile_last_not p t hne)
  · rintro ⟨⟨tail, rfl, htail⟩, hlast⟩
    have hnil : trimEnd p tail = [] := List.rdropWhile_eq_nil_iff.mpr htail
    rcases List.eq_nil_or_concat u with rfl | ⟨start, c, rfl⟩
    · exact hnil
    · have hc : p c = false := hlast c (by simp)
      rw [List.concat_eq_append, List.append_assoc, List.singleton_append,
        trimEnd_append_cons hc, hnil]

theorem trim_cons_of_pos (hc : p c = true) (t : Text) : trim p (c :: t) = trim p t := by
  rw [trim, trimStart, List.dropWhile_cons_of_pos hc, trim, trimStart]

/-- Trimming both ends drops no less if the end was trimmed before. -/
theorem trim_trimEnd (p : Char → Bool) (t : Text) : trim p (trimEnd p t) = trim p t := by
  induction t with
  | nil => rfl
  | cons c t ih =>
    cases hc : p c with
    | false =>
      have htrim : trimEnd p (c :: t) = c :: trimEnd p t := trimEnd_append_cons hc [] t
      rw [htrim, trim_of_head? rfl hc, trim_of_head? rfl hc, ← htrim]
      exact List.rdropWhile_idempotent p _
    | true =>
      rw [trim_cons_of_pos hc, ← ih]
      -- the end of `c :: t` is that of `t`, unless everything goes
      rw [trimEnd, List.reverse_cons, List.dropWhile_append]
      cases hdrop : t.reverse.dropWhile p with
      | nil => simp [hc, trimEnd, hdrop]
      | cons d ds =>
        rw [← hdrop]
        simp [hdrop, trim_cons_of_pos hc, trimEnd]

/-- A text whose ends are trimmed has nothing more to trim. -/
theorem trim_trim (p : Char → Bool) (t : Text) : trim p (trim p t) = trim p t := by
  cases h : trim p t with
  | nil => rfl
  | cons c rest =>
    have hc : p c = false := head?_trim (h ▸ rfl : (trim p t).head? = some c)
    rw [trim_of_head? rfl hc, ← h]
    exact List.rdropWhile_idempotent p _

theorem trim_concat_of_pos (hc : p c = true) (t : Text) : trim p (t ++ [c]) = trim p t := by
  have htrim : trimEnd p (t ++ [c]) = trimEnd p t := List.rdropWhile_concat_pos p t c hc
  rw [← trim_trimEnd, htrim, trim_trimEnd]

/-! ### One character for each run -/

theorem mem_squeezeFrom {mark : Char} {inside : Bool} (h : c ∈ squeezeFrom p mark inside t) :
    c = mark ∨ c ∈ t := by
  induction t generalizing inside with
  | nil => simp [squeezeFrom] at h
  | cons d t ih =>
    have hrest : ∀ {inside}, c ∈ squeezeFrom p mark inside t → c = mark ∨ c ∈ d :: t := fun h =>
      (ih h).imp_right (List.mem_cons_of_mem d)
    rw [squeezeFrom] at h
    split at h
    · split at h
      · exact hrest h
      · exact (List.mem_cons.mp h).elim .inl hrest
    · exact (List.mem_cons.mp h).elim (fun hc => .inr (hc ▸ List.mem_cons_self)) hrest

theorem mem_squeeze {mark : Char} (h : c ∈ squeeze p mark t) : c = mark ∨ c ∈ t :=
  mem_squeezeFrom h

end Pageloom.Text
