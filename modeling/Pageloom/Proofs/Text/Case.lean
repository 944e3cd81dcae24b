import Pageloom.Proofs.Text.Digits
import Pageloom.Text.Case

/-!
# Letter case in ASCII

In ASCII, letter case goes character by character. Beyond ASCII lower case hardly ever leads there:
of all characters, only the dotted capital I and the Kelvin sign have a letter of ASCII in their
lower case. The first one has a dot of its own behind the letter, so a text in ASCII is the lower
case of texts in ASCII only, as long as it holds no `k`.

## Main definitions

* `CaseRun.IsValid`: the images of a run are characters.
* `asciiTitled`: the characters beyond ASCII with a title case that gets there.

## Main results

* `lt_of_lowerChar_lt`: where a lower-case character in ASCII can come from.
* `Text.lower_of_ascii`, `Text.upper_of_ascii`: texts in ASCII.
* `Text.lowerAscii_eq_lower`, `Text.lowerAscii_eq_self_iff`: the lower case of the letters of ASCII.
* `Text.lower_eq_iff`, `Text.lt_of_mem_of_lower_lt`: the texts with a lower case in ASCII.
* `titleFull_of_not_lt`: where a capital in ASCII can come from.
* `Text.mem_capitalize_iff`: what is in ASCII and no letter stays when a text is capitalized.
-/

namespace Pageloom

variable {c d : Char} {t u : Text}

/-! ### Characters -/

theorem CaseRun.exists_of_find? {code n : ℕ} {runs : List CaseRun}
    (h : CaseRun.find? code runs = some n) :
    ∃ r ∈ runs, r.first ≤ code ∧ code ≤ r.last ∧ n = r.target + (code - r.first) := by
  obtain ⟨r, hr, himage⟩ := List.exists_of_findSome?_eq_some h
  simp only [image?, Option.ite_none_right_eq_some, Bool.and_eq_true, decide_eq_true_eq,
    Option.some.injEq] at himage
  exact ⟨r, hr, himage.1.1.1, himage.1.1.2, himage.2.symm⟩

/-- The images of a run are characters. -/
def CaseRun.IsValid (r : CaseRun) : Prop :=
  r.target + (r.last - r.first) < 0xD800 ∨
    0xDFFF < r.target ∧ r.target + (r.last - r.first) < 0x110000

instance (r : CaseRun) : Decidable r.IsValid :=
  inferInstanceAs (Decidable (_ ∨ _))

theorem CaseRun.IsValid.toNat_image {r : CaseRun} {code : ℕ} (h : r.IsValid)
    (hlast : code ≤ r.last) :
    (Char.ofNat (r.target + (code - r.first))).toNat = r.target + (code - r.first) := by
  have hcode : (r.target + (code - r.first)).isValidChar := by
    unfold CaseRun.IsValid at h
    unfold Nat.isValidChar
    omega
  rw [Char.ofNat, dif_pos hcode]
  rfl

/-- The runs of the table for lower case lead to characters. The Kelvin sign is the only one that
gets into ASCII. -/
theorem target_of_mem_lowerRuns {r : CaseRun} (hr : r ∈ lowerRuns) :
    (128 ≤ r.target ∨ r = ⟨0x212A, 0x212A, 1, 107⟩) ∧ r.IsValid := by
  have hall : ∀ r ∈ lowerRuns,
      (128 ≤ r.target ∨ r = ⟨0x212A, 0x212A, 1, 107⟩) ∧ r.IsValid := by decide +kernel
  exact hall r hr

/-- The lower case of a character is in ASCII only if the character is, or for two others. -/
theorem lt_of_lowerChar_lt (h : (lowerChar c).toNat < 128) :
    c.toNat < 128 ∨ c.toNat = 0x130 ∨ c.toNat = 0x212A := by
  by_contra hno
  obtain ⟨hascii, hdotted, hkelvin⟩ : ¬ c.toNat < 128 ∧ c.toNat ≠ 0x130 ∧ c.toNat ≠ 0x212A := by
    simpa [not_or] using hno
  rw [lowerChar, if_neg hascii, if_neg hdotted] at h
  cases hfind : CaseRun.find? c.toNat lowerRuns with
  | none => exact hascii (by simpa only [hfind] using h)
  | some n =>
    obtain ⟨r, hr, hfirst, hlast, rfl⟩ := CaseRun.exists_of_find? hfind
    obtain ⟨htarget, hvalid⟩ := target_of_mem_lowerRuns hr
    simp only [hfind, hvalid.toNat_image hlast] at h
    rcases htarget with hbeyond | rfl
    · omega
    · exact hkelvin (Nat.le_antisymm hlast hfirst)

/-- The dotted capital I has a dot of its own in lower case, so the Kelvin sign is the only
character that gets into ASCII altogether. -/
theorem lt_of_lowerFull_lt (h : ∀ d ∈ lowerFull c, d.toNat < 128) :
    c.toNat < 128 ∨ c.toNat = 0x212A := by
  by_cases hdotted : c.toNat = 0x130
  · rw [lowerFull, if_pos hdotted] at h
    exact absurd (h (Char.ofNat 0x307) (by simp)) (by decide)
  · rw [lowerFull, if_neg hdotted] at h
    exact (lt_of_lowerChar_lt (h _ (List.mem_singleton_self _))).imp_right
      (·.resolve_left hdotted)

theorem lowerFull_of_lt (hc : c.toNat < 128) : lowerFull c = [c.toLower] := by
  rw [lowerFull, if_neg (by omega), lowerChar, if_pos hc]

/-- A lower case in ASCII without a `k` is that of ASCII. -/
theorem lowerFull_eq (h : ∀ d ∈ lowerFull c, d.toNat < 128 ∧ d ≠ 'k') :
    lowerFull c = [c.toLower] := by
  rcases lt_of_lowerFull_lt fun d hd => (h d hd).1 with hc | hc
  · exact lowerFull_of_lt hc
  · rw [← Char.ofNat_toNat c, hc] at h
    exact absurd (h 'k' (by decide)) (by decide)

/-! ### Texts -/

namespace Text

theorem toLower_of_ascii (h : ∀ c ∈ t, c.toNat < 128) : ∀ c ∈ t.map Char.toLower, c.toNat < 128 :=
  List.forall_mem_map.mpr fun c hc =>
    forall_ascii (P := fun c => c.toLower.toNat < 128) (by decide) (h c hc)

/-- The lower case of a text in ASCII, character by character. -/
theorem lower_of_ascii (h : ∀ c ∈ t.map Char.toLower, c.toNat < 128) :
    lower t = t.map Char.toLower := by
  have hfrom (afterCased : Bool) : lowerFrom afterCased t = t.map Char.toLower := by
    induction t generalizing afterCased with
    | nil => rfl
    | cons c t ih =>
      rw [List.map_cons, List.forall_mem_cons] at h
      have hc : c.toNat < 128 := toNat_lt_of_toLower h.1
      rw [lowerFrom, ih h.2, if_neg (by omega), lowerFull_of_lt hc]
      rfl
  exact hfrom false

/-- In ASCII, the lower case of its letters is the lower case. -/
theorem lowerAscii_eq_lower (h : ∀ c ∈ t, c.toNat < 128) : lowerAscii t = lower t :=
  (lower_of_ascii (toLower_of_ascii h)).symm

/-- Only texts without capitals of ASCII are their own lower case there. -/
theorem lowerAscii_eq_self_iff : lowerAscii t = t ↔ ∀ c ∈ t, c.isUpper = false := by
  have hchar (c : Char) : c.toLower = c ↔ c.isUpper = false := by
    by_cases hc : c.val ≥ 'A'.val ∧ c.val ≤ 'Z'.val
    · have hascii : c.toNat < 128 := toNat_lt_of_le (d := 'Z') (by decide) hc.2
      exact forall_ascii (P := fun c => c.toLower = c ↔ c.isUpper = false) (by decide) hascii
    · exact iff_of_true (dif_neg hc) (decide_eq_false hc)
  calc lowerAscii t = t
      ↔ t.map Char.toLower = t.map id := by rw [List.map_id]; rfl
    _ ↔ ∀ c ∈ t, c.toLower = c := List.map_inj_left
    _ ↔ ∀ c ∈ t, c.isUpper = false := forall₂_congr fun c _ => hchar c

theorem lowerFrom_eq (afterCased : Bool)
    (h : ∀ d ∈ lowerFrom afterCased t, d.toNat < 128 ∧ d ≠ 'k') :
    lowerFrom afterCased t = t.map Char.toLower := by
  induction t generalizing afterCased with
  | nil => rfl
  | cons c t ih =>
    rw [lowerFrom] at h ⊢
    obtain ⟨hc, ht⟩ := List.forall_mem_append.mp h
    rw [ih _ ht]
    split at hc
    · exact absurd (hc _ (List.mem_singleton_self _)).1 (by split <;> decide)
    · next hsigma => rw [if_neg hsigma, lowerFull_eq hc, List.singleton_append, List.map_cons]

/-- A text in ASCII without a `k` is the lower case of texts in ASCII only. -/
theorem lower_eq_iff (hu : ∀ d ∈ u, d.toNat < 128 ∧ d ≠ 'k') :
    lower t = u ↔ t.map Char.toLower = u := by
  constructor
  · rintro rfl
    exact (lowerFrom_eq false hu).symm
  · rintro rfl
    exact lower_of_ascii fun d hd => (hu d hd).1

/-- A text whose lower case is in ASCII has no characters beyond it but the Kelvin sign. -/
theorem lt_of_mem_of_lowerFrom_lt {afterCased : Bool}
    (h : ∀ d ∈ lowerFrom afterCased t, d.toNat < 128) :
    ∀ c ∈ t, c.toNat < 128 ∨ c.toNat = 0x212A := by
  induction t generalizing afterCased with
  | nil => nofun
  | cons c t ih =>
    rw [lowerFrom] at h
    obtain ⟨hc, ht⟩ := List.forall_mem_append.mp h
    refine List.forall_mem_cons.mpr ⟨?_, ih ht⟩
    split at hc
    · exact absurd (hc _ (List.mem_singleton_self _)) (by split <;> decide)
    · exact lt_of_lowerFull_lt hc

theorem lt_of_mem_of_lower_lt (h : ∀ d ∈ lower t, d.toNat < 128) :
    ∀ c ∈ t, c.toNat < 128 ∨ c.toNat = 0x212A :=
  lt_of_mem_of_lowerFrom_lt h

/-- The upper case of a text in ASCII, character by character. -/
theorem upper_of_ascii (h : ∀ c ∈ t, c.toNat < 128) : upper t = t.map Char.toUpper := by
  induction t with
  | nil => rfl
  | cons c t ih =>
    obtain ⟨hc, ht⟩ := List.forall_mem_cons.mp h
    rw [upper, List.map_cons, List.flatten_cons, upperFull, if_pos hc]
    exact congrArg (c.toUpper :: ·) (ih ht)

end Text

/-! ### Capitalized texts -/

/-- The characters beyond ASCII with a character of ASCII in title case: the sharp s, the dotless i,
the long s, letters with marks that have no capital of their own, and ligatures. -/
def asciiTitled : List ℕ :=
  [0xDF, 0x131, 0x149, 0x17F, 0x1F0, 0x1E96, 0x1E97, 0x1E98, 0x1E99, 0x1E9A, 0xFB00, 0xFB01, 0xFB02,
    0xFB03, 0xFB04, 0xFB05, 0xFB06]

/-- The images of single characters are not empty, and ASCII is reached from the characters above
only. -/
theorem of_mem_specials {e : ℕ × List ℕ} (he : e ∈ titleSpecials ++ upperSpecials) :
    e.2 ≠ [] ∧ ∀ n ∈ e.2, (Char.ofNat n).toNat < 128 → e.1 ∈ asciiTitled := by
  have hall : ∀ e ∈ titleSpecials ++ upperSpecials,
      e.2 ≠ [] ∧ ∀ n ∈ e.2, (Char.ofNat n).toNat < 128 → e.1 ∈ asciiTitled := by decide +kernel
  exact hall e he

theorem target_of_mem_upperRuns {r : CaseRun} (hr : r ∈ upperRuns) :
    (128 ≤ r.target ∨ r.first = r.last ∧ r.first ∈ asciiTitled) ∧ r.IsValid := by
  have hall : ∀ r ∈ upperRuns,
      (128 ≤ r.target ∨ r.first = r.last ∧ r.first ∈ asciiTitled) ∧ r.IsValid := by decide +kernel
  exact hall r hr

/-- What holds of all images in the tables for a character beyond ASCII, and of the character. -/
theorem of_titleFull {P : Text → Prop} (hc : ¬ c.toNat < 128)
    (hspecial : ∀ codes, (c.toNat, codes) ∈ titleSpecials ++ upperSpecials →
      P (codes.map Char.ofNat))
    (hrun : ∀ n, CaseRun.find? c.toNat upperRuns = some n → P [Char.ofNat n]) (hself : P [c]) :
    P (titleFull c) := by
  have hmem {table : List (ℕ × List ℕ)} {codes : List ℕ}
      (h : table.lookup c.toNat = some codes) : (c.toNat, codes) ∈ table := by
    obtain ⟨before, behind, rfl, -⟩ := List.lookup_eq_some_iff.mp h
    simp
  rw [titleFull, if_neg hc]
  cases htitle : titleSpecials.lookup c.toNat with
  | some codes => exact hspecial codes (List.mem_append_left _ (hmem htitle))
  | none =>
    dsimp only
    rw [upperFull, if_neg hc]
    cases hupper : upperSpecials.lookup c.toNat with
    | some codes => exact hspecial codes (List.mem_append_right _ (hmem hupper))
    | none =>
      cases hfind : CaseRun.find? c.toNat upperRuns with
      | some n => exact hrun n hfind
      | none => exact hself

/-- The title case of a character beyond ASCII gets into ASCII for the characters above only. -/
theorem titleFull_of_not_lt (hc : ¬ c.toNat < 128) :
    titleFull c ≠ [] ∧ ∀ d ∈ titleFull c, d.toNat < 128 → c.toNat ∈ asciiTitled := by
  refine of_titleFull (P := fun image => image ≠ [] ∧
    ∀ d ∈ image, d.toNat < 128 → c.toNat ∈ asciiTitled) hc (fun codes hcodes => ?_)
    (fun n hfind => ?_) ⟨List.cons_ne_nil c [], fun d hd hlt => ?_⟩
  · obtain ⟨hne, hlt⟩ := of_mem_specials hcodes
    exact ⟨mt List.map_eq_nil_iff.mp hne, List.forall_mem_map.mpr hlt⟩
  · refine ⟨List.cons_ne_nil _ [], fun d hd hlt => ?_⟩
    obtain ⟨r, hr, hfirst, hlast, rfl⟩ := CaseRun.exists_of_find? hfind
    obtain ⟨htarget, hvalid⟩ := target_of_mem_upperRuns hr
    rw [List.mem_singleton.mp hd, hvalid.toNat_image hlast] at hlt
    rcases htarget with hbeyond | ⟨hsingle, hmem⟩
    · omega
    · rwa [Nat.le_antisymm (hsingle ▸ hlast) hfirst]
  · exact absurd (List.mem_singleton.mp hd ▸ hlt) hc

theorem titleFull_ne_nil (c : Char) : titleFull c ≠ [] := by
  by_cases hc : c.toNat < 128
  · rw [titleFull, if_pos hc]
    exact List.cons_ne_nil _ []
  · exact (titleFull_of_not_lt hc).1

/-- A character that is no letter is the image of itself alone, under a map of ASCII that changes
only letters, and only into letters. -/
theorem eq_image_iff {f : Char → Char}
    (hf : ∀ n < 128, (Char.ofNat n).isAlpha = false ∨ (f (Char.ofNat n)).isAlpha = false →
      f (Char.ofNat n) = Char.ofNat n)
    (hc : c.toNat < 128) (hletter : d.isAlpha = false) : d = f c ↔ d = c := by
  have hfix : c.isAlpha = false ∨ (f c).isAlpha = false → f c = c :=
    forall_ascii (P := fun c => c.isAlpha = false ∨ (f c).isAlpha = false → f c = c) hf hc
  constructor
  · rintro rfl
    exact hfix (.inr hletter)
  · rintro rfl
    exact (hfix (.inl hletter)).symm

/-- A character of ASCII that is no letter is its own title case, and that of no other character. -/
theorem mem_titleFull_iff (hd : d.toNat < 128) (hletter : d.isAlpha = false) :
    d ∈ titleFull c ↔ d = c := by
  by_cases hc : c.toNat < 128
  · rw [titleFull, if_pos hc, List.mem_singleton, eq_image_iff (by decide) hc hletter]
  · refine iff_of_false (fun hmem => ?_) fun heq => hc (heq ▸ hd)
    have hletters : ∀ n ∈ asciiTitled, (titleFull (Char.ofNat n)).all fun d =>
        128 ≤ d.toNat || d.isAlpha := by decide +kernel
    have hn := (titleFull_of_not_lt hc).2 d hmem hd
    rw [← Char.ofNat_toNat c] at hmem
    exact absurd (List.all_eq_true.mp (hletters _ hn) d hmem) (by simp [hd, hletter])

theorem mem_lowerFull_iff (hd : d.toNat < 128) (hletter : d.isAlpha = false) :
    d ∈ lowerFull c ↔ d = c := by
  by_cases hc : c.toNat < 128
  · rw [lowerFull_of_lt hc, List.mem_singleton, eq_image_iff (by decide) hc hletter]
  · refine iff_of_false (fun hmem => ?_) fun heq => hc (heq ▸ hd)
    have hletters : ∀ n ∈ [0x130, 0x212A], (lowerFull (Char.ofNat n)).all fun d =>
        128 ≤ d.toNat || d.isAlpha := by decide +kernel
    have hn : c.toNat ∈ [0x130, 0x212A] := by
      by_cases hdotted : c.toNat = 0x130
      · exact hdotted ▸ List.mem_cons_self
      · rw [lowerFull, if_neg hdotted, List.mem_singleton] at hmem
        simpa using (lt_of_lowerChar_lt (hmem ▸ hd)).resolve_left hc
    rw [← Char.ofNat_toNat c] at hmem
    exact absurd (List.all_eq_true.mp (hletters _ hn) d hmem) (by simp [hd, hletter])

namespace Text

theorem mem_lowerFrom_iff (hd : d.toNat < 128) (hletter : d.isAlpha = false)
    (afterCased : Bool) : d ∈ lowerFrom afterCased t ↔ d ∈ t := by
  induction t generalizing afterCased with
  | nil => rfl
  | cons c t ih =>
    rw [lowerFrom, List.mem_append, ih, List.mem_cons]
    refine or_congr_left ?_
    split
    · next hsigma =>
      refine iff_of_false (fun hmem => ?_) fun heq => ?_
      · rw [List.mem_singleton.mp hmem] at hd
        split at hd <;> exact absurd hd (by decide)
      · rw [heq, hsigma] at hd
        omega
    · exact mem_lowerFull_iff hd hletter

/-- **Capitalizing** a text adds and removes no character of ASCII but letters. -/
theorem mem_capitalize_iff (hd : d.toNat < 128) (hletter : d.isAlpha = false) :
    d ∈ capitalize t ↔ d ∈ t := by
  cases t with
  | nil => rfl
  | cons c t =>
    rw [capitalize, List.mem_append, mem_titleFull_iff hd hletter, mem_lowerFrom_iff hd hletter,
      List.mem_cons]

end Text

end Pageloom
