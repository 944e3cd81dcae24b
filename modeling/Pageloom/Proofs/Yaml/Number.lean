import Pageloom.Proofs.Binary64
import Pageloom.Proofs.Outcome
import Pageloom.Proofs.Text.Case
import Pageloom.Yaml.Number
import Pageloom.Yaml.Tag

/-!
# Numbers by their spelling

A plain scalar is taken for a number by one rule and read as one by another. The first rule lets
underscores group the digits, and an integer in base two or sixteen may have nothing but underscores
where its digits should be. Apart from that, and from integers with too many decimal digits, the
second rule reads all that the first one lets pass.

## Main results

* `Number.ends_integer`: what can be wrong with a plain integer.
* `Number.ends_float`: nothing can be wrong with a plain floating-point number.
-/

namespace Pageloom

/-! ### Digits -/

variable {c d : Char} {t u : Text}

namespace Yaml.Tag

theorem isDigit_of_isPositiveDigit (h : isPositiveDigit c) : c.isDigit ∧ c ≠ '0' := by
  simp only [isPositiveDigit, Bool.and_eq_true, decide_eq_true_eq] at h
  refine forall_ascii (P := fun c => '1' ≤ c ∧ c ≤ '9' → c.isDigit ∧ c ≠ '0') (by decide) ?_ h
  exact toNat_lt_of_le (d := '9') (by decide) h.2

theorem isDigitOf_of_isOctal (h : isOctal c) : IsDigitOf 8 c := by
  simp only [isOctal, Bool.and_eq_true, decide_eq_true_eq] at h
  have hc : c.toNat < 128 := toNat_lt_of_le (d := '7') (by decide) h.2
  have hdigit := forall_ascii (P := fun c => '0' ≤ c ∧ c ≤ '7' →
    ∃ n ∈ Text.hexValue? c, n < 8) (by decide) hc h
  obtain ⟨n, hn, hlt⟩ := hdigit
  exact ⟨n, hlt, hn⟩

theorem isDigitOf_of_isBinary (h : isBinary c) : IsDigitOf 2 c := by
  simp only [isBinary, Bool.or_eq_true, beq_iff_eq] at h
  rcases h with rfl | rfl
  · exact ⟨0, by decide, by decide⟩
  · exact ⟨1, by decide, by decide⟩

theorem isDigitOf_of_isHex (h : isHex c) : IsDigitOf 16 c := by
  obtain ⟨n, hn⟩ := Option.isSome_iff_exists.mp h
  exact ⟨n, Text.hexValue?_lt hn, hn⟩

end Yaml.Tag

namespace Yaml.Number

open Tag (isGrouped)

variable {isDigit : Char → Bool} {base : ℕ}

/-- What is left of digits and underscores are digits. -/
theorem isDigit_of_mem_ungrouped (h : t.all (isGrouped isDigit)) (hc : c ∈ ungrouped t) :
    isDigit c := by
  obtain ⟨hmem, hne⟩ := List.mem_filter.mp hc
  have hgrouped := List.all_eq_true.mp h c hmem
  simpa [isGrouped, of_decide_eq_true hne] using hgrouped

theorem ungrouped_cons (hd : d ≠ '_') (t : Text) : ungrouped (d :: t) = d :: ungrouped t :=
  List.filter_cons_of_pos (by simpa using hd)

theorem split_ungrouped (t : Text) :
    Text.split ':' (ungrouped t) = (Text.split ':' t).map ungrouped :=
  Text.split_filter (by decide) t

theorem ne_underscore_of_isDigit (h : c.isDigit) : c ≠ '_' := by
  rintro rfl
  cases h

theorem mem_ungrouped (hc : c.isDigit) (h : c ∈ t) : c ∈ ungrouped t :=
  List.mem_filter.mpr ⟨h, by simpa using ne_underscore_of_isDigit hc⟩

theorem all_isGrouped_cons (hc : isDigit c) (h : t.all (isGrouped isDigit)) :
    (c :: t).all (isGrouped isDigit) := by
  rw [List.all_cons, h, isGrouped, hc]
  rfl

theorem all_isGrouped_of_digits (h : ∀ c ∈ t, isDigit c) : t.all (isGrouped isDigit) := by
  induction t with
  | nil => rfl
  | cons c t ih =>
    obtain ⟨hc, ht⟩ := List.forall_mem_cons.mp h
    exact all_isGrouped_cons hc (ih ht)

/-- What stands before an unsigned number: nothing or a sign. -/
theorem exists_sign (t : Text) :
    ∃ sign, (sign = [] ∨ sign = ['+'] ∨ sign = ['-']) ∧ t = sign ++ Tag.unsigned t := by
  unfold Tag.unsigned
  split
  · exact ⟨['+'], .inr (.inl rfl), rfl⟩
  · exact ⟨['-'], .inr (.inr rfl), rfl⟩
  · exact ⟨[], .inl rfl, rfl⟩

theorem signed_append {sign : Text} (hsign : sign = [] ∨ sign = ['+'] ∨ sign = ['-'])
    (hd : d.isDigit ∨ d = '.') (ds : Text) :
    ∃ negative, signed (sign ++ d :: ds) = .ok (negative, d :: ds) := by
  have hnone : Integer.sign (d :: ds) = (false, d :: ds) := by
    rcases hd with hd | rfl
    · exact Integer.sign_of_digit (isDigitOf_of_isDigit hd)
    · rfl
  rcases hsign with rfl | rfl | rfl
  · exact ⟨false, by rw [List.nil_append, signed, if_neg (List.cons_ne_nil _ _), hnone]⟩
  · exact ⟨false, rfl⟩
  · exact ⟨true, rfl⟩

theorem ungrouped_sign_append {sign : Text} (hsign : sign = [] ∨ sign = ['+'] ∨ sign = ['-'])
    (t : Text) : ungrouped (sign ++ t) = sign ++ ungrouped t := by
  rcases hsign with rfl | rfl | rfl
  · rfl
  · exact ungrouped_cons (by decide) t
  · exact ungrouped_cons (by decide) t

/-! ### Numbers in base sixty -/

theorem isDigit_of_isSixtieth (h : Tag.isSixtieth t) : t ≠ [] ∧ ∀ c ∈ t, c.isDigit := by
  unfold Tag.isSixtieth at h
  split at h
  · simpa using h
  · next c d =>
    simp only [Bool.and_eq_true, decide_eq_true_eq] at h
    have hc : c.isDigit := by
      refine forall_ascii (P := fun c => '0' ≤ c ∧ c ≤ '5' → c.isDigit) (by decide) ?_ h.1
      exact toNat_lt_of_le (d := '5') (by decide) h.1.2
    simp [hc, h.2]
  · cases h

/-- A number in base sixty begins with its first digit, has a colon, and between the colons there
are digits. -/
theorem parts_of_isSexagesimal {isFirst : Char → Bool} (hfirst : ∀ c, isFirst c → c.isDigit)
    (h : Tag.isSexagesimal isFirst t) :
    (∃ d rest, t = d :: rest ∧ isFirst d) ∧ ':' ∈ t ∧ ∀ part ∈ Text.split ':' t,
      part.all (isGrouped Char.isDigit) ∧ ∃ d ∈ part, d.isDigit := by
  unfold Tag.isSexagesimal at h
  split at h
  · next d ds g gs hsplit =>
    simp only [Bool.and_eq_true] at h
    obtain ⟨⟨hd, hds⟩, hgs⟩ := h
    have ht : t = (d :: ds) ++ [':'] ++ Text.join [':'] (g :: gs) := by
      rw [← Text.join_split ':' t, hsplit]
      exact Text.join_cons_of_ne_nil (List.cons_ne_nil g gs) _ _
    refine ⟨⟨d, _, by rw [ht]; rfl, hd⟩, by simp [ht], ?_⟩
    rw [hsplit]
    refine List.forall_mem_cons.mpr
      ⟨⟨all_isGrouped_cons (hfirst d hd) hds, d, by simp, hfirst d hd⟩, fun part hpart => ?_⟩
    obtain ⟨hne, hdigits⟩ := isDigit_of_isSixtieth (List.all_eq_true.mp hgs part hpart)
    obtain ⟨c, cs, rfl⟩ := List.exists_cons_of_ne_nil hne
    exact ⟨all_isGrouped_of_digits hdigits, c, by simp, hdigits c (by simp)⟩
  · cases h

/-! ### Integers -/

/-- What can be wrong with an integer: it has no digits in base two or sixteen, or too many in base
ten. -/
def IntegerFault (f : Fault) : Prop :=
  f = .notInteger (.invalid 2 []) ∨ f = .notInteger (.invalid 16 []) ∨
    ∃ n, Integer.maxDigits < n ∧ f = .notInteger (.tooLong n)

/-- The integer is read, or its digits are missing or too many. -/
abbrev ReadsInteger (x : Except Fault Int) : Prop := Ends IntegerFault (fun _ => True) x

theorem ends_plainInteger_of_ne_nil (ht : ∀ c ∈ t, IsDigitOf base c) (hne : t ≠ []) :
    ReadsInteger (plainInteger base t) := by
  rw [plainInteger, Integer.read_of_digits ht hne]
  split
  · next hlong =>
    simp only [Bool.and_eq_true, decide_eq_true_eq] at hlong
    exact .inr (.inr ⟨t.length, hlong.2, rfl⟩)
  · trivial

/-- The digits behind the name of a base may be missing. -/
theorem ends_plainInteger (hbase : base = 2 ∨ base = 16) (ht : ∀ c ∈ t, IsDigitOf base c) :
    ReadsInteger (plainInteger base t) := by
  by_cases hne : t = []
  · subst hne
    rcases hbase with rfl | rfl
    · exact .inl rfl
    · exact .inr (.inl rfl)
  · exact ends_plainInteger_of_ne_nil ht hne

/-- Grouped decimal digits are read. -/
theorem ends_plainInteger_ten (ht : t.all (isGrouped Char.isDigit)) (hd : d ∈ t) (h : d.isDigit) :
    ReadsInteger (plainInteger 10 (ungrouped t)) :=
  ends_plainInteger_of_ne_nil (fun _ hc => isDigitOf_of_isDigit (isDigit_of_mem_ungrouped ht hc))
    (List.ne_nil_of_mem (mem_ungrouped h hd))

theorem unsignedInteger_of_ne_zero (hd : d ≠ '0') (t : Text) :
    unsignedInteger (d :: t) =
      if (d :: t).elem ':' then
        ((Text.split ':' (d :: t)).mapM (plainInteger 10)).map fun ds => sixtieths ds.reverse
      else plainInteger 10 (d :: t) := by
  rw [unsignedInteger]
  all_goals simp [hd]

theorem ends_sexagesimal (h : Tag.isSexagesimal Tag.isPositiveDigit t) :
    ReadsInteger (unsignedInteger (ungrouped t)) := by
  obtain ⟨⟨d, rest, ht, hd⟩, hcolon, hparts⟩ := parts_of_isSexagesimal
    (fun c hc => (Tag.isDigit_of_isPositiveDigit hc).1) h
  obtain ⟨hdigit, hzero⟩ := Tag.isDigit_of_isPositiveDigit hd
  have hcons : ungrouped t = d :: ungrouped rest := by
    rw [ht, ungrouped_cons (ne_underscore_of_isDigit hdigit)]
  have hmem : (d :: ungrouped rest).elem ':' := by
    rw [← hcons]
    exact List.elem_iff.mpr (List.mem_filter.mpr ⟨hcolon, by decide⟩)
  rw [hcons, unsignedInteger_of_ne_zero hzero, if_pos hmem, ← hcons, split_ungrouped]
  refine (Ends.mapM (R := fun _ => True) fun part hpart => ?_).map fun _ _ => trivial
  obtain ⟨q, hq, rfl⟩ := List.mem_map.mp hpart
  obtain ⟨hall, e, he, hedigit⟩ := hparts q hq
  exact ends_plainInteger_ten hall he hedigit

/-- Octal digits behind a zero, of which underscores may leave nothing. -/
theorem ends_octal (h : t.all (isGrouped Tag.isOctal)) :
    ReadsInteger (unsignedInteger ('0' :: ungrouped t)) := by
  have hoctal : ∀ c ∈ ungrouped t, IsDigitOf 8 c := fun c hc =>
    Tag.isDigitOf_of_isOctal (isDigit_of_mem_ungrouped h hc)
  rcases hrest : ungrouped t with _ | ⟨e, es⟩
  · trivial
  · rw [hrest] at hoctal
    have hdigit := hoctal e (by simp)
    obtain ⟨n, hn, he⟩ := id hdigit
    obtain ⟨hb, hx⟩ := hdigit.of_all
      (P := fun c => ∀ n ∈ Text.hexValue? c, n < 8 → c ≠ 'b' ∧ c ≠ 'x') (by decide) n he hn
    have hall : ∀ c ∈ '0' :: e :: es, IsDigitOf 8 c :=
      List.forall_mem_cons.mpr ⟨⟨0, by decide, by decide⟩, hoctal⟩
    rw [unsignedInteger]
    · exact ends_plainInteger_of_ne_nil hall (List.cons_ne_nil _ _)
    all_goals simp [hb, hx]

/-- An integer with its sign is read if the integer without it is, which begins with a digit. -/
theorem ends_integer_of_unsigned
    (h : (∃ d ds, Tag.unsigned t = d :: ds ∧ d.isDigit) ∧
      ReadsInteger (unsignedInteger (ungrouped (Tag.unsigned t)))) : ReadsInteger (integer t) := by
  obtain ⟨⟨d, ds, hcons, hd⟩, hreads⟩ := h
  obtain ⟨sign, hsign, ht⟩ := exists_sign t
  rw [hcons, ungrouped_cons (ne_underscore_of_isDigit hd)] at hreads
  obtain ⟨negative, hsigned⟩ := signed_append hsign (.inl hd) (ungrouped ds)
  rw [integer, ht, ungrouped_sign_append hsign, hcons,
    ungrouped_cons (ne_underscore_of_isDigit hd), hsigned]
  exact hreads.map fun _ _ => trivial

/-- **What can be wrong with a plain integer.** Its digits are missing or too many. -/
theorem ends_integer (h : Tag.isInt t) : ReadsInteger (integer t) := by
  rw [Tag.isInt, Bool.or_eq_true] at h
  refine ends_integer_of_unsigned ?_
  generalize Tag.unsigned t = u at h
  rcases h with hsexagesimal | h
  · obtain ⟨⟨d, rest, hcons, hd⟩, -, -⟩ := parts_of_isSexagesimal
      (fun c hc => (Tag.isDigit_of_isPositiveDigit hc).1) hsexagesimal
    exact ⟨⟨d, rest, hcons, (Tag.isDigit_of_isPositiveDigit hd).1⟩, ends_sexagesimal hsexagesimal⟩
  split at h
  · exact ⟨⟨'0', [], rfl, by decide⟩, trivial⟩
  · refine ⟨⟨'0', _, rfl, by decide⟩, ?_⟩
    rw [ungrouped_cons (by decide), ungrouped_cons (by decide), unsignedInteger]
    exact ends_plainInteger (.inl rfl) fun c hc =>
      Tag.isDigitOf_of_isBinary (isDigit_of_mem_ungrouped h hc)
  · refine ⟨⟨'0', _, rfl, by decide⟩, ?_⟩
    rw [ungrouped_cons (by decide), ungrouped_cons (by decide), unsignedInteger]
    exact ends_plainInteger (.inr rfl) fun c hc =>
      Tag.isDigitOf_of_isHex (isDigit_of_mem_ungrouped h hc)
  · refine ⟨⟨'0', _, rfl, by decide⟩, ?_⟩
    rw [ungrouped_cons (by decide)]
    exact ends_octal h
  · next d ds _ _ _ _ =>
    simp only [Bool.and_eq_true] at h
    obtain ⟨hdigit, hzero⟩ := Tag.isDigit_of_isPositiveDigit h.1
    have hall := all_isGrouped_cons hdigit h.2
    have hcolon : ¬ (d :: ungrouped ds).elem ':' := by
      rw [← ungrouped_cons (ne_underscore_of_isDigit hdigit), List.elem_iff]
      intro hmem
      cases isDigit_of_mem_ungrouped hall hmem
    refine ⟨⟨d, ds, rfl, hdigit⟩, ?_⟩
    have hten := ends_plainInteger_ten hall (List.mem_cons_self) hdigit
    rw [ungrouped_cons (ne_underscore_of_isDigit hdigit)] at hten ⊢
    rwa [unsignedInteger_of_ne_zero hzero, if_neg hcolon]
  · cases h

/-! ### Floating-point numbers -/

/-- The number is read. -/
abbrev ReadsFloat (x : Except Fault Binary64) : Prop := Ends (fun _ => False) (fun _ => True) x

/-- A text in lower case and without underscores that is read as a number without a sign. -/
structure IsUnsignedFloat (t : Text) : Prop where
  ascii : ∀ c ∈ t, c.toNat < 128
  head : ∃ d ds, t = d :: ds ∧ (d.isDigit ∨ d = '.')
  reads : ReadsFloat (unsignedFloat t)

theorem ends_plainFloat (h : Binary64.IsDecimal t) : ReadsFloat (plainFloat t) := by
  obtain ⟨x, hx⟩ := Option.isSome_iff_exists.mp (Binary64.isSome_read? h)
  rw [plainFloat, hx]
  trivial

theorem toNat_lt_of_mem_isDecimal (h : Binary64.IsDecimal t) (hc : c ∈ t) : c.toNat < 128 := by
  rcases h.mem hc with hdigit | rfl | rfl | rfl | rfl
  · exact toNat_lt_of_isDigit hdigit
  all_goals decide

theorem isUnsignedFloat_of_isDecimal (h : Binary64.IsDecimal t) : IsUnsignedFloat t := by
  have hcolon : ¬ t.elem ':' := by
    rw [List.elem_iff]
    intro hmem
    rcases h.mem hmem with hc | hc | hc | hc | hc <;> cases hc
  refine ⟨fun c hc => toNat_lt_of_mem_isDecimal h hc, h.head, ?_⟩
  rw [unsignedFloat]
  refine .ite trivial (.ite trivial ?_)
  rw [if_neg hcolon]
  exact ends_plainFloat h

/-- A number in base sixty is read part by part. -/
theorem isUnsignedFloat_of_parts (hcolon : ':' ∈ t)
    (h : ∀ part ∈ Text.split ':' t, Binary64.IsDecimal part) : IsUnsignedFloat t := by
  refine ⟨fun c hc => ?_, ?_, ?_⟩
  · rcases Text.eq_or_mem_of_mem ':' hc with rfl | ⟨part, hpart, hc⟩
    · decide
    · exact toNat_lt_of_mem_isDecimal (h part hpart) hc
  · obtain ⟨part, parts, rest, hsplit, rfl⟩ := Text.exists_split_eq_cons ':' t
    obtain ⟨d, ds, rfl, hd⟩ := (h part (by simp [hsplit])).head
    exact ⟨d, ds ++ rest, rfl, hd⟩
  · rw [unsignedFloat]
    refine .ite trivial (.ite trivial ?_)
    rw [if_pos (List.elem_iff.mpr hcolon)]
    refine (Ends.mapM (R := fun _ => True) fun part hpart => ?_).map fun _ _ => trivial
    exact ends_plainFloat (h part hpart)

/-! #### Lower case -/

theorem toLower_of_isDigit (h : c.isDigit) : c.toLower = c :=
  forall_ascii (P := fun c => c.isDigit → c.toLower = c) (by decide) (toNat_lt_of_isDigit h) h

/-- A number with its sign is read if the number without it is. -/
theorem ends_float_of_unsigned
    (h : IsUnsignedFloat ((ungrouped (Tag.unsigned t)).map Char.toLower)) :
    ReadsFloat (float t) := by
  obtain ⟨sign, hsign, ht⟩ := exists_sign t
  obtain ⟨d, ds, hw, hd⟩ := h.head
  have hmap : (sign ++ ungrouped (Tag.unsigned t)).map Char.toLower = sign ++ d :: ds := by
    rw [List.map_append, hw]
    rcases hsign with rfl | rfl | rfl <;> rfl
  have hascii : ∀ c ∈ (sign ++ ungrouped (Tag.unsigned t)).map Char.toLower, c.toNat < 128 := by
    rw [hmap, ← hw]
    refine List.forall_mem_append.mpr ⟨?_, h.ascii⟩
    rcases hsign with rfl | rfl | rfl <;> exact List.all_iff_forall_prop.mp (by decide)
  obtain ⟨negative, hsigned⟩ := signed_append hsign hd ds
  have hreads := h.reads
  rw [hw] at hreads
  rw [float, ht, ungrouped_sign_append hsign, Text.lower_of_ascii hascii, hmap, hsigned]
  exact hreads.map fun _ _ => trivial

/-! #### Points -/

theorem map_toLower_of_digits (h : ∀ c ∈ t, c.isDigit) : t.map Char.toLower = t :=
  (List.map_congr_left fun c hc => toLower_of_isDigit (h c hc)).trans (List.map_id t)

theorem ungrouped_of_digits (h : ∀ c ∈ t, c.isDigit) : ungrouped t = t :=
  List.filter_eq_self.mpr fun c hc => by simpa using ne_underscore_of_isDigit (h c hc)

/-- An exponent is written the same way, with a small letter. -/
theorem exponent_of_isExponent {e : Text} (h : Tag.isExponent e) :
    (ungrouped e).map Char.toLower = [] ∨ ∃ s ds, (ungrouped e).map Char.toLower = 'e' :: s :: ds ∧
      (s = '+' ∨ s = '-') ∧ ds ≠ [] ∧ ∀ c ∈ ds, c.isDigit := by
  unfold Tag.isExponent at h
  split at h
  · exact .inl rfl
  · next e s d ds =>
    simp only [Bool.and_eq_true, Bool.or_eq_true, decide_eq_true_eq] at h
    obtain ⟨⟨he, hs⟩, hds⟩ := h
    have hdigits : ∀ c ∈ d :: ds, c.isDigit := List.all_eq_true.mp hds
    refine .inr ⟨s, d :: ds, ?_, hs, List.cons_ne_nil _ _, hdigits⟩
    have hmap : (ungrouped (d :: ds)).map Char.toLower = d :: ds := by
      rw [ungrouped_of_digits hdigits, map_toLower_of_digits hdigits]
    rcases he with rfl | rfl <;> rcases hs with rfl | rfl <;>
      rw [ungrouped_cons (by decide), ungrouped_cons (by decide), List.map_cons, List.map_cons,
        hmap] <;> rfl
  · cases h

/-- Digits around a point, and perhaps an exponent. -/
theorem isDecimal_of_pointed {whole rest : Text} (hwhole : whole.all (isGrouped Char.isDigit))
    (hrest : Tag.isFraction rest) (hdigit : ∃ d ∈ whole ++ rest.head?.toList, d.isDigit) :
    Binary64.IsDecimal ((ungrouped (whole ++ '.' :: rest)).map Char.toLower) := by
  obtain ⟨part, hpart⟩ : ∃ part, part = rest.takeWhile (isGrouped Char.isDigit) := ⟨_, rfl⟩
  obtain ⟨e, he⟩ : ∃ e, e = rest.dropWhile (isGrouped Char.isDigit) := ⟨_, rfl⟩
  have hall : part.all (isGrouped Char.isDigit) := by
    rw [hpart]
    exact List.all_takeWhile
  have hsplit : rest = part ++ e := by rw [hpart, he, List.takeWhile_append_dropWhile]
  have hdigits {u : Text} (hu : u.all (isGrouped Char.isDigit)) : ∀ c ∈ ungrouped u, c.isDigit :=
    fun c hc => isDigit_of_mem_ungrouped hu hc
  refine ⟨ungrouped whole, '.' :: ungrouped part, (ungrouped e).map Char.toLower, ?_,
    hdigits hwhole, .inr ⟨_, rfl, hdigits hall⟩, exponent_of_isExponent (he ▸ hrest), ?_⟩
  · have hungrouped : ungrouped (whole ++ '.' :: (part ++ e)) =
        ungrouped whole ++ '.' :: (ungrouped part ++ ungrouped e) := by simp [ungrouped]
    rw [hsplit, hungrouped, List.map_append, List.map_cons, List.map_append,
      map_toLower_of_digits (hdigits hwhole), map_toLower_of_digits (hdigits hall)]
    rfl
  · obtain ⟨d, hd, hdd⟩ := hdigit
    refine ⟨d, List.mem_append.mpr ?_, hdd⟩
    rcases List.mem_append.mp hd with hd | hd
    · exact .inl (mem_ungrouped hdd hd)
    · refine .inr (List.mem_cons_of_mem _ (mem_ungrouped hdd ?_))
      cases rest with
      | nil => cases hd
      | cons c rest =>
        obtain rfl : d = c := by simpa using hd
        rw [hpart, List.takeWhile_cons_of_pos (by simp [isGrouped, hdd])]
        exact List.mem_cons_self

theorem isDecimal_of_digits (h : t.all (isGrouped Char.isDigit)) (hd : d ∈ t) (hdigit : d.isDigit) :
    Binary64.IsDecimal ((ungrouped t).map Char.toLower) := by
  have hdigits : ∀ c ∈ ungrouped t, c.isDigit := fun c hc => isDigit_of_mem_ungrouped h hc
  rw [map_toLower_of_digits hdigits]
  exact ⟨ungrouped t, [], [], by simp, hdigits, .inl rfl, .inl rfl, d,
    by simpa using mem_ungrouped hdigit hd, hdigit⟩

theorem toLower_eq_colon_iff (c : Char) : c.toLower = ':' ↔ c = ':' := by
  constructor
  · intro h
    have hc : c.toNat < 128 := toNat_lt_of_toLower (by rw [h]; decide)
    exact forall_ascii (P := fun c => c.toLower = ':' → c = ':') (by decide) hc h
  · rintro rfl
    rfl

/-- A number in base sixty with a point behind its last part. -/
theorem isUnsignedFloat_of_sexagesimal {whole rest : Text}
    (hwhole : Tag.isSexagesimal Char.isDigit whole) (hrest : rest.all (isGrouped Char.isDigit)) :
    IsUnsignedFloat ((ungrouped (whole ++ '.' :: rest)).map Char.toLower) := by
  obtain ⟨-, hcolon, hparts⟩ := parts_of_isSexagesimal (fun _ hc => hc) hwhole
  have hno : ':' ∉ '.' :: rest := by
    intro hmem
    have hgrouped := List.all_eq_true.mp hrest ':' (by simpa using hmem)
    cases hgrouped
  obtain ⟨parts, last, hsplit, happend⟩ := Text.split_append_of_notMem hno whole
  rw [hsplit] at hparts
  have hfraction : Tag.isFraction rest := by
    rw [Tag.isFraction, List.dropWhile_eq_nil_iff.mpr (List.all_eq_true.mp hrest)]
    rfl
  refine isUnsignedFloat_of_parts ?_ ?_
  · exact List.mem_map.mpr ⟨':', List.mem_filter.mpr
      ⟨List.mem_append_left _ hcolon, by decide⟩, rfl⟩
  · rw [Text.split_map toLower_eq_colon_iff, split_ungrouped, happend, List.map_map]
    intro part hpart
    obtain ⟨q, hq, rfl⟩ := List.mem_map.mp hpart
    rcases List.mem_append.mp hq with hq | hq
    · obtain ⟨hall, d, hd, hdigit⟩ := hparts q (List.mem_append_left _ hq)
      exact isDecimal_of_digits hall hd hdigit
    · obtain ⟨hall, d, hd, hdigit⟩ := hparts last (by simp)
      rw [List.mem_singleton.mp hq]
      exact isDecimal_of_pointed hall hfraction ⟨d, List.mem_append_left _ hd, hdigit⟩

theorem isUnsignedFloat_of_pointed (h : Tag.isPointed t) :
    IsUnsignedFloat ((ungrouped t).map Char.toLower) := by
  obtain ⟨whole, hwhole⟩ : ∃ whole, whole = t.takeWhile (· ≠ '.') := ⟨_, rfl⟩
  have ht : whole ++ t.drop whole.length = t := by
    rw [hwhole]
    exact List.prefix_iff_eq_append.mp (List.takeWhile_prefix _)
  rw [Tag.isPointed, ← hwhole] at h
  split at h
  · next rest hrest =>
    rw [hrest] at ht
    split at h
    · next d ds =>
      rw [← ht]
      simp only [Bool.or_eq_true, Bool.and_eq_true] at h
      rcases h with ⟨⟨hd, hds⟩, hfraction⟩ | ⟨hsexagesimal, hall⟩
      · have hdecimal := isDecimal_of_pointed (all_isGrouped_cons hd hds) hfraction
          ⟨d, by simp, hd⟩
        exact isUnsignedFloat_of_isDecimal hdecimal
      · exact isUnsignedFloat_of_sexagesimal hsexagesimal hall
    · cases h
  · cases h

/-- **Nothing can be wrong with a plain floating-point number.** -/
theorem ends_float (h : Tag.isFloat t) : ReadsFloat (float t) := by
  refine ends_float_of_unsigned ?_
  simp only [Tag.isFloat, Bool.or_eq_true] at h
  rcases h with ((hpointed | hinfinite) | hnan) | hpoint
  · exact isUnsignedFloat_of_pointed hpointed
  · have hword := (by decide : ∀ u ∈ Tag.infinityWords,
      (ungrouped u).map Char.toLower = ".inf".toList) _ (List.elem_iff.mp hinfinite)
    rw [hword]
    exact ⟨List.all_iff_forall_prop.mp (by decide), ⟨'.', _, rfl, .inr rfl⟩, trivial⟩
  · have hword := (by decide : ∀ u ∈ Tag.notNumberWords,
      (ungrouped (Tag.unsigned u)).map Char.toLower = ".nan".toList) _ (List.elem_iff.mp hnan)
    rw [hword]
    exact ⟨List.all_iff_forall_prop.mp (by decide), ⟨'.', _, rfl, .inr rfl⟩, trivial⟩
  · split at hpoint
    · next d ds =>
      rw [Bool.and_eq_true] at hpoint
      have hfraction : Tag.isFraction (d :: ds) := by
        rw [Tag.isFraction, List.dropWhile_cons_of_pos (by simp [isGrouped, hpoint.1])]
        exact hpoint.2
      have hdecimal : Binary64.IsDecimal ((ungrouped ([] ++ '.' :: d :: ds)).map Char.toLower) :=
        isDecimal_of_pointed rfl hfraction ⟨d, by simp, hpoint.1⟩
      exact isUnsignedFloat_of_isDecimal hdecimal
    · cases hpoint

end Yaml.Number

end Pageloom
