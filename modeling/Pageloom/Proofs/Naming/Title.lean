import Pageloom.Proofs.Naming.Slug
import Pageloom.Proofs.Path.Parts
import Pageloom.Proofs.Text.Blank
import Pageloom.Proofs.Text.Case

/-!
# Titles

The title of a page consists of the words of its file name, each with a capital. Like a slug it
leaves out what has the form of a date at the start. Digits of any script are words of a title, so a
title never gets along without the numbers of a date, while a slug does if they are not in ASCII.

A file name holds no slash. If there is one, the name is a path and only its last component counts.

## Main definitions

* `Name.words`: the words of a name.

## Main results

* `Path.stem_append_md`: the stem of a path with the suffix of Markdown files.
* `Name.title_of_undated`: the title of a name that does not begin like a date.
* `Name.keeps_name_iff`: the names that a slug and a title have all of.
-/

namespace Pageloom

/-- Behind a text the suffix of Markdown files leaves the last component of it for the stem. With
nothing behind the last slash, it is no suffix. -/
theorem Path.stem_append_md (name : Text) :
    ∃ parts last, Text.split '/' name = parts ++ [last] ∧
      (Path.parse (name ++ ".md")).stem = if last = [] then ".md".toList else last := by
  obtain ⟨parts, last, hname, hsplit⟩ :=
    Text.split_append_of_notMem (by decide : '/' ∉ ".md".toList) name
  refine ⟨parts, last, hname, ?_⟩
  have hlast : (Path.parse (name ++ ".md")).name = last ++ ".md" := by
    have hlength : (last ++ ".md".toList).length ≠ 0 ∧ (last ++ ".md".toList).length ≠ 1 := by simp
    have hkept : ([last ++ ".md".toList].filter fun part => part ≠ [] && part ≠ ['.']) =
        [last ++ ".md".toList] := by
      refine List.filter_eq_self.mpr fun part hpart => ?_
      rw [List.mem_singleton.mp hpart, Bool.and_eq_true, decide_eq_true_eq, decide_eq_true_eq]
      exact ⟨fun h => hlength.1 (congrArg List.length h),
        fun h => hlength.2 (congrArg List.length h)⟩
    rw [Path.name, Path.parse, hsplit, List.filter_append, hkept, List.getLastD_concat]
  have hcut := Path.splitSuffix_last_dot last (by decide : '.' ∉ "md".toList)
  rw [Path.stem, hlast]
  by_cases hnil : last = []
  · rw [if_neg fun h => h.2 hnil] at hcut
    rw [if_pos hnil]
    exact (congrArg Prod.fst hcut).trans (by rw [hnil]; rfl)
  · rw [if_pos ⟨by decide, hnil⟩] at hcut
    rw [if_neg hnil]
    exact congrArg Prod.fst hcut

namespace Name

variable {name rest front w : Text} {c d : Char}

/-! ### Words -/

/-- The words of a name: what stands between blanks, dashes and underscores. -/
def words (name : Text) : List Text := Text.runs (fun c => !isWordBreak c) name

/-- A digit of any script belongs to a word. -/
theorem isWordBreak_of_isDigit (h : isDigit c) : isWordBreak c = false := by
  have hblank : isBlank c → isDigit c = false :=
    forall_blank (P := fun c => isDigit c = false) (by decide +kernel)
  cases hbreak : isWordBreak c with
  | false => rfl
  | true =>
    rw [isWordBreak, Bool.or_eq_true, Bool.or_eq_true, beq_iff_eq, beq_iff_eq] at hbreak
    rcases hbreak with (hbreak | rfl) | rfl
    · rw [hblank hbreak] at h
      cases h
    · exact absurd h (by decide)
    · exact absurd h (by decide)

theorem words_of_isDigitGroup (h : isDigitGroup w) : words w = [w] :=
  Text.runs_of_forall (isDigitGroup_iff.mp h).1 fun c hc => by
    rw [isWordBreak_of_isDigit ((isDigitGroup_iff.mp h).2 c hc), Bool.not_false]

theorem words_append_dash (before behind : Text) :
    words (before ++ '-' :: behind) = words before ++ words behind :=
  Text.runs_append_cons (by decide) before behind

/-- The groups of a date are the first words of a name that begins with it. -/
theorem IsDatePrefix.words_append (h : IsDatePrefix front) :
    ∃ w groups, isDigitGroup w ∧ ∀ rest, words (front ++ rest) = w :: groups ++ words rest := by
  obtain ⟨year, month, day, hyear, hmonth, hday, rfl⟩ := h
  refine ⟨year, [month, day], hyear, fun rest => ?_⟩
  have hsplit : year ++ '-' :: (month ++ '-' :: (day ++ ['-'])) ++ rest =
      year ++ '-' :: (month ++ '-' :: (day ++ '-' :: rest)) := by simp
  rw [hsplit, words_append_dash, words_append_dash, words_append_dash, words_of_isDigitGroup hyear,
    words_of_isDigitGroup hmonth, words_of_isDigitGroup hday]
  rfl

/-! ### Titles of names -/

/-- The title of what is left of a name. -/
def titleOf (rest : Text) : Text :=
  if words rest = [] then "Untitled" else Text.join " " ((words rest).map Text.capitalize)

theorem title_eq (filename : Text) :
    title filename = titleOf (dropDatePrefix (Path.parse filename).stem) := rfl

/-- A file name is its own stem, in front of the suffix. -/
theorem title_append_md (hne : name ≠ []) (hslash : '/' ∉ name) :
    title (name ++ ".md") = titleOf (dropDatePrefix name) := by
  obtain ⟨parts, last, hsplit, hstem⟩ := Path.stem_append_md name
  rw [Text.split_of_notMem hslash] at hsplit
  obtain rfl : last = name := by simpa using (congrArg List.getLast? hsplit).symm
  rw [title_eq, hstem, if_neg hne]

/-- **The title of a name** that does not begin like a date has all its words. -/
theorem title_of_undated (hne : name ≠ []) (hslash : '/' ∉ name)
    (hno : ∀ front, IsDatePrefix front → ¬ front <+: name) :
    title (name ++ ".md") = titleOf name := by
  rw [title_append_md hne hslash, dropDatePrefix_of_not hno]

theorem inOrder_titleOf (name : Text) :
    Text.InOrder ((words name).map Text.capitalize) (titleOf name) := by
  rw [titleOf]
  split
  · next hnil =>
    rw [hnil]
    exact .nil _
  · exact Text.inOrder_join _ _

theorem slash_mem_of_mem_titleOf (h : '/' ∈ titleOf rest) : '/' ∈ rest := by
  rw [titleOf] at h
  split at h
  · exact absurd h (by decide)
  · rcases Text.mem_join h with hspace | ⟨w, hw, hmem⟩
    · exact absurd hspace (by decide)
    · obtain ⟨run, hrun, rfl⟩ := List.mem_map.mp hw
      exact Text.mem_of_mem_runs hrun ((Text.mem_capitalize_iff (by decide) (by decide)).mp hmem)

/-- A title is made of one component of a path. -/
theorem slash_notMem_title (name : Text) : '/' ∉ title (name ++ ".md") := fun h => by
  obtain ⟨parts, last, hsplit, hstem⟩ := Path.stem_append_md name
  rw [title_eq, hstem] at h
  have hmem := (dropDatePrefix_suffix _).subset (slash_mem_of_mem_titleOf h)
  split at hmem
  · exact absurd hmem (by decide)
  · exact Text.notMem_of_mem_split (hsplit ▸ List.mem_concat_self) hmem

/-! ### What a title keeps -/

/-- The capital form of a digit is no letter of ASCII. -/
theorem isAlpha_of_mem_titleFull (hc : isDigit c) (hd : d ∈ titleFull c) (hlt : d.toNat < 128) :
    d.isAlpha = false := by
  by_cases hascii : c.toNat < 128
  · rw [isDigit, if_pos hascii] at hc
    rw [titleFull, if_pos hascii, List.mem_singleton] at hd
    rw [hd]
    exact forall_ascii (P := fun c => c.isDigit → c.toUpper.isAlpha = false) (by decide) hascii hc
  · have hnone : ∀ n ∈ asciiTitled, isDigit (Char.ofNat n) = false := by decide +kernel
    have hno := hnone _ ((titleFull_of_not_lt hascii).2 d hd hlt)
    rw [Char.ofNat_toNat, hc] at hno
    cases hno

theorem space_notMem_of_mem_words (h : w ∈ (words name).map Text.capitalize) : ' ' ∉ w := by
  intro hmem
  obtain ⟨run, hrun, rfl⟩ := List.mem_map.mp h
  have hspace := (Text.mem_capitalize_iff (by decide) (by decide)).mp hmem
  exact absurd (Text.of_mem_of_mem_runs hrun hspace) (by decide)

theorem filter_flatten_words (name : Text) :
    ((words name).map Text.capitalize).flatten.filter (· ≠ ' ') =
      ((words name).map Text.capitalize).flatten := by
  refine List.filter_eq_self.mpr fun c hc => decide_eq_true fun hspace => ?_
  obtain ⟨w, hw, hmem⟩ := List.mem_flatten.mp hc
  exact space_notMem_of_mem_words hw (hspace ▸ hmem)

/-- The characters of a title, spaces apart, are those of its words. -/
theorem filter_titleOf (hne : words rest ≠ []) :
    (titleOf rest).filter (· ≠ ' ') = ((words rest).map Text.capitalize).flatten := by
  rw [titleOf, if_neg hne, Text.filter_join (by decide), filter_flatten_words]

/-- The groups of a date are not all in the title of what is left. -/
theorem not_inOrder_of_isDatePrefix (hfront : IsDatePrefix front) (rest : Text) :
    ¬ Text.InOrder ((words (front ++ rest)).map Text.capitalize) (titleOf rest) := fun h => by
  obtain ⟨w, groups, hw, hwords⟩ := hfront.words_append
  obtain ⟨hne, hdigits⟩ := isDigitGroup_iff.mp hw
  obtain ⟨c, w, rfl⟩ := List.exists_cons_of_ne_nil hne
  obtain ⟨d, hd⟩ := List.exists_mem_of_ne_nil _ (titleFull_ne_nil c)
  have hmem : d ∈ (((c :: w) :: groups).map Text.capitalize).flatten := by
    rw [List.map_cons, List.flatten_cons, Text.capitalize]
    exact List.mem_append_left _ (List.mem_append_left _ hd)
  have hall : ((words (front ++ rest)).map Text.capitalize).flatten =
      (((c :: w) :: groups).map Text.capitalize).flatten ++
        ((words rest).map Text.capitalize).flatten := by
    rw [hwords, List.map_append, List.flatten_append]
  have hsub := h.flatten_sublist
  by_cases hnil : words rest = []
  · -- a title without words is made of letters
    rw [titleOf, if_pos hnil, hall] at hsub
    have hletters : "Untitled".toList.all fun e => e.toNat < 128 && e.isAlpha := by decide
    obtain ⟨hlt, hletter⟩ : d.toNat < 128 ∧ d.isAlpha := by
      simpa using List.all_eq_true.mp hletters d (hsub.subset (List.mem_append_left _ hmem))
    rw [isAlpha_of_mem_titleFull (hdigits c List.mem_cons_self) hd hlt] at hletter
    cases hletter
  · -- all characters of words are counted: the title has only those of the words that are left
    have hcount := hsub.filter (· ≠ ' ')
    rw [filter_flatten_words, filter_titleOf hnil, hall] at hcount
    rw [Text.eq_nil_of_append_sublist hcount] at hmem
    cases hmem

/-- **Which names a slug and a title have all of.** A slug has the letters and digits of a name in
order, in lower case, unless digits of ASCII are dropped with what has the form of a date. A title
has the words of a file name in order, with capitals, unless the name begins like a date; of a path
it has never all. -/
theorem keeps_name_iff (name : Text) :
    ((letters name).Sublist (slug name) ↔
      ∀ front, IsDatePrefix front → front <+: name → ∀ c ∈ front, c.isDigit = false) ∧
    (Text.InOrder ((words name).map Text.capitalize) (title (name ++ ".md")) ↔
      '/' ∉ name ∧ ∀ front, IsDatePrefix front → ¬ front <+: name) := by
  refine ⟨letters_sublist_slug_iff name, fun h => ?_, fun ⟨hslash, hno⟩ => ?_⟩
  · have hslash : '/' ∉ name := fun hmem => by
      obtain ⟨w, hw, hslash⟩ := Text.exists_mem_runs (p := fun c => !isWordBreak c) hmem (by decide)
      have hcapital := (Text.mem_capitalize_iff (by decide) (by decide)).mpr hslash
      exact slash_notMem_title name (h.flatten_sublist.subset
        (List.mem_flatten_of_mem (List.mem_map_of_mem hw) hcapital))
    refine ⟨hslash, ?_⟩
    rintro front hfront ⟨rest, rfl⟩
    obtain ⟨c, hc, -⟩ := hfront.exists_isDigit
    have hne : front ++ rest ≠ [] := List.append_ne_nil_of_left_ne_nil (List.ne_nil_of_mem hc) rest
    rw [title_append_md hne hslash, dropDatePrefix_append hfront] at h
    exact not_inOrder_of_isDatePrefix hfront rest h
  · by_cases hne : name = []
    · rw [hne]
      exact .nil _
    · rw [title_of_undated hne hslash hno]
      exact inOrder_titleOf name

/-- Three numbers that are no date, in ASCII and in another script. -/
example : slug "10-20-30-rule" = "rule" ∧ title "10-20-30-rule.md" = "Rule" ∧
    slug "²-³-¹-rule" = "rule" ∧ title "²-³-¹-rule.md" = "Rule" := by decide +kernel

end Name

end Pageloom
