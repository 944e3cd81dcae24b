import Pageloom.Proofs.Disk.Tree
import Pageloom.Proofs.Path.Resolve
import Pageloom.Site.Plan

/-!
# Where pages are written

The file of a page is `index.html` in the folder of the page, which is seen from the output
directory: the directories on the way to the page, and its stem unless that is `index`. A stem of
one dot adds nothing either.

So the file is inside the output directory as long as the stem is a name. It is one for every page
but those of the form `...md`, whose stem leads up. In a directory such a page is still written
inside the output directory, but directly in the content directory it is written beside it.

## Main definitions

* `Site.folder`, `Site.file`: the folder and the file of a page.
* `Site.IsBeside`: the page is written beside the output directory.

## Main results

* `Site.target_of_mem_pages`: each page is written to its file.
* `Site.exists_target_isInside_iff`: when a page is written inside the output directory.
-/

namespace Pageloom.Site

open Disk

variable {d : Disk} {content output page p q : Path} {ps : List Path} {dirs : List Text}
  {name : Text}

/-! ### Pages -/

theorem mem_insert : p ∈ insert q ps ↔ p = q ∨ p ∈ ps := by
  induction ps with
  | nil => simp [insert]
  | cons r ps ih =>
    rw [insert]
    split
    · simp
    · simp [ih, or_left_comm]

theorem mem_sort : p ∈ sort ps ↔ p ∈ ps := by
  induction ps with
  | nil => exact Iff.rfl
  | cons q ps ih => rw [sort, List.foldr_cons, mem_insert, ← sort, ih, List.mem_cons]

theorem mem_filesBelow_iff : page ∈ filesBelow d content ↔
    ∃ place rest e, d.locate content = .ok place ∧ d.entry? place = some .directory ∧
      rest ≠ [] ∧ (place ++ rest, e) ∈ d.entries ∧ e ≠ .directory ∧ page = content.below rest := by
  constructor
  · intro h
    obtain ⟨⟨_, e⟩, hkept, rfl⟩ := List.mem_map.mp h
    obtain ⟨hunder, he⟩ := List.mem_filter.mp hkept
    obtain ⟨place, rest, hlocate, hplace, hne, hmem, hpage⟩ := mem_under_iff.mp hunder
    exact ⟨place, rest, e, hlocate, hplace, hne, hmem, of_decide_eq_true he, hpage⟩
  · rintro ⟨place, rest, e, hlocate, hplace, hne, hmem, he, hpage⟩
    have hunder := mem_under_iff.mpr ⟨place, rest, hlocate, hplace, hne, hmem, hpage⟩
    exact List.mem_map.mpr ⟨(page, e), List.mem_filter.mpr ⟨hunder, decide_eq_true he⟩, rfl⟩

theorem mem_pages : page ∈ pages d content ↔ page ∈ filesBelow d content ∧ isPage content page := by
  rw [pages, List.mem_filter, mem_sort]

theorem listing_eq_ok_iff : listing d content = .ok ps ↔
    longPath? d content = none ∧ ps = pages d content := by
  rw [listing]
  cases longPath? d content <;> simp [eq_comm]

theorem longPath?_eq_none_iff : longPath? d content = none ↔
    ∀ p e, (p, e) ∈ d.under content → isLongPath p = false := by
  simp only [longPath?, List.find?_eq_none, mem_sort, List.mem_map, Prod.exists, exists_and_right,
    exists_eq_right, Bool.not_eq_true, forall_exists_index]

theorem exists_isLongPath_of_listing {f : Disk.Fault}
    (h : listing d content = .error f) :
    ∃ p e, (p, e) ∈ d.under content ∧ isLongPath p ∧ f = ⟨.nameTooLong, p⟩ := by
  rw [listing] at h
  split at h
  · next p hp =>
    obtain ⟨⟨_, e⟩, hmem, rfl⟩ := List.mem_map.mp (mem_sort.mp (List.mem_of_find?_eq_some hp))
    exact ⟨_, e, hmem, List.find?_some hp, (Except.error.inj h).symm⟩
  · cases h

/-- On a tree, a page is the content directory with names behind. -/
theorem exists_of_mem_pages (hd : d.IsTree) (hpage : page ∈ pages d content) :
    ∃ dirs name, page = content.below (dirs ++ [name]) ∧ ∀ part ∈ dirs ++ [name], IsName part := by
  obtain ⟨place, rest, e, -, -, hne, hmem, -, rfl⟩ := mem_filesBelow_iff.mp (mem_pages.mp hpage).1
  replace hmem : place ++ rest ∈ d.places := List.mem_map_of_mem hmem
  rcases List.eq_nil_or_concat rest with rfl | ⟨dirs, name, rfl⟩
  · exact absurd rfl hne
  · rw [List.concat_eq_append] at hmem ⊢
    exact ⟨dirs, name, rfl, fun part hpart =>
      hd.names _ hmem part (List.mem_append_right place hpart)⟩

/-! ### Folders -/

/-- The folder of a page, seen from the output directory: the directories that the page is in, and
its stem, unless that stands for the directory itself. -/
def folder (content page : Path) : List Text :=
  (page.components.drop content.components.length).dropLast ++
    if page.stem = "index".toList ∨ page.stem = ".".toList then [] else [page.stem]

/-- The file that a page is to be written to: `index.html` in its folder. -/
def file (content output page : Path) : Path :=
  output.below (folder content page ++ ["index.html".toList])

theorem stem_below (content : Path) (dirs : List Text) (name : Text) :
    (content.below (dirs ++ [name])).stem = (Path.splitSuffix name).1 := by
  rw [Path.stem, Path.name, Path.below, ← List.append_assoc, List.getLastD_concat]

theorem folder_below (content : Path) (dirs : List Text) (name : Text) :
    folder content (content.below (dirs ++ [name])) =
      dirs ++ if (Path.splitSuffix name).1 = "index".toList ∨
        (Path.splitSuffix name).1 = ".".toList then [] else [(Path.splitSuffix name).1] := by
  rw [folder, stem_below, Path.below, List.drop_left, List.dropLast_concat]

/-- A stem spells one component, or none if it is a single dot. -/
theorem parse_stem (hne : name ≠ []) (hname : '/' ∉ name) :
    Path.parse (Path.splitSuffix name).1 =
      ⟨0, if (Path.splitSuffix name).1 = ".".toList then [] else [(Path.splitSuffix name).1]⟩ := by
  refine Path.parse_of_no_slash (fun hslash => hname ?_) (Path.splitSuffix_fst_ne_nil hne)
  rw [← Path.splitSuffix_append name]
  exact List.mem_append_left _ hslash

/-- The components of a folder can stand on a disk, as the names they are parts of do. -/
theorem isUsable_of_mem_folder (hd : d.IsTree) (hpage : page ∈ pages d content) {part : Text}
    (hpart : part ∈ folder content page) : IsUsable part := by
  obtain ⟨dirs, name, rfl, hnames⟩ := exists_of_mem_pages hd hpage
  rw [folder_below] at hpart
  rcases List.mem_append.mp hpart with h | h
  · exact (hnames part (List.mem_append_left _ h)).toIsUsable
  · split at h
    · cases h
    · rw [List.mem_singleton.mp h]
      exact (hnames name (by simp)).toIsUsable.of_prefix ⟨_, Path.splitSuffix_append name⟩

theorem target_below (content output : Path) (dirs : List Text) (hne : name ≠ [])
    (hname : '/' ∉ name) : target content output (content.below (dirs ++ [name])) =
      .ok (file content output (content.below (dirs ++ [name]))) := by
  have hstem : Path.stem ⟨0, dirs ++ [name]⟩ = (Path.splitSuffix name).1 :=
    stem_below ⟨0, []⟩ dirs name
  have hindex : Path.parse "index.html".toList = ⟨0, ["index.html".toList]⟩ := by decide
  rw [target, Path.relativeTo_below, file, folder_below]
  simp only [hstem, hindex, parse_stem hne hname, Path.parent, List.dropLast_concat]
  generalize (Path.splitSuffix name).1 = stem
  by_cases hstays : stem = "index".toList
  · simp only [if_pos hstays, if_pos (Or.inl hstays), Path.append, Path.below, if_true,
      List.append_nil, List.append_assoc]
  · by_cases hdot : stem = ".".toList
    · simp only [if_neg hstays, if_pos hdot, if_pos (Or.inr hdot), Path.append, Path.below, if_true,
        List.append_nil, List.append_assoc]
    · simp only [if_neg hstays, if_neg hdot, if_neg (not_or.mpr ⟨hstays, hdot⟩), Path.append,
        Path.below, if_true, List.append_assoc]

theorem target_of_mem_pages (hd : d.IsTree) (hpage : page ∈ pages d content) (output : Path) :
    target content output page = .ok (file content output page) := by
  obtain ⟨dirs, name, rfl, hnames⟩ := exists_of_mem_pages hd hpage
  have hname := hnames name (by simp)
  exact target_below content output dirs hname.ne_nil hname.no_slash

/-! ### Inside and beside -/

/-- The page is written beside the output directory: it is directly in the content directory and its
stem leads up. The root of the disk has nothing beside it. -/
structure IsBeside (content output page : Path) : Prop where
  parent : page.parent = content
  stem : page.stem = "..".toList
  root : ¬ output.IsRoot

theorem index_ne_up : "index.html".toList ≠ "..".toList := by decide

theorem parent_below_singleton (content : Path) (name : Text) :
    (content.below [name]).parent = content := by
  rw [Path.parent, Path.below, List.dropLast_concat]

/-- A folder ends with two dots for the stem `..` only, and no directory on the way to it is one. -/
theorem folder_below_cases (content : Path) (hnames : ∀ part ∈ dirs ++ [name], IsName part) :
    "..".toList ∉ folder content (content.below (dirs ++ [name])) ∧
        (content.below (dirs ++ [name])).stem ≠ "..".toList ∨
      folder content (content.below (dirs ++ [name])) = dirs ++ ["..".toList] ∧
        (content.below (dirs ++ [name])).stem = "..".toList := by
  have hdirs : "..".toList ∉ dirs := fun h => (hnames _ (List.mem_append_left _ h)).ne_up rfl
  rw [folder_below, stem_below]
  by_cases hup : (Path.splitSuffix name).1 = "..".toList
  · refine Or.inr ⟨?_, hup⟩
    rw [hup, if_neg (by decide)]
  · refine Or.inl ⟨fun hmem => ?_, hup⟩
    rcases List.mem_append.mp hmem with h | h
    · exact hdirs h
    · split at h
      · cases h
      · exact hup (List.mem_singleton.mp h).symm

theorem file_isInside_iff (hd : d.IsTree) (hpage : page ∈ pages d content) (output : Path) :
    (file content output page).IsInside output ↔ ¬ IsBeside content output page := by
  obtain ⟨dirs, name, rfl, hnames⟩ := exists_of_mem_pages hd hpage
  rw [file]
  rcases folder_below_cases content hnames with ⟨hfolder, hstem⟩ | ⟨hfolder, hstem⟩
  · refine iff_of_true (Path.isInside_below_names output ?_ (by simp)) fun h => hstem h.stem
    exact fun hmem => (List.mem_append.mp hmem).elim hfolder fun h =>
      index_ne_up (List.mem_singleton.mp h).symm
  · rw [hfolder]
    rcases List.eq_nil_or_concat dirs with rfl | ⟨above, last, rfl⟩
    · refine (Path.isInside_below_up_iff output index_ne_up).trans
        ⟨fun hroot h => h.root hroot, fun h => ?_⟩
      by_contra hroot
      exact h ⟨parent_below_singleton content name, hstem, hroot⟩
    · rw [List.concat_eq_append] at hnames ⊢
      have hup : "..".toList ∉ above ++ [last] := fun h =>
        (hnames _ (List.mem_append_left _ h)).ne_up rfl
      have hinside := Path.isInside_below_names_up output hup index_ne_up
      rw [List.append_assoc, List.append_assoc]
      refine iff_of_true hinside fun h => ?_
      have hlength := congrArg (·.components.length) h.parent
      simp [Path.parent, Path.below] at hlength

/-- **Pages are written inside the output directory**, all but those beside it. On any disk the
file is then below the place that the output directory leads to. -/
theorem exists_target_isInside_iff (hd : d.IsTree) (hpage : page ∈ pages d content)
    (output : Path) :
    ∃ t, target content output page = .ok t ∧
      (t.IsInside output ↔ ¬ IsBeside content output page) ∧
      (t.IsInside output → ∀ (new : Disk) (o place : Place), new.locate output = .ok o →
        new.locate t = .ok place → o <+: place ∧ o ≠ place) := by
  refine ⟨_, target_of_mem_pages hd hpage output, file_isInside_iff hd hpage output, ?_⟩
  intro hinside new o place ho hplace
  obtain ⟨rest, hne, hspot⟩ := hinside.spot_eq new
  rw [(locate_eq_ok ho).1, (locate_eq_ok hplace).1, hspot]
  exact ⟨List.prefix_append _ _, by simpa using hne⟩

/-- A page that is written to `out/../index.html`. -/
theorem target_of_three_dots :
    let d : Disk := ⟨[], [(["content"], .directory), (["content", "...md"], .file [])]⟩
    d.IsTree ∧ ("content/...md" : Path) ∈ pages d "content" ∧
      ∃ t, target "content" "out" "content/...md" = .ok t ∧ ¬ t.IsInside "out" := by
  intro d
  have hd : d.IsTree := by decide
  have hpage : ("content/...md" : Path) ∈ pages d "content" := by decide
  refine ⟨hd, hpage, ?_⟩
  obtain ⟨t, htarget, hinside, -⟩ := exists_target_isInside_iff hd hpage "out"
  refine ⟨t, htarget, fun h => hinside.mp h ⟨?_, ?_, ?_⟩⟩
  · decide
  · decide
  · exact fun hroot => hroot.1 (by decide)

end Pageloom.Site
