import Pageloom.Proofs.Site.Planning
import Pageloom.Proofs.Site.Writing

/-!
# Plans that cannot be written

A plan is accepted when no two pages have one file. That does not make it a plan that can be
written: the file of a page may also be a directory on the way to the file of another one. A page
`index.html.md` beside a page `index.md` is enough, since its folder is the file of that one.

So there is an exact condition here, and it is about names alone: in an empty output directory a
plan can be written unless the file of a page is on the way to the folder of a page. Pages beside
the output directory meet what is on the disk already, which may be a directory too.

## Main definitions

* `Path.IsAbove`: a path is a directory on the way to another one.
* `Site.IsEmptyAt`: a path leads to an empty directory.
* `Site.Clashes`: the file of a page is on the way to the folder of another page.

## Main results

* `Site.isAbove_file_iff`: when one file is above another one.
* `Site.canWrite_pages_iff`: when all pages can be written in an empty directory.
* `Site.writeAll_plan_iff`: both for an accepted plan.
-/

namespace Pageloom

/-- The path is a proper ancestor of another one. -/
def Path.IsAbove (p q : Path) : Prop :=
  p.slashes = q.slashes ∧ p.components <+: q.components ∧ p ≠ q

instance (p q : Path) : Decidable (p.IsAbove q) :=
  inferInstanceAs (Decidable (p.slashes = q.slashes ∧ p.components <+: q.components ∧ p ≠ q))

namespace Site

open Disk Place

variable {d new : Disk} {content output page p q : Path} {ps targets : List Path} {o : Place}

/-! ### Planned files -/

/-- One file is above another one if it is on the way to the folder of that one. -/
theorem isAbove_file_iff :
    (file content output p).IsAbove (file content output q) ↔
      folder content p ++ ["index.html".toList] <+: folder content q := by
  have hway : (file content output p).components <+: (file content output q).components ↔
      folder content p ++ ["index.html".toList] = folder content q ++ ["index.html".toList] ∨
        folder content p ++ ["index.html".toList] <+: folder content q :=
    (List.prefix_append_right_inj output.components).trans List.prefix_concat_iff
  rw [Path.IsAbove, hway, file, file, Ne, Path.below_inj]
  constructor
  · rintro ⟨-, h, hne⟩
    exact h.resolve_left hne
  · intro h
    refine ⟨rfl, Or.inr h, fun heq => ?_⟩
    have hlength := h.length_le
    rw [heq, List.length_append, List.length_singleton] at hlength
    omega

/-! ### In an empty directory -/

/-- The path leads to a place where there is an empty directory. -/
structure IsEmptyAt (d : Disk) (p : Path) (place : Place) : Prop where
  locate : d.locate p = .ok place
  directory : d.entry? place = some .directory
  empty : ∀ rest, rest ≠ [] → d.entry? (place ++ rest) = none

/-- The file of one page is at a place on the way to the folder of another one, when both are seen
from a directory. -/
def Clashes (content : Path) (place : Place) (p q : Path) : Prop :=
  follow place (folder content p ++ ["index.html".toList]) ∈ trail place (folder content q)

/-- Without two dots in the folders, a clash is one of names: one file is above the other one. -/
theorem clashes_iff_of_names (hp : "..".toList ∉ folder content p)
    (hq : "..".toList ∉ folder content q) :
    Clashes content o p q ↔ folder content p ++ ["index.html".toList] <+: folder content q := by
  have hfile : "..".toList ∉ folder content p ++ ["index.html".toList] := fun h =>
    (List.mem_append.mp h).elim hp fun h => index_ne_up (List.mem_singleton.mp h).symm
  rw [Clashes, follow_of_names hfile, mem_trail_of_names hq]
  constructor
  · rintro ⟨rest, hrest, heq⟩
    exact List.append_cancel_left heq ▸ hrest
  · exact fun h => ⟨_, h, rfl⟩

theorem IsEmptyAt.spot_file (h : IsEmptyAt new output o) (content page : Path) :
    new.spot (file content output page) =
      follow o (folder content page ++ ["index.html".toList]) := by
  rw [(locate_eq_ok h.locate).1]
  exact follow_append _ _ _

/-- The way to a file leads to the output directory, and on to the folder. -/
theorem mem_trail_parent_file_iff (d : Disk) (content output page : Path) {place : Place} :
    place ∈ d.trail (file content output page).parent ↔
      place ∈ d.trail output ∨ place ∈ trail (d.spot output) (folder content page) := by
  have hparent : (file content output page).parent = output.below (folder content page) := by
    rw [file, Path.below, ← List.append_assoc, Path.parent, List.dropLast_concat]
    rfl
  rw [hparent]
  exact mem_trail_append

theorem IsEmptyAt.mem_trail_file_iff (h : IsEmptyAt new output o) {place : Place} :
    place ∈ new.trail (file content output page).parent ↔
      place ∈ new.trail output ∨ place ∈ trail o (folder content page) := by
  rw [mem_trail_parent_file_iff, (locate_eq_ok h.locate).1]

theorem IsEmptyAt.directory_of_mem_trail (h : IsEmptyAt new output o) {place : Place}
    (hplace : place ∈ new.trail output) : new.entry? place = some .directory := by
  rcases (locate_eq_ok h.locate).2.1 place hplace with rfl | hdirectory
  · exact h.directory
  · exact hdirectory

/-- The way to a folder stays in the directory, but for one step up. -/
theorem mem_trail_folder (hd : d.IsTree) (hpage : page ∈ pages d content) {place : Place}
    (h : place ∈ trail o (folder content page)) :
    place = o.dropLast ∨ ∃ rest, place = o ++ rest := by
  obtain ⟨dirs, name, rfl, hnames⟩ := exists_of_mem_pages hd hpage
  rcases folder_below_cases content hnames with ⟨hfolder, -⟩ | ⟨hfolder, -⟩
  · obtain ⟨rest, -, rfl⟩ := (mem_trail_of_names hfolder).mp h
    exact Or.inr ⟨rest, rfl⟩
  · have hdirs : "..".toList ∉ dirs := fun h => (hnames _ (List.mem_append_left _ h)).ne_up rfl
    rw [hfolder, trail_concat, List.mem_append, follow_of_names hdirs] at h
    rcases h with h | h
    · obtain ⟨rest, -, rfl⟩ := (mem_trail_of_names hdirs).mp h
      exact Or.inr ⟨rest, rfl⟩
    · rw [List.mem_singleton.mp h, step, if_pos rfl]
      by_cases hne : dirs = []
      · exact Or.inl (by rw [hne, List.append_nil])
      · exact Or.inr ⟨dirs.dropLast, List.dropLast_append_of_ne_nil hne⟩

/-- The place of a file: in the directory, or for a page beside it, in the directory above. -/
theorem IsEmptyAt.spot_of_not_isBeside (h : IsEmptyAt new output o) (hd : d.IsTree)
    (hpage : page ∈ pages d content) (hbeside : ¬ IsBeside content output page) :
    ∃ rest, rest ≠ [] ∧ new.spot (file content output page) = o ++ rest := by
  rw [(locate_eq_ok h.locate).1]
  exact ((file_isInside_iff hd hpage output).mpr hbeside).spot_eq new

theorem IsEmptyAt.spot_of_isBeside (h : IsEmptyAt new output o) (hd : d.IsTree)
    (hpage : page ∈ pages d content) (hbeside : IsBeside content output page) :
    new.spot (file content output page) = o.dropLast ++ ["index.html".toList] := by
  obtain ⟨dirs, name, rfl, hnames⟩ := exists_of_mem_pages hd hpage
  have hdirs : dirs = [] := by
    have hlength := congrArg (·.components.length) hbeside.parent
    simpa [Path.parent, Path.below] using hlength
  subst hdirs
  rw [h.spot_file]
  rcases folder_below_cases content hnames with ⟨-, hstem⟩ | ⟨hfolder, -⟩
  · exact absurd hbeside.stem hstem
  · rw [hfolder]
    rfl

/-- Whether there is a directory in the place of a file. -/
theorem IsEmptyAt.directory_spot_iff (h : IsEmptyAt new output o) (hd : d.IsTree)
    (hpage : page ∈ pages d content) :
    new.entry? (new.spot (file content output page)) = some .directory ↔
      IsBeside content output page ∧
        new.entry? (o.dropLast ++ ["index.html".toList]) = some .directory := by
  by_cases hbeside : IsBeside content output page
  · rw [h.spot_of_isBeside hd hpage hbeside, and_iff_right hbeside]
  · obtain ⟨rest, hne, hspot⟩ := h.spot_of_not_isBeside hd hpage hbeside
    simp [hspot, h.empty rest hne, hbeside]

/-- In an empty directory there is no file on the way to a file. -/
theorem IsEmptyAt.not_hasFile (h : IsEmptyAt new output o) (hd : d.IsTree) (hnew : new.IsTree)
    (hpage : page ∈ pages d content) {place : Place}
    (hplace : place ∈ new.trail (file content output page).parent) : ¬ new.HasFile place := by
  rcases h.mem_trail_file_iff.mp hplace with hplace | hplace
  · exact not_hasFile_of_directory (h.directory_of_mem_trail hplace)
  · rcases mem_trail_folder hd hpage hplace with rfl | ⟨rest, rfl⟩
    · exact not_hasFile_of_directory (hnew.directory_above h.directory)
    · by_cases hne : rest = []
      · rw [hne, List.append_nil]
        exact not_hasFile_of_directory h.directory
      · rintro ⟨bytes, hfile⟩
        rw [h.empty rest hne] at hfile
        cases hfile

theorem IsEmptyAt.blocks_iff (h : IsEmptyAt new output o) :
    Blocks new (file content output p) (file content output q) ↔
      new.spot (file content output p) ∈ new.trail output ∨ Clashes content o p q := by
  rw [Blocks, h.mem_trail_file_iff, Clashes, h.spot_file]

/-- **All pages can be written** in an empty directory exactly if no file is on the way to a folder,
and no page is beside the directory where another directory is. -/
theorem canWrite_pages_iff (hd : d.IsTree) (hnew : new.IsTree) (h : IsEmptyAt new output o) :
    CanWrite new ((pages d content).map (file content output)) ↔
      (∀ p ∈ pages d content, ∀ q ∈ pages d content, ¬ Clashes content o p q) ∧
        ∀ p ∈ pages d content, IsBeside content output p →
          new.entry? (o.dropLast ++ ["index.html".toList]) ≠ some .directory := by
  constructor
  · rintro ⟨hfits, hapart⟩
    refine ⟨fun p hp q hq hclash => ?_, fun p hp hbeside hdirectory => ?_⟩
    · exact hapart _ (List.mem_map_of_mem hp) _ (List.mem_map_of_mem hq)
        (h.blocks_iff.mpr (Or.inr hclash))
    · exact (hfits _ (List.mem_map_of_mem hp)).spot
        ((h.directory_spot_iff hd hp).mpr ⟨hbeside, hdirectory⟩)
  · rintro ⟨hclash, hbeside⟩
    have hspot : ∀ p ∈ pages d content,
        new.entry? (new.spot (file content output p)) ≠ some .directory := by
      intro p hp hdirectory
      obtain ⟨hb, habove⟩ := (h.directory_spot_iff hd hp).mp hdirectory
      exact hbeside p hp hb habove
    constructor
    · intro t ht
      obtain ⟨p, hp, rfl⟩ := List.mem_map.mp ht
      exact ⟨fun place hplace => h.not_hasFile hd hnew hp hplace, hspot p hp⟩
    · intro t ht u hu hb
      obtain ⟨p, hp, rfl⟩ := List.mem_map.mp ht
      obtain ⟨q, hq, rfl⟩ := List.mem_map.mp hu
      rcases h.blocks_iff.mp hb with htrail | hc
      · exact hspot p hp (h.directory_of_mem_trail htrail)
      · exact hclash p hp q hq hc

/-! ### Accepted plans -/

/-- The components of the file of a page can stand on a disk, though its path may be too long. -/
theorem isUsable_of_mem_file (houtput : IsUsablePath output) (hd : d.IsTree)
    (hpage : page ∈ pages d content) {part : Text}
    (hpart : part ∈ (file content output page).components) : IsUsable part := by
  rcases List.mem_append.mp hpart with hpart | hpart
  · exact houtput.parts part hpart
  · rcases List.mem_append.mp hpart with hpart | hpart
    · exact isUsable_of_mem_folder hd hpage hpart
    · rw [List.mem_singleton.mp hpart]
      decide

/-- **What an accepted plan comes to.** One file is above another one exactly if the file of a page
is on the way to the folder of a page. In an empty output directory the pages are written, whatever
their text is, exactly if no file is on the way to a folder when both are seen from there, and no
page is beside the output directory where another directory is, and no path is too long. If they are
not written, it is because of a clash, unless a path is too long. -/
theorem writeAll_plan_iff (hd : d.IsTree)
    (hplan : plan content output (pages d content) = .ok targets) :
    ((∃ t ∈ targets, ∃ u ∈ targets, t.IsAbove u) ↔
        ∃ p ∈ pages d content, ∃ q ∈ pages d content,
          folder content p ++ ["index.html".toList] <+: folder content q) ∧
      ∀ (new : Disk) (o : Place) (htmls : List Text), new.IsTree → IsEmptyAt new output o →
        htmls.length = targets.length →
        ((∃ after, writeAll (targets.zip htmls) new = (.ok (), after)) ↔
          (∀ p ∈ pages d content, ∀ q ∈ pages d content, ¬ Clashes content o p q) ∧
            (∀ p ∈ pages d content, IsBeside content output p →
              new.entry? (o.dropLast ++ ["index.html".toList]) ≠ some .directory) ∧
            ∀ t ∈ targets, isLongPath t = false) ∧
        ∀ f after, writeAll (targets.zip htmls) new = (.error f, after) →
          f.cause.IsClash ∨ f.cause = .nameTooLong ∧ ∃ t ∈ targets, isLongPath t := by
  obtain rfl := plan_eq_ok hd hplan
  refine ⟨?_, fun new o htmls hnew hempty hlength => ?_⟩
  · simp only [List.mem_map, exists_exists_and_eq_and, isAbove_file_iff]
  · rw [← and_assoc, ← canWrite_pages_iff hd hnew hempty]
    set targets := (pages d content).map (file content output) with htargets
    have hfst : (targets.zip htmls).map Prod.fst = targets :=
      List.map_fst_zip hlength.ge
    have hjobs : ∀ job ∈ targets.zip htmls, job.1 ∈ targets := fun job hjob =>
      hfst ▸ List.mem_map_of_mem hjob
    have hparts : ∀ t ∈ targets, ∀ part ∈ t.components, IsUsable part := by
      intro t ht part hpart
      obtain ⟨p, hp, rfl⟩ := List.mem_map.mp ht
      exact isUsable_of_mem_file (locate_eq_ok hempty.locate).2.2 hd hp hpart
    refine ⟨⟨?_, ?_⟩, fun f after hfail => ?_⟩
    · rintro ⟨after, hwrite⟩
      obtain ⟨hcan, husable⟩ := canWrite_of_writeAll hwrite
      rw [hfst] at hcan
      refine ⟨hcan, fun t ht => ?_⟩
      obtain ⟨job, hjob, rfl⟩ := List.mem_map.mp (hfst.symm ▸ ht)
      exact (husable job hjob).short
    · rintro ⟨hcan, hshort⟩
      refine writeAll_of_canWrite _ (fun t ht => ?_) (hfst.symm ▸ hcan)
      rw [hfst] at ht
      exact ⟨hparts t ht, hshort t ht⟩
    · refine (cause_of_writeAll (fun job hjob => hparts _ (hjobs job hjob)) hfail).imp_right ?_
      rintro ⟨hcause, job, hjob, hlong⟩
      exact ⟨hcause, job.1, hjobs job hjob, hlong⟩

/-- Two pages in one directory. The plan for them is accepted, but it cannot be written. -/
theorem writeAll_of_index_html :
    let d : Disk := ⟨[], [(["content"], .directory), (["content", "index.html.md"], .file []),
      (["content", "index.md"], .file [])]⟩
    let new : Disk := ⟨[], [(["out"], .directory)]⟩
    let targets : List Path := ["out/index.html/index.html", "out/index.html"]
    d.IsTree ∧ plan "content" "out" (pages d "content") = .ok targets ∧
      new.IsTree ∧ IsEmptyAt new "out" ["out"] ∧
      (∃ t ∈ targets, ∃ u ∈ targets, t.IsAbove u) ∧
      ¬ ∃ after, writeAll (targets.zip ["a", "b"]) new = (.ok (), after) := by
  intro d new targets
  have hd : d.IsTree := by decide
  have hplan : plan "content" "out" (pages d "content") = .ok targets := by decide
  have hnew : new.IsTree := by decide
  have hempty : IsEmptyAt new "out" ["out"] := by
    refine ⟨by decide, by decide, fun rest hrest => ?_⟩
    obtain ⟨part, rest, rfl⟩ := List.exists_cons_of_ne_nil hrest
    rfl
  have hindex : ("content/index.md" : Path) ∈ pages d "content" := by decide
  have hother : ("content/index.html.md" : Path) ∈ pages d "content" := by decide
  have hway : folder "content" "content/index.md" ++ ["index.html".toList] <+:
      folder "content" "content/index.html.md" := by decide
  obtain ⟨habove, hwrite⟩ := writeAll_plan_iff hd hplan
  refine ⟨hd, hplan, hnew, hempty, habove.mpr ⟨_, hindex, _, hother, hway⟩, fun hok => ?_⟩
  exact (((hwrite new _ ["a", "b"] hnew hempty rfl).1.mp hok).1 _ hindex _ hother)
    ((clashes_iff_of_names (by decide) (by decide)).mpr hway)

end Site

end Pageloom
