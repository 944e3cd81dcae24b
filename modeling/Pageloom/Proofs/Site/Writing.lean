import Pageloom.Proofs.Disk.Directories
import Pageloom.Site.Build

/-!
# Writing the pages

A page is written by making the directories on the way to its file, and then the file. That comes to
nothing else than a file at its place and directories on its trail, and it fails only where the two
clash: with what is on the disk, or with what other pages have put there.

For pages that are written one after the other the order does not matter. All of them can be written
exactly if nothing on the disk is in the way of any of them, and no file is on the way of another.

## Main definitions

* `Site.Fits`: nothing on the disk is in the way of a file.
* `Site.Blocks`: one file is on the way of another.
* `Site.CanWrite`: nothing is in the way of any file.
* `Site.Wrote`: a disk is another one with the files of some pages.

## Main results

* `Site.canWrite_cons_iff`: what writing the first file leaves to be asked of the others.
* `Site.writeAll_of_canWrite`, `Site.canWrite_of_writeAll`: when all pages are written.
* `Site.cause_of_writeAll`: why a page is not written.
* `Site.writeAll_eq_ok`: what is known once all pages were written.
-/

namespace Pageloom.Site

open Disk Place

variable {d new : Disk} {t u : Path} {ts : List Path} {q : Place} {bytes : List UInt8} {html : Text}
  {jobs : List (Path × Text)}

/-- Nothing on the disk is in the way of the file: there is no file on the way to it, and no
directory in its place. -/
structure Fits (d : Disk) (t : Path) : Prop where
  way : ∀ q ∈ d.trail t.parent, ¬ d.HasFile q
  spot : d.entry? (d.spot t) ≠ some .directory

/-- One file is at a place where a directory is needed for the other. -/
def Blocks (d : Disk) (t u : Path) : Prop := d.spot t ∈ d.trail u.parent

/-- The second disk is the first with a file and the directories on the way to it. -/
structure Written (d : Disk) (t : Path) (bytes : List UInt8) (new : Disk) : Prop where
  here : new.here = d.here
  entry : ∀ q, new.entry? q =
    if q = d.spot t then some (.file bytes)
    else if q ∈ d.trail t.parent then some .directory
    else d.entry? q

/-! ### One page -/

/-- Once its directory is there, a file can be found. -/
theorem locate_of_opens (husable : IsUsablePath t) (h : d.Opens (d.trail t.parent) new) :
    new.locate t = .ok (d.spot t) := by
  obtain ⟨slashes, components⟩ := t
  rcases List.eq_nil_or_concat components with rfl | ⟨above, name, rfl⟩
  · rw [← spot_of_here h.here]
    exact locate_eq_walk husable
  · rw [List.concat_eq_append] at husable h ⊢
    rw [Disk.trail, Path.parent, List.dropLast_concat] at h
    rw [h.locate_concat husable, spot, follow_append, follow_singleton]

/-- With the directories on its way, the place of a file is a directory if it is one of them or was
one before. -/
theorem directory_spot_iff (h : d.Opens (d.trail t.parent) new) :
    new.entry? (d.spot t) = some .directory ↔
      Blocks d t t ∨ d.entry? (d.spot t) = some .directory := by
  rw [h.entry, Blocks]
  by_cases hself : d.spot t ∈ d.trail t.parent <;> simp [hself]

theorem writePage_of_fits (husable : IsUsablePath t) (hfits : Fits d t) (hself : ¬ Blocks d t t)
    (html : Text) :
    ∃ new, writePage t html d = (.ok (), new) ∧ Written d t (Utf8.encode html) new := by
  obtain ⟨way, hmake, hopens⟩ := makeDirectories_of_free husable.parent hfits.way
  have hspot : way.entry? (d.spot t) ≠ some .directory := fun h =>
    ((directory_spot_iff hopens).mp h).elim hself hfits.spot
  obtain ⟨new, hwrite, hholds⟩ :=
    write_of_free (locate_of_opens husable hopens) hspot (Utf8.encode html)
  refine ⟨new, by simp only [writePage, hmake, hwrite], hholds.here.trans hopens.here, fun q => ?_⟩
  rw [hholds.entry, hopens.entry]

theorem writePage_of_not (husable : IsUsablePath t) (h : ¬ (Fits d t ∧ ¬ Blocks d t t))
    (html : Text) : ∃ f new, writePage t html d = (.error f, new) ∧ f.cause.IsClash := by
  by_cases hway : ∃ q ∈ d.trail t.parent, d.HasFile q
  · obtain ⟨f, new, hmake, hclash⟩ := makeDirectories_of_file husable.parent hway
    exact ⟨f, new, by simp only [writePage, hmake], hclash⟩
  · push Not at hway
    obtain ⟨way, hmake, hopens⟩ := makeDirectories_of_free husable.parent hway
    -- The directories can be made, so it is the place of the file that is taken.
    have hspot : way.entry? (d.spot t) = some .directory := by
      rw [directory_spot_iff hopens]
      by_contra hspot
      obtain ⟨hself, hdirectory⟩ := not_or.mp hspot
      exact h ⟨⟨hway, hdirectory⟩, hself⟩
    have hwrite := write_of_directory (locate_of_opens husable hopens) hspot (Utf8.encode html)
    exact ⟨⟨.isDirectory, t⟩, way, by simp only [writePage, hmake, hwrite], Or.inr (Or.inr rfl)⟩

/-! ### All pages -/

/-- Nothing is in the way of any of the files: neither what is on the disk, nor another file, nor
the file itself. -/
structure CanWrite (d : Disk) (ts : List Path) : Prop where
  fits : ∀ t ∈ ts, Fits d t
  apart : ∀ t ∈ ts, ∀ u ∈ ts, ¬ Blocks d t u

theorem Written.hasFile_iff (h : Written d t bytes new) (hfits : Fits d t) :
    new.HasFile q ↔ q = d.spot t ∨ d.HasFile q := by
  rw [HasFile, h.entry]
  by_cases hq : q = d.spot t
  · simp [hq]
  · rw [if_neg hq]
    by_cases hway : q ∈ d.trail t.parent
    · simpa [hway, hq] using hfits.way q hway
    · simp [hway, hq, HasFile]

theorem Written.directory_iff (h : Written d t bytes new) (hfits : Fits d t)
    (hself : ¬ Blocks d t t) :
    new.entry? q = some .directory ↔ q ∈ d.trail t.parent ∨ d.entry? q = some .directory := by
  rw [h.entry]
  by_cases hq : q = d.spot t
  · subst hq
    simpa using ⟨hself, hfits.spot⟩
  · by_cases hway : q ∈ d.trail t.parent <;> simp [hq, hway]

/-- A file that has been written is in the way of exactly those that it blocks, and the directories
that were made for it of exactly those that block it. -/
theorem Written.fits_iff (h : Written d t bytes new) (hfits : Fits d t) (hself : ¬ Blocks d t t)
    (u : Path) : Fits new u ↔ Fits d u ∧ ¬ Blocks d t u ∧ ¬ Blocks d u t := by
  have hway : (∀ q ∈ new.trail u.parent, ¬ new.HasFile q) ↔
      (∀ q ∈ d.trail u.parent, ¬ d.HasFile q) ∧ ¬ Blocks d t u := by
    simp only [trail_of_here h.here, h.hasFile_iff hfits, Blocks]
    grind
  have hspot : new.entry? (new.spot u) ≠ some .directory ↔
      d.entry? (d.spot u) ≠ some .directory ∧ ¬ Blocks d u t := by
    rw [spot_of_here h.here, Ne, h.directory_iff hfits hself, not_or, and_comm]
    rfl
  constructor
  · rintro ⟨h₁, h₂⟩
    obtain ⟨hfree, ht⟩ := hway.mp h₁
    obtain ⟨hplace, hu⟩ := hspot.mp h₂
    exact ⟨⟨hfree, hplace⟩, ht, hu⟩
  · rintro ⟨⟨hfree, hplace⟩, ht, hu⟩
    exact ⟨hway.mpr ⟨hfree, ht⟩, hspot.mpr ⟨hplace, hu⟩⟩

theorem canWrite_cons_iff (h : Written d t bytes new) (hfits : Fits d t) (hself : ¬ Blocks d t t) :
    CanWrite d (t :: ts) ↔ CanWrite new ts := by
  have hblocks : ∀ u v, Blocks new u v ↔ Blocks d u v := fun u v => by
    rw [Blocks, Blocks, spot_of_here h.here, trail_of_here h.here]
  constructor
  · rintro ⟨hall, hapart⟩
    refine ⟨fun u hu => (h.fits_iff hfits hself u).mpr ⟨hall u (.tail t hu), ?_, ?_⟩,
      fun u hu v hv => ?_⟩
    · exact hapart t (.head ts) u (.tail t hu)
    · exact hapart u (.tail t hu) t (.head ts)
    · rw [hblocks]
      exact hapart u (.tail t hu) v (.tail t hv)
  · rintro ⟨hall, hapart⟩
    have hrest : ∀ u ∈ ts, Fits d u ∧ ¬ Blocks d t u ∧ ¬ Blocks d u t := fun u hu =>
      (h.fits_iff hfits hself u).mp (hall u hu)
    constructor
    · rintro u (_ | ⟨_, hu⟩)
      · exact hfits
      · exact (hrest u hu).1
    · rintro u (_ | ⟨_, hu⟩) v (_ | ⟨_, hv⟩)
      · exact hself
      · exact (hrest v hv).2.1
      · exact (hrest u hu).2.2
      · exact fun hb => hapart u hu v hv ((hblocks u v).mpr hb)

theorem writeAll_cons_ok (h : writePage t html d = (.ok (), new)) :
    writeAll ((t, html) :: jobs) d = writeAll jobs new := by
  simp only [writeAll, h]

theorem writeAll_of_canWrite (jobs : List (Path × Text))
    (husable : ∀ t ∈ jobs.map Prod.fst, IsUsablePath t) (h : CanWrite d (jobs.map Prod.fst)) :
    ∃ new, writeAll jobs d = (.ok (), new) := by
  induction jobs generalizing d with
  | nil => exact ⟨d, rfl⟩
  | cons job jobs ih =>
    obtain ⟨t, html⟩ := job
    have hfits := h.fits t (.head _)
    have hself := h.apart t (.head _) t (.head _)
    obtain ⟨new, hwrite, hwritten⟩ := writePage_of_fits (husable t (.head _)) hfits hself html
    rw [writeAll_cons_ok hwrite]
    exact ih (fun u hu => husable u (.tail t hu)) ((canWrite_cons_iff hwritten hfits hself).mp h)

/-! ### Pages that were not written -/

/-- A page with a path that is too long is not written. -/
theorem writePage_of_isLongPath (hparts : ∀ part ∈ t.components, IsUsable part)
    (hlong : isLongPath t) (html : Text) :
    ∃ f new, writePage t html d = (.error f, new) ∧
      (f.cause.IsClash ∨ f.cause = .nameTooLong) := by
  have hparent : ∀ part ∈ t.parent.components, IsUsable part := fun part hpart =>
    hparts part (List.mem_of_mem_dropLast hpart)
  by_cases hlong' : isLongPath t.parent
  · have hmake := makeDirectories_of_isLongPath (d := d) hparent hlong'
    exact ⟨⟨.nameTooLong, t.parent⟩, d, by simp only [writePage, hmake], .inr rfl⟩
  · have husable : IsUsablePath t.parent := ⟨hparent, eq_false_of_ne_true hlong'⟩
    by_cases hway : ∃ q ∈ d.trail t.parent, d.HasFile q
    · obtain ⟨f, new, hmake, hclash⟩ := makeDirectories_of_file husable hway
      exact ⟨f, new, by simp only [writePage, hmake], .inl hclash⟩
    · push Not at hway
      obtain ⟨way, hmake, -⟩ := makeDirectories_of_free husable hway
      have hlocate := locate_of_isLongPath (d := way) hparts hlong
      exact ⟨⟨.nameTooLong, t⟩, way, by simp only [writePage, hmake, write, hlocate], .inr rfl⟩

/-- **A page is not written** because of a clash, or because its path is too long. -/
theorem cause_of_writePage {f : Disk.Fault} (hparts : ∀ part ∈ t.components, IsUsable part)
    (h : writePage t html d = (.error f, new)) :
    f.cause.IsClash ∨ f.cause = .nameTooLong ∧ isLongPath t := by
  by_cases hlong : isLongPath t
  · obtain ⟨f', new', hwrite, hcause⟩ := writePage_of_isLongPath hparts hlong html
    rw [h] at hwrite
    cases hwrite
    exact hcause.imp_right fun hcause => ⟨hcause, hlong⟩
  · have husable : IsUsablePath t := ⟨hparts, eq_false_of_ne_true hlong⟩
    by_cases hfits : Fits d t ∧ ¬ Blocks d t t
    · obtain ⟨new', hwrite, -⟩ := writePage_of_fits husable hfits.1 hfits.2 html
      cases h.symm.trans hwrite
    · obtain ⟨f', new', hwrite, hclash⟩ := writePage_of_not husable hfits html
      cases h.symm.trans hwrite
      exact .inl hclash

theorem cause_of_writeAll {f : Disk.Fault}
    (hparts : ∀ job ∈ jobs, ∀ part ∈ job.1.components, IsUsable part)
    (h : writeAll jobs d = (.error f, new)) :
    f.cause.IsClash ∨ f.cause = .nameTooLong ∧ ∃ job ∈ jobs, isLongPath job.1 := by
  induction jobs generalizing d with
  | nil => cases h
  | cons job jobs ih =>
    obtain ⟨t, html⟩ := job
    obtain ⟨ht, hrest⟩ := List.forall_mem_cons.mp hparts
    rcases hwrite : writePage t html d with ⟨g | ⟨⟩, way⟩
    · simp only [writeAll, hwrite] at h
      cases h
      exact (cause_of_writePage ht hwrite).imp_right fun ⟨hcause, hlong⟩ =>
        ⟨hcause, (t, html), List.mem_cons_self, hlong⟩
    · rw [writeAll_cons_ok hwrite] at h
      exact (ih hrest h).imp_right fun ⟨hcause, job, hjob, hlong⟩ =>
        ⟨hcause, job, List.mem_cons_of_mem _ hjob, hlong⟩

/-! ### Pages that were written -/

/-- The second disk is the first with the files of the jobs, and the directories on the ways to
them. -/
structure Wrote (d : Disk) (jobs : List (Path × Text)) (new : Disk) : Prop where
  here : new.here = d.here
  file_iff : ∀ q bytes, new.entry? q = some (.file bytes) ↔
    (∃ job ∈ jobs, d.spot job.1 = q ∧ Utf8.encode job.2 = bytes) ∨
      (∀ job ∈ jobs, d.spot job.1 ≠ q) ∧ d.entry? q = some (.file bytes)
  directory_iff : ∀ q, new.entry? q = some .directory ↔
    (∃ job ∈ jobs, q ∈ d.trail job.1.parent) ∨ d.entry? q = some .directory

theorem Written.file_iff (h : Written d t bytes new) (hfits : Fits d t) {bytes' : List UInt8} :
    new.entry? q = some (.file bytes') ↔
      d.spot t = q ∧ bytes = bytes' ∨ d.spot t ≠ q ∧ d.entry? q = some (.file bytes') := by
  rw [h.entry]
  by_cases hq : q = d.spot t
  · simp [hq]
  · rw [if_neg hq]
    by_cases hway : q ∈ d.trail t.parent
    · have hfree : d.entry? q ≠ some (.file bytes') := fun hfile => hfits.way q hway ⟨bytes', hfile⟩
      simp [hway, Ne.symm hq, hfree]
    · simp [hway, Ne.symm hq]

/-- A page that was written has a path that a disk can follow. -/
theorem isUsablePath_of_writePage (h : writePage t html d = (.ok (), new)) : IsUsablePath t := by
  rw [writePage] at h
  rcases hmake : d.makeDirectories t.parent with ⟨f | ⟨⟩, way⟩
  · simp [hmake] at h
  · cases hlocate : way.locate t with
    | ok place => exact (locate_eq_ok hlocate).2.2
    | error cause => simp [hmake, write, hlocate] at h

/-- A page that was written had room. -/
theorem written_of_writePage (h : writePage t html d = (.ok (), new)) :
    Fits d t ∧ ¬ Blocks d t t ∧ Written d t (Utf8.encode html) new := by
  have husable := isUsablePath_of_writePage h
  by_cases hfits : Fits d t ∧ ¬ Blocks d t t
  · obtain ⟨new', hwrite, hwritten⟩ := writePage_of_fits husable hfits.1 hfits.2 html
    rw [hwrite] at h
    cases h
    exact ⟨hfits.1, hfits.2, hwritten⟩
  · obtain ⟨f, new', hwrite, -⟩ := writePage_of_not husable hfits html
    rw [hwrite] at h
    cases h

/-- If all pages were written, all of them had room. -/
theorem canWrite_of_writeAll (h : writeAll jobs d = (.ok (), new)) :
    CanWrite d (jobs.map Prod.fst) ∧ ∀ job ∈ jobs, IsUsablePath job.1 := by
  induction jobs generalizing d with
  | nil => exact ⟨⟨by simp, by simp⟩, by simp⟩
  | cons job jobs ih =>
    obtain ⟨t, html⟩ := job
    rcases hwrite : writePage t html d with ⟨f | ⟨⟩, way⟩
    · simp [writeAll, hwrite] at h
    · rw [writeAll_cons_ok hwrite] at h
      obtain ⟨hfits, hself, hwritten⟩ := written_of_writePage hwrite
      obtain ⟨hcan, husable⟩ := ih h
      exact ⟨(canWrite_cons_iff hwritten hfits hself).mpr hcan,
        List.forall_mem_cons.mpr ⟨isUsablePath_of_writePage hwrite, husable⟩⟩

/-- If all pages were written, and no two of them to one place, each is where it was written to. -/
theorem writeAll_eq_ok (hdistinct : (jobs.map fun job => d.spot job.1).Nodup)
    (h : writeAll jobs d = (.ok (), new)) : Wrote d jobs new := by
  induction jobs generalizing d with
  | nil =>
    cases h
    exact ⟨rfl, by simp, by simp⟩
  | cons job jobs ih =>
    obtain ⟨t, html⟩ := job
    rcases hwrite : writePage t html d with ⟨f | ⟨⟩, way⟩
    · simp [writeAll, hwrite] at h
    · rw [writeAll_cons_ok hwrite] at h
      obtain ⟨hfits, hself, hwritten⟩ := written_of_writePage hwrite
      have hspot : way.spot = d.spot := funext (spot_of_here hwritten.here)
      have htrail : way.trail = d.trail := funext (trail_of_here hwritten.here)
      obtain ⟨hnew, hdistinct⟩ := List.nodup_cons.mp hdistinct
      have hwrote := ih (hspot ▸ hdistinct) h
      refine ⟨hwrote.here.trans hwritten.here, fun q bytes => ?_, fun q => ?_⟩
      · rw [hwrote.file_iff, hwritten.file_iff hfits, hspot]
        simp only [List.mem_cons, exists_eq_or_imp, forall_eq_or_imp]
        by_cases hq : d.spot t = q
        · -- No later file is at the place of this one.
          have hothers : ∀ job ∈ jobs, d.spot job.1 ≠ q := fun job hjob heq =>
            hnew (List.mem_map.mpr ⟨job, hjob, heq.trans hq.symm⟩)
          have hnone : ¬ ∃ job ∈ jobs, d.spot job.1 = q ∧ Utf8.encode job.2 = bytes := by
            rintro ⟨job, hjob, heq, -⟩
            exact hothers job hjob heq
          simp only [hnone, hq, ne_eq, not_true_eq_false, true_and, false_and, or_false, false_or,
            and_iff_right_iff_imp]
          exact fun _ => hothers
        · simp [hq]
      · rw [hwrote.directory_iff, hwritten.directory_iff hfits hself, htrail]
        simp [or_left_comm, or_assoc]

end Pageloom.Site
