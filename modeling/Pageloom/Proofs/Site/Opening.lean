import Pageloom.Proofs.Disk.Directories
import Pageloom.Proofs.Disk.Removal
import Pageloom.Proofs.Disk.Tree
import Pageloom.Site.Build

/-!
# Opening the output directory

An output directory that is to be cleaned is there afterwards, and of the files on the disk only
those below it are gone. None is made.

That they are gone needs a path that can be followed. If a directory on the way is missing, nothing
is found at the end and nothing is removed. Making the directories on the way may then lead to a
directory that has been there all along: `a/../output` leads to `output` once there is an `a`. This
is the one way in which files can stay.

## Main definitions

* `Site.Opened`: a disk is another one with an output directory that is open for a build.

## Main results

* `Site.openOutput_eq_ok`: what is known once an output directory was cleaned.
-/

namespace Pageloom.Site

open Disk

variable {d cleared new : Disk} {output : Path} {place : Place}

/-- The output directory of the second disk is at a place. It has the files of the first disk, but
those below the place only if the path of the output directory could not be followed there. -/
structure Opened (d : Disk) (output : Path) (place : Place) (new : Disk) : Prop where
  here : new.here = d.here
  usable : IsUsablePath output
  locate : new.locate output = .ok place
  directory : new.entry? place = some .directory
  file_iff : ∀ q bytes, new.entry? q = some (.file bytes) ↔
    d.entry? q = some (.file bytes) ∧ (place <+: q → d.locate output = .error .notFound)

theorem spot_mem_trail (d : Disk) (p : Path) : d.spot p ∈ d.trail p := Place.follow_mem_trail _ _

theorem exists_status_of_not_exists (h : d.exists? output = .ok false) :
    ∃ cause, d.status output = .error cause := by
  cases hstatus : d.status output with
  | ok e => simp [exists?, hstatus] at h
  | error cause => exact ⟨cause, rfl⟩

theorem entry?_eq_none_of_status {cause : Cause} (hlocate : d.locate output = .ok (d.spot output))
    (hstatus : d.status output = .error cause) : d.entry? (d.spot output) = none := by
  cases hentry : d.entry? (d.spot output) with
  | none => rfl
  | some e => simp [status, hlocate, hentry] at hstatus

/-- Nothing was found where the output directory should be. -/
theorem opened_of_status (hd : d.IsTree) {cause : Cause} (hstatus : d.status output = .error cause)
    (h : d.makeDirectories output = (.ok (), new)) : Opened d output (d.spot output) new := by
  obtain ⟨husable, hfree, hopens⟩ := makeDirectories_eq_ok h
  refine ⟨hopens.here, husable, hopens.locate husable, hopens.directory (spot_mem_trail d output),
    fun q bytes => ?_⟩
  rw [hopens.file_iff hfree]
  refine ⟨fun hfile => ⟨hfile, ?_⟩, And.left⟩
  rintro ⟨rest, rfl⟩
  cases hlocate : d.locate output with
  | error cause => rw [cause_eq_notFound husable hfree hlocate]
  | ok place =>
    obtain rfl := (locate_eq_ok hlocate).1
    -- The place is free, and so is everything below it.
    have hnone := entry?_eq_none_of_status hlocate hstatus
    by_cases hne : rest = []
    · rw [hne, List.append_nil, hnone] at hfile
      cases hfile
    · rw [hd.directory_of_below hne hfile] at hnone
      cases hnone

/-- The output directory was there and is removed first. -/
theorem opened_of_removeTree (hremove : d.removeTree output = (.ok (), cleared))
    (h : cleared.makeDirectories output = (.ok (), new)) :
    Opened d output (d.spot output) new := by
  obtain ⟨hlocate, hremoves, -⟩ := removeTree_eq_ok hremove
  obtain ⟨husable, hfree, hopens⟩ := makeDirectories_eq_ok h
  rw [← spot_of_here hremoves.here] at hremoves hlocate ⊢
  refine ⟨hopens.here.trans hremoves.here, husable, hopens.locate husable,
    hopens.directory (spot_mem_trail cleared output), fun q bytes => ?_⟩
  rw [hopens.file_iff hfree]
  by_cases hq : cleared.spot output <+: q
  · rw [hremoves.gone q hq, hlocate]
    simp [hq]
  · rw [hremoves.others q hq]
    simp [hq]

/-- The two ways in which an output directory is cleaned. -/
theorem openOutput_true_cases (h : openOutput true output d = (.ok (), new)) :
    (∃ cause, d.status output = .error cause ∧ d.makeDirectories output = (.ok (), new)) ∨
      ∃ cleared, d.removeTree output = (.ok (), cleared) ∧
        cleared.makeDirectories output = (.ok (), new) := by
  rw [openOutput, if_pos rfl] at h
  cases hexists : d.exists? output with
  | error f => simp [hexists] at h
  | ok found =>
    cases found with
    | false =>
      obtain ⟨cause, hstatus⟩ := exists_status_of_not_exists hexists
      simp only [hexists] at h
      exact .inl ⟨cause, hstatus, h⟩
    | true =>
      rcases hremove : d.removeTree output with ⟨f | ⟨⟩, cleared⟩
      · simp [hexists, hremove] at h
      · simp only [hexists, hremove] at h
        exact .inr ⟨cleared, rfl, h⟩

/-- **Cleaning the output directory** removes the files below it, or finds no way to it. -/
theorem openOutput_eq_ok (hd : d.IsTree) (h : openOutput true output d = (.ok (), new)) :
    Opened d output (d.spot output) new := by
  rcases openOutput_true_cases h with ⟨cause, hstatus, hmake⟩ | ⟨cleared, hremove, hmake⟩
  · exact opened_of_status hd hstatus hmake
  · exact opened_of_removeTree hremove hmake

end Pageloom.Site
