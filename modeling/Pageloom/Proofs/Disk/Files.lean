import Pageloom.Proofs.Disk.Directories
import Pageloom.Proofs.Disk.Removal
import Pageloom.Proofs.Disk.Tree

/-!
# What becomes of the files

What an operation leaves of the files on a disk, whether it succeeds or is refused half way. Making
directories leaves all of them, writing a file all but the one that it is about, and removing a
directory takes those below it and no others.

So nothing is said of directories here, nor of when an operation succeeds. That is what makes these
facts compose: a run of operations that breaks off somewhere has still left the files alone that
none of them is about.

## Main definitions

* `Disk.SameFiles`: two disks have the same files, but for some places.
* `Disk.Covers`: a path leads to a directory above a place.

## Main results

* `Disk.sameFiles_makeDirectories`: making directories leaves all files.
* `Disk.file_removeTree_iff`: the files after a removal.
-/

namespace Pageloom.Disk

open Place

variable {d new new' : Disk} {p : Path} {place q : Place} {apart apart' : Place → Prop}
  {bytes : List UInt8}

/-- The second disk has the files of the first, with the same bytes, whatever there may be at the
places that are set apart. -/
structure SameFiles (d : Disk) (apart : Place → Prop) (new : Disk) : Prop where
  here : new.here = d.here
  file_iff : ∀ q bytes, ¬ apart q →
    (new.entry? q = some (.file bytes) ↔ d.entry? q = some (.file bytes))

theorem SameFiles.refl (d : Disk) (apart : Place → Prop) : d.SameFiles apart d :=
  ⟨rfl, fun _ _ _ => Iff.rfl⟩

theorem SameFiles.trans (h : d.SameFiles apart new) (h' : new.SameFiles apart new') :
    d.SameFiles apart new' :=
  ⟨h'.here.trans h.here, fun q bytes hq => (h'.file_iff q bytes hq).trans (h.file_iff q bytes hq)⟩

theorem SameFiles.mono (h : d.SameFiles apart new) (hle : ∀ q, apart q → apart' q) :
    d.SameFiles apart' new :=
  ⟨h.here, fun q bytes hq => h.file_iff q bytes fun happart => hq (hle q happart)⟩

/-! ### Making directories -/

theorem opens_of_ensureDirectory (h : d.ensureDirectory p = .ok new) :
    ∃ place, d.Opens [place] new ∧ ¬ d.HasFile place := by
  cases hlocate : d.locate p with
  | error cause =>
    rw [ensureDirectory_of_error hlocate] at h
    cases h
  | ok place =>
    by_cases hfile : d.HasFile place
    · rw [ensureDirectory_of_file hlocate hfile] at h
      cases h
    · obtain ⟨new', hensure, hopens⟩ := ensureDirectory_of_free hlocate hfile
      rw [hensure] at h
      cases h
      exact ⟨place, hopens, hfile⟩

theorem sameFiles_ensureDirectory (h : d.ensureDirectory p = .ok new) :
    d.SameFiles (fun _ => False) new := by
  obtain ⟨place, hopens, hfree⟩ := opens_of_ensureDirectory h
  refine ⟨hopens.here, fun q bytes _ => hopens.file_iff fun r hr => ?_⟩
  rwa [List.mem_singleton.mp hr]

theorem sameFiles_makeDirectoriesFrom (slashes : Nat) (reversed : List Text) (d : Disk) :
    d.SameFiles (fun _ => False) (makeDirectoriesFrom slashes reversed d).2 := by
  induction reversed with
  | nil =>
    rw [makeDirectoriesFrom]
    split
    · next hensure => exact sameFiles_ensureDirectory hensure
    · exact .refl d _
  | cons part above ih =>
    rw [makeDirectoriesFrom]
    split
    · next hensure => exact sameFiles_ensureDirectory hensure
    · split
      · rcases hmake : makeDirectoriesFrom slashes above d with ⟨fault | ⟨⟩, way⟩ <;>
          rw [hmake] at ih
        · exact ih
        · dsimp only
          split
          · next hensure => exact ih.trans (sameFiles_ensureDirectory hensure)
          · exact ih
      · exact .refl d _

/-- **Making directories leaves all files**, also if it fails on the way. -/
theorem sameFiles_makeDirectories (d : Disk) (p : Path) :
    d.SameFiles (fun _ => False) (d.makeDirectories p).2 :=
  sameFiles_makeDirectoriesFrom _ _ d

/-! ### Writing files -/

theorem holds_of_write (h : d.write p bytes = .ok new) : d.Holds (d.spot p) bytes new := by
  cases hlocate : d.locate p with
  | error cause => simp [write, hlocate] at h
  | ok place =>
    obtain rfl := (locate_eq_ok hlocate).1
    by_cases hdirectory : d.entry? (d.spot p) = some .directory
    · rw [write_of_directory hlocate hdirectory] at h
      cases h
    · obtain ⟨new', hwrite, hholds⟩ := write_of_free hlocate hdirectory bytes
      rw [hwrite] at h
      cases h
      exact hholds

theorem sameFiles_write (h : d.write p bytes = .ok new) : d.SameFiles (d.spot p = ·) new := by
  have hholds := holds_of_write h
  refine ⟨hholds.here, fun q bytes hq => ?_⟩
  rw [hholds.entry, if_neg (Ne.symm hq)]

/-! ### Removing directories -/

/-- The path leads to a place above another one. -/
def Covers (d : Disk) (p : Path) (q : Place) : Prop :=
  ∃ place rest, d.locate p = .ok place ∧ rest ≠ [] ∧ q = place ++ rest

theorem covers_iff_of_locate (h : d.locate p = .ok place) : d.Covers p q ↔ isBelow place q := by
  rw [isBelow_iff, Covers]
  constructor
  · rintro ⟨place', rest, hplace, hrest⟩
    cases h.symm.trans hplace
    exact ⟨rest, hrest⟩
  · rintro ⟨rest, hrest⟩
    exact ⟨place, rest, h, hrest⟩

/-- On a tree, a file can only be covered by a path to a directory. -/
theorem not_covers_of_not_directory (hd : d.IsTree) (hlocate : d.locate p = .ok place)
    (hplace : d.entry? place ≠ some .directory) (hfile : d.HasFile q) : ¬ d.Covers p q := by
  rintro ⟨place', rest, hplace', hne, rfl⟩
  cases hlocate.symm.trans hplace'
  obtain ⟨bytes, hfile⟩ := hfile
  exact hplace (hd.directory_of_below hne hfile)

theorem file_clear_iff (base q : Place) (bytes : List UInt8) :
    entry? (d.clear base) q = some (.file bytes) ↔
      d.entry? q = some (.file bytes) ∧ ¬ isBelow base q := by
  rw [entry?_clear]
  cases isBelow base q <;> simp

theorem file_drop_iff (hplace : d.entry? place = some .directory) (q : Place)
    (bytes : List UInt8) :
    entry? (d.drop place) q = some (.file bytes) ↔ d.entry? q = some (.file bytes) := by
  by_cases hroot : place = []
  · -- No entry is at the root, so there is nothing to drop.
    by_cases hq : q = []
    · subst hq
      exact Iff.rfl
    · have hne : q ≠ place := fun h => hq (h.trans hroot)
      rw [drop, entry?_filter (fun r => decide (r ≠ place)) hq, if_pos (by simpa using hne)]
  · rw [entry?_drop hroot]
    by_cases hq : q = place
    · rw [if_pos hq, hq, hplace]
      simp
    · rw [if_neg hq]

/-- What a removal can come to: nothing, if the path leads to no directory, or the directory is
empty, or it is gone. -/
theorem removeTree_snd_cases (d : Disk) (p : Path) :
    ((d.removeTree p).2 = d ∧
        ∀ place, d.locate p = .ok place → d.entry? place ≠ some .directory) ∨
      ∃ place, d.locate p = .ok place ∧ d.entry? place = some .directory ∧
        ((d.removeTree p).2 = d.clear place ∨ (d.removeTree p).2 = (d.clear place).drop place) := by
  cases hlocate : d.locate p with
  | error cause => exact Or.inl ⟨by simp only [removeTree, hlocate], fun _ h => nomatch h⟩
  | ok place =>
    by_cases hplace : d.entry? place = some .directory
    · refine Or.inr ⟨place, rfl, hplace, ?_⟩
      simp only [removeTree, hlocate, hplace]
      cases (d.clear place).locate p with
      | error cause => exact Or.inl rfl
      | ok _ =>
        cases p.components.getLast? with
        | none => exact Or.inl rfl
        | some part =>
          dsimp only
          split
          · exact Or.inl rfl
          · exact Or.inr rfl
    · refine Or.inl ⟨?_, fun _ h => Except.ok.inj h ▸ hplace⟩
      cases hentry : d.entry? place with
      | none => simp only [removeTree, hlocate, hentry]
      | some e =>
        cases e with
        | directory => exact absurd hentry hplace
        | file bytes => simp only [removeTree, hlocate, hentry]

/-- **The files after a removal**, also if it fails in the end: all but those below the directory
that the path leads to. -/
theorem file_removeTree_iff (hd : d.IsTree) (p : Path) (q : Place) (bytes : List UInt8) :
    entry? (d.removeTree p).2 q = some (.file bytes) ↔
      d.entry? q = some (.file bytes) ∧ ¬ d.Covers p q := by
  rcases removeTree_snd_cases d p with ⟨hsame, hnone⟩ | ⟨place, hlocate, hplace, hremoved⟩
  · rw [hsame]
    refine ⟨fun hfile => ⟨hfile, ?_⟩, And.left⟩
    rintro ⟨place, rest, hlocate, hrest⟩
    exact not_covers_of_not_directory hd hlocate (hnone place hlocate) ⟨bytes, hfile⟩
      ⟨place, rest, hlocate, hrest⟩
  · rw [covers_iff_of_locate hlocate, ← file_clear_iff]
    rcases hremoved with hremoved | hremoved <;> rw [hremoved]
    refine file_drop_iff ?_ q bytes
    rw [entry?_clear, if_neg (by simp [isBelow_iff]), hplace]

theorem here_removeTree (d : Disk) (p : Path) : (d.removeTree p).2.here = d.here := by
  rcases removeTree_snd_cases d p with ⟨h, -⟩ | ⟨place, -, -, h | h⟩ <;> rw [h] <;> rfl

end Pageloom.Disk
