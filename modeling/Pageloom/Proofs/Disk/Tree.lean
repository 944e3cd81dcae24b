import Pageloom.Proofs.Disk.Trail
import Pageloom.Proofs.Path.Parts

/-!
# Disks that are trees

What holds of every disk there can be, though not of every list of entries: the components of its
places are names, whatever stands somewhere stands in a directory, and no two entries are at one
place.

## Main definitions

* `Disk.IsName`: a name that something on a disk can have.
* `Disk.IsTree`: the disk is a tree of directories and files.

## Main results

* `Disk.IsTree.directory_of_below`: what stands below a place stands in directories.
* `Disk.IsTree.locate_below`: what stands below a path can be reached from there.
* `Disk.mem_under_iff`: what is below the directory that a path leads to.
-/

namespace Pageloom.Disk

variable {d : Disk} {p q : Path} {place : Place}

/-- A name on a disk. It spells one component of a path, and leads neither nowhere nor up. -/
structure IsName (part : Text) : Prop extends IsUsable part where
  ne_nil : part ≠ []
  ne_dot : part ≠ ".".toList
  ne_up : part ≠ "..".toList
  no_slash : '/' ∉ part

instance (part : Text) : Decidable (IsName part) :=
  decidable_of_iff
    (IsUsable part ∧ part ≠ [] ∧ part ≠ ".".toList ∧ part ≠ "..".toList ∧ '/' ∉ part)
    ⟨fun ⟨h, h₁, h₂, h₃, h₄⟩ => ⟨h, h₁, h₂, h₃, h₄⟩,
      fun h => ⟨h.toIsUsable, h.ne_nil, h.ne_dot, h.ne_up, h.no_slash⟩⟩

/-- The places at which something stands. -/
def places (d : Disk) : List Place := d.entries.map Prod.fst

/-- The disk is a tree: its entries have names and stand in directories, and no two of them are at
one place. -/
structure IsTree (d : Disk) : Prop where
  names : ∀ place ∈ d.places, ∀ part ∈ place, IsName part
  above : ∀ place ∈ d.places, d.entry? place.dropLast = some .directory
  distinct : d.places.Nodup

instance (d : Disk) : Decidable d.IsTree :=
  decidable_of_iff
    ((∀ place ∈ d.places, ∀ part ∈ place, IsName part) ∧
      (∀ place ∈ d.places, d.entry? place.dropLast = some .directory) ∧ d.places.Nodup)
    ⟨fun ⟨h₁, h₂, h₃⟩ => ⟨h₁, h₂, h₃⟩, fun h => ⟨h.names, h.above, h.distinct⟩⟩

theorem mem_entries_of_entry {e : Entry} (h : d.entry? place = some e) (hne : place ≠ []) :
    (place, e) ∈ d.entries := by
  unfold entry? at h
  rw [if_neg hne] at h
  obtain ⟨before, behind, hentries, -⟩ := List.lookup_eq_some_iff.mp h
  rw [hentries]
  simp

theorem mem_places_of_entry {e : Entry} (h : d.entry? place = some e) (hne : place ≠ []) :
    place ∈ d.places :=
  List.mem_map_of_mem (f := Prod.fst) (mem_entries_of_entry h hne)

/-- The directory above a directory is one. -/
theorem IsTree.directory_above (hd : d.IsTree) {e : Entry} (h : d.entry? place = some e) :
    d.entry? place.dropLast = some .directory := by
  by_cases hne : place = []
  · subst hne
    rfl
  · exact hd.above place (mem_places_of_entry h hne)

/-- On a tree, what the entries say of a place is what stands there. -/
theorem IsTree.entry?_eq_of_mem (hd : d.IsTree) {e : Entry} (h : (place, e) ∈ d.entries)
    (hne : place ≠ []) : d.entry? place = some e := by
  unfold entry?
  rw [if_neg hne]
  obtain ⟨before, behind, hentries⟩ := List.append_of_mem h
  refine List.lookup_eq_some_iff.mpr ⟨before, behind, hentries, fun entry hentry => ?_⟩
  have hdistinct := hd.distinct
  rw [places, hentries, List.map_append, List.map_cons] at hdistinct
  have hapart := (List.nodup_append.mp hdistinct).2.2 entry.1 (List.mem_map_of_mem hentry) place
    List.mem_cons_self
  simpa using Ne.symm hapart

theorem exists_entry_of_mem_places (h : place ∈ d.places) : ∃ e, d.entry? place = some e := by
  by_cases hne : place = []
  · exact ⟨.directory, if_pos hne⟩
  · obtain ⟨entry, hentry, rfl⟩ := List.mem_map.mp h
    unfold entry?
    rw [if_neg hne, ← Option.isSome_iff_exists, List.lookup_isSome_iff]
    exact ⟨entry, hentry, beq_self_eq_true _⟩

/-- What stands below a place stands in directories, from that place on. -/
theorem IsTree.directory_of_below (hd : d.IsTree) {rest : List Text} (hne : rest ≠ []) {e : Entry}
    (h : d.entry? (place ++ rest) = some e) : d.entry? place = some .directory := by
  induction rest using List.reverseRecOn generalizing e with
  | nil => exact absurd rfl hne
  | append_singleton rest part ih =>
    have habove := hd.directory_above h
    rw [← List.append_assoc, List.dropLast_concat] at habove
    by_cases hrest : rest = []
    · rwa [hrest, List.append_nil] at habove
    · exact ih hrest habove

/-- What stands below a place is named. -/
theorem IsTree.isName_of_below (hd : d.IsTree) {rest : List Text} {e : Entry}
    (h : d.entry? (place ++ rest) = some e) : ∀ part ∈ rest, IsName part := fun part hpart => by
  have hne := List.append_ne_nil_of_right_ne_nil place (List.ne_nil_of_mem hpart)
  exact hd.names _ (mem_places_of_entry h hne) part (List.mem_append_right place hpart)

/-- The names of what stands below a place can be followed from there. -/
theorem IsTree.walk_below (hd : d.IsTree) {rest : List Text} {e : Entry}
    (h : d.entry? (place ++ rest) = some e) : d.walk place rest = .ok (place ++ rest) := by
  induction rest generalizing place with
  | nil => rw [walk, List.append_nil]
  | cons part rest ih =>
    have hpart := hd.isName_of_below h part List.mem_cons_self
    have hdirectory := hd.directory_of_below (List.cons_ne_nil part rest) h
    rw [walk_cons_of_directory hdirectory hpart.short, Place.step_of_ne hpart.ne_up,
      List.append_cons place part rest]
    rw [List.append_cons] at h
    exact ih h

/-- So can a path with these names behind it, if it is not too long. -/
theorem IsTree.locate_below (hd : d.IsTree) {rest : List Text} {e : Entry}
    (hlocate : d.locate p = .ok place) (h : d.entry? (place ++ rest) = some e)
    (hshort : isLongPath (p.below rest) = false) :
    d.locate (p.below rest) = .ok (place ++ rest) := by
  have husable := (locate_eq_ok hlocate).2.2
  have hbelow : IsUsablePath (p.below rest) := ⟨fun part hpart =>
    (List.mem_append.mp hpart).elim (husable.parts part) fun hpart =>
      (hd.isName_of_below h part hpart).toIsUsable, hshort⟩
  rw [locate_eq_walk husable] at hlocate
  rw [locate_eq_walk hbelow, Path.below, walk_append, hlocate, Except.bind,
    hd.walk_below h]

/-- What stands below a path is at the end of the path with the names behind it. -/
theorem IsTree.spot_below (hd : d.IsTree) {rest : List Text} {e : Entry}
    (hlocate : d.locate p = .ok place) (h : d.entry? (place ++ rest) = some e) :
    d.spot (p.below rest) = place ++ rest := by
  have hup : "..".toList ∉ rest := fun hmem => (hd.isName_of_below h _ hmem).ne_up rfl
  rw [spot, Path.below, Place.follow_append, Place.follow_of_names hup, (locate_eq_ok hlocate).1]
  rfl

/-- What is below the directory that a path leads to has names behind the path. -/
theorem mem_under_iff {e : Entry} :
    (q, e) ∈ d.under p ↔ ∃ place rest, d.locate p = .ok place ∧ d.entry? place = some .directory ∧
      rest ≠ [] ∧ (place ++ rest, e) ∈ d.entries ∧ q = p.below rest := by
  cases hlocate : d.locate p with
  | error cause => simp [under, hlocate]
  | ok place =>
    cases hplace : d.entry? place with
    | none => simp [under, hlocate, hplace]
    | some here =>
      cases here with
      | file bytes => simp [under, hlocate, hplace]
      | directory =>
        simp only [under, hlocate, hplace, List.mem_filterMap]
        constructor
        · rintro ⟨⟨r, e⟩, hmem, hbelow⟩
          split at hbelow
          · rename_i part rest hdrop
            obtain rfl := Path.dropComponents?_eq_some_iff.mp hdrop
            cases hbelow
            exact ⟨place, part :: rest, rfl, hplace, List.cons_ne_nil _ _, hmem, rfl⟩
          · cases hbelow
        · rintro ⟨place', rest, hplace', -, hne, hmem, rfl⟩
          cases hplace'
          obtain ⟨part, rest, rfl⟩ := List.exists_cons_of_ne_nil hne
          refine ⟨(place ++ part :: rest, e), hmem, ?_⟩
          simp only [Path.dropComponents?_eq_some_iff.mpr rfl]
          rfl

end Pageloom.Disk
