import Pageloom.Proofs.Disk.Trail
import Pageloom.Proofs.Path.Parts

/-!
# Removing directories

A directory is removed with everything below it, and with nothing else. A removal that succeeds was
about a directory other than the root, since a path that ends with a name leads below something.

## Main definitions

* `Disk.Removes`: a disk is another one without what is at a place and below it.

## Main results

* `Disk.removeTree_eq_ok`: what is known once a directory was removed.
-/

namespace Pageloom.Disk

open Place

variable {d new : Disk} {place base q : Place} {p : Path}

/-- The second disk is the first without what stands at the place and below it. -/
structure Removes (d : Disk) (place : Place) (new : Disk) : Prop where
  here : new.here = d.here
  gone : ∀ q, place <+: q → new.entry? q = none
  others : ∀ q, ¬ place <+: q → new.entry? q = d.entry? q

theorem isBelow_iff : isBelow base place ↔ ∃ rest, rest ≠ [] ∧ place = base ++ rest := by
  rw [isBelow]
  constructor
  · intro h
    split at h
    · next part rest hdrop =>
      exact ⟨part :: rest, List.cons_ne_nil part rest, Path.dropComponents?_eq_some_iff.mp hdrop⟩
    · cases h
  · rintro ⟨rest, hne, hplace⟩
    obtain ⟨part, rest, rfl⟩ := List.exists_cons_of_ne_nil hne
    rw [Path.dropComponents?_eq_some_iff.mpr hplace]

theorem isBelow_iff_isPrefix : isBelow base q ↔ base <+: q ∧ q ≠ base := by
  rw [isBelow_iff]
  constructor
  · rintro ⟨rest, hne, rfl⟩
    exact ⟨List.prefix_append base rest, by simpa using hne⟩
  · rintro ⟨⟨rest, rfl⟩, hne⟩
    exact ⟨rest, by simpa using hne, rfl⟩

theorem lookup_filter (keep : Place → Bool) (entries : List (Place × Entry)) (q : Place) :
    (entries.filter fun (r, _) => keep r).lookup q = if keep q then entries.lookup q else none := by
  induction entries with
  | nil => simp
  | cons entry rest ih =>
    obtain ⟨r, e⟩ := entry
    by_cases hq : q = r
    · subst hq
      by_cases hkeep : keep q <;> simp [hkeep, ih]
    · by_cases hkeep : keep r <;> simp [List.lookup_cons, hkeep, beq_false_of_ne hq, ih]

theorem entry?_filter (keep : Place → Bool) (hne : q ≠ []) :
    entry? { d with entries := d.entries.filter fun (r, _) => keep r } q =
      if keep q then d.entry? q else none := by
  unfold entry?
  rw [if_neg hne, if_neg hne]
  exact lookup_filter keep d.entries q

theorem entry?_clear (d : Disk) (base q : Place) :
    entry? (d.clear base) q = if isBelow base q then none else d.entry? q := by
  by_cases hq : q = []
  · have hbelow : ¬ isBelow base q := by
      rw [isBelow_iff]
      rintro ⟨rest, hne, hrest⟩
      exact hne (List.append_eq_nil_iff.mp (hrest.symm.trans hq)).2
    rw [if_neg hbelow, hq]
    rfl
  · rw [clear, entry?_filter (fun r => !isBelow base r) hq]
    cases isBelow base q <;> rfl

theorem entry?_drop (hplace : place ≠ []) (q : Place) :
    entry? (d.drop place) q = if q = place then none else d.entry? q := by
  by_cases hq : q = []
  · rw [if_neg (hq ▸ hplace.symm), hq]
    rfl
  · rw [drop, entry?_filter (fun r => decide (r ≠ place)) hq]
    by_cases h : q = place <;> simp [h]

/-- First goes what is below, then the directory itself. -/
theorem removes_drop_clear (hplace : place ≠ []) :
    d.Removes place ((d.clear place).drop place) := by
  refine ⟨rfl, fun q hq => ?_, fun q hq => ?_⟩
  · rw [entry?_drop hplace, entry?_clear]
    obtain ⟨rest, rfl⟩ := hq
    by_cases hrest : rest = []
    · rw [hrest, List.append_nil, if_pos rfl]
    · rw [isBelow_iff.mpr ⟨rest, hrest, rfl⟩]
      exact ite_self none
  · have hbelow : isBelow place q = false := by
      rw [Bool.eq_false_iff]
      intro h
      obtain ⟨rest, -, rfl⟩ := isBelow_iff.mp h
      exact hq (List.prefix_append place rest)
    have hother : q ≠ place := fun h => hq (h ▸ List.prefix_rfl)
    rw [entry?_drop hplace, entry?_clear, if_neg hother, hbelow]
    rfl

/-- **A directory is removed** with everything below it. The way to it does not lead through what is
below. -/
theorem removeTree_eq_ok (h : d.removeTree p = (.ok (), new)) :
    d.locate p = .ok (d.spot p) ∧ d.Removes (d.spot p) new ∧
      ∀ r ∈ d.trail p, ¬ isBelow (d.spot p) r := by
  cases hlocate : d.locate p with
  | error cause => simp [removeTree, hlocate] at h
  | ok place =>
    obtain rfl := (locate_eq_ok hlocate).1
    refine ⟨rfl, ?_⟩
    rw [removeTree, hlocate] at h
    cases hentry : d.entry? (d.spot p) with
    | none => simp [hentry] at h
    | some e =>
      cases e with
      | file bytes => simp [hentry] at h
      | directory =>
        simp only [hentry] at h
        cases hcleared : (d.clear (d.spot p)).locate p with
        | error cause => simp [hcleared] at h
        | ok place =>
          simp only [hcleared] at h
          have hway : ∀ r ∈ d.trail p, ¬ isBelow (d.spot p) r := by
            intro r hr hbelow
            obtain ⟨hplace, hdirs, -⟩ := locate_eq_ok hcleared
            rcases hdirs r hr with rfl | hdirectory
            · obtain ⟨rest, hne, hrest⟩ := isBelow_iff.mp hbelow
              exact hne (List.append_right_eq_self.mp (hplace.symm.trans hrest).symm)
            · rw [entry?_clear, if_pos hbelow] at hdirectory
              cases hdirectory
          rcases List.eq_nil_or_concat p.components with hnil | ⟨above, part, hparts⟩
          · simp [hnil] at h
          · rw [List.concat_eq_append] at hparts
            simp only [hparts, List.getLast?_concat] at h
            by_cases hup : part = "..".toList
            · rw [if_pos hup] at h
              cases h
            · rw [if_neg hup] at h
              cases h
              refine ⟨removes_drop_clear ?_, hway⟩
              rw [spot, hparts, follow_append, follow_singleton, step_of_ne hup]
              exact List.append_ne_nil_of_right_ne_nil _ (List.cons_ne_nil part [])

/-- A directory other than the root can be removed if the way to it leads through nothing below it.
Then the path does not end with two dots, for what they lead up from is below. -/
theorem removeTree_of_directories (husable : IsUsablePath p)
    (hdirs : ∀ r ∈ d.trail p, d.entry? r = some .directory)
    (hway : ∀ r ∈ d.trail p, ¬ isBelow (d.spot p) r) (hne : p.components ≠ [])
    (hroot : d.spot p ≠ []) : ∃ new, d.removeTree p = (.ok (), new) := by
  have hlocate (d' : Disk) (hhere : d'.here = d.here)
      (hdirs : ∀ r ∈ d.trail p, d'.entry? r = some .directory) : d'.locate p = .ok (d.spot p) := by
    rw [locate_eq_walk husable, start, hhere, ← start]
    exact walk_of_directories (fun part hpart => (husable.parts part hpart).short) hdirs
  have hcleared : (d.clear (d.spot p)).locate p = .ok (d.spot p) :=
    hlocate _ rfl fun r hr => by rw [entry?_clear, if_neg (hway r hr), hdirs r hr]
  rcases List.eq_nil_or_concat p.components with hnil | ⟨above, part, hparts⟩
  · exact absurd hnil hne
  · rw [List.concat_eq_append] at hparts
    have hup : part ≠ "..".toList := by
      rintro rfl
      have hend : d.spot p = (follow (d.start p.slashes) above).dropLast := by
        rw [spot, hparts, follow_append, follow_singleton, step, if_pos rfl]
      have hmem : follow (d.start p.slashes) above ∈ d.trail p := by
        rw [trail, hparts, trail_concat]
        exact List.mem_append_left _ (follow_mem_trail _ _)
      rcases List.eq_nil_or_concat (follow (d.start p.slashes) above) with hnil | ⟨q, last, hlast⟩
      · exact hroot (by rw [hend, hnil]; rfl)
      · rw [List.concat_eq_append] at hlast
        refine hway _ hmem (isBelow_iff.mpr ⟨[last], by simp, ?_⟩)
        rw [hend, hlast, List.dropLast_concat]
    have hentry := hdirs _ (follow_mem_trail _ _)
    refine ⟨(d.clear (d.spot p)).drop (d.spot p), ?_⟩
    simp only [removeTree, hlocate d rfl hdirs, hcleared, hparts, List.getLast?_concat, if_neg hup]
    rw [spot, hentry]

end Pageloom.Disk
