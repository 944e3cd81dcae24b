import Pageloom.Proofs.Disk.Files

/-!
# Trees stay trees

Every operation that succeeds on a tree leaves a tree. What is put on a disk is put into a directory
and under a name, and what is removed takes with it all that is below.

The names come from the components of a path. A disk refuses those that are too long, but nothing
keeps a component from being empty or from holding a slash except that no text spells it.

## Main definitions

* `Path.IsSpelled`: the components of a path are such as texts spell.
* `Disk.CanStand`: something can stand at a place.

## Main results

* `Disk.IsTree.canStand_of_locate`: a path leads to such a place.
* `Disk.IsTree.of_makeDirectories`, `Disk.IsTree.of_write`, `Disk.IsTree.of_removeTree`: the
  operations.
-/

namespace Pageloom

/-! ### Spelled paths -/

namespace Path

variable {p q : Path}

/-- The components of the path are such as a text spells. -/
def IsSpelled (p : Path) : Prop :=
  ∀ part ∈ p.components, part ≠ [] ∧ part ≠ ".".toList ∧ '/' ∉ part

instance (p : Path) : Decidable p.IsSpelled :=
  inferInstanceAs (Decidable (∀ part ∈ p.components, part ≠ [] ∧ part ≠ ".".toList ∧ '/' ∉ part))

theorem isSpelled_parse (t : Text) : (parse t).IsSpelled := by
  intro part hpart
  obtain ⟨hsplit, hkept⟩ := List.mem_filter.mp hpart
  obtain ⟨hne, hdot⟩ : part ≠ [] ∧ part ≠ ['.'] := by simpa using hkept
  exact ⟨hne, hdot, Text.notMem_of_mem_split hsplit⟩

theorem IsSpelled.append (hp : p.IsSpelled) (hq : q.IsSpelled) : (p.append q).IsSpelled := by
  rw [Path.append]
  split
  · exact fun part hpart => (List.mem_append.mp hpart).elim (hp part) (hq part)
  · exact hq

end Path

/-! ### Places -/

namespace Disk

open Place

variable {d new : Disk} {p : Path} {place q : Place} {parts : List Text} {e : Entry}
  {bytes : List UInt8}

/-- Something can stand at the place: it is in a directory, and has names on the way. -/
structure CanStand (d : Disk) (place : Place) : Prop where
  names : ∀ part ∈ place, IsName part
  above : d.entry? place.dropLast = some .directory

theorem IsTree.canStand_of_entry (hd : d.IsTree) (h : d.entry? place = some e) :
    d.CanStand place := by
  refine ⟨fun part hpart => ?_, hd.directory_above h⟩
  exact hd.names place (mem_places_of_entry h (List.ne_nil_of_mem hpart)) part hpart

/-- More directories only make more room. -/
theorem CanStand.mono (h : d.CanStand place)
    (hdirs : ∀ q, d.entry? q = some .directory → new.entry? q = some .directory) :
    new.CanStand place :=
  ⟨h.names, hdirs _ h.above⟩

/-- The end of a way that can be followed. -/
theorem IsTree.canStand_of_walk (hd : d.IsTree)
    (hparts : ∀ part ∈ parts, part = "..".toList ∨ IsName part) (hplace : d.CanStand place)
    (h : d.walk place parts = .ok q) : d.CanStand q := by
  induction parts generalizing place with
  | nil => exact Except.ok.inj h ▸ hplace
  | cons part rest ih =>
    obtain ⟨hpart, hrest⟩ := List.forall_mem_cons.mp hparts
    cases hentry : d.entry? place with
    | none => simp [walk, hentry] at h
    | some e =>
      cases e with
      | file bytes => simp [walk, hentry] at h
      | directory =>
        have hshort : isTooLong part = false :=
          (walk_eq_ok h).2.2 part List.mem_cons_self
        rw [walk_cons_of_directory hentry hshort] at h
        refine ih hrest ?_ h
        by_cases hup : part = "..".toList
        · rw [step, if_pos hup]
          exact ⟨fun x hx => hplace.names x (List.mem_of_mem_dropLast hx),
            hd.directory_above hplace.above⟩
        · rw [step, if_neg hup]
          refine ⟨fun x hx => ?_, by rwa [List.dropLast_concat]⟩
          rcases List.mem_append.mp hx with hx | hx
          · exact hplace.names x hx
          · exact List.mem_singleton.mp hx ▸ hpart.resolve_left hup

theorem isName_of_spelled {part : Text} (hpart : part ≠ [] ∧ part ≠ ".".toList ∧ '/' ∉ part)
    (husable : IsUsable part) : part = "..".toList ∨ IsName part :=
  or_iff_not_imp_left.mpr fun hup => ⟨husable, hpart.1, hpart.2.1, hup, hpart.2.2⟩

/-- **A path leads to a place where something can stand**, if it is spelled by a text and begins at
such a place. -/
theorem IsTree.canStand_of_locate (hd : d.IsTree) (hp : p.IsSpelled)
    (hstart : d.CanStand (d.start p.slashes)) (h : d.locate p = .ok q) : d.CanStand q := by
  have husable := (locate_eq_ok h).2.2
  rw [locate_eq_walk husable] at h
  exact hd.canStand_of_walk (fun part hpart => isName_of_spelled (hp part hpart)
    (husable.parts part hpart)) hstart h

/-! ### Changes of one place -/

theorem map_fst_putEntry (place : Place) (e : Entry) (entries : List (Place × Entry)) :
    (putEntry place e entries).map Prod.fst =
      if place ∈ entries.map Prod.fst then entries.map Prod.fst
      else entries.map Prod.fst ++ [place] := by
  induction entries with
  | nil => rfl
  | cons entry rest ih =>
    obtain ⟨r, old⟩ := entry
    by_cases hr : r = place
    · simp [putEntry, hr]
    · by_cases hmem : place ∈ rest.map Prod.fst <;>
        simp_all [putEntry, Ne.symm hr]

theorem mem_places_put : q ∈ (d.put place e).places ↔ q = place ∨ q ∈ d.places := by
  rw [places, put, map_fst_putEntry]
  by_cases hmem : place ∈ d.entries.map Prod.fst
  · rw [if_pos hmem, places]
    exact ⟨.inr, fun h => h.elim (fun h => h ▸ hmem) id⟩
  · rw [if_neg hmem, List.mem_append, List.mem_singleton, or_comm, places]

/-- What is put on a tree may not take the place of a directory. -/
theorem IsTree.put (hd : d.IsTree) (hplace : d.CanStand place) (hne : place ≠ [])
    (hkeeps : d.entry? place = some .directory → e = .directory) : (d.put place e).IsTree where
  names r hr := by
    rcases mem_places_put.mp hr with rfl | hr
    · exact hplace.names
    · exact hd.names r hr
  above r hr := by
    have habove : d.entry? r.dropLast = some .directory := by
      rcases mem_places_put.mp hr with rfl | hr
      · exact hplace.above
      · exact hd.above r hr
    rw [entry?_put hne]
    by_cases hlast : r.dropLast = place
    · rw [if_pos hlast, hkeeps (hlast ▸ habove)]
    · rw [if_neg hlast, habove]
  distinct := by
    rw [places, Disk.put, map_fst_putEntry]
    split
    · exact hd.distinct
    · next hmem =>
      exact List.nodup_append.mpr ⟨hd.distinct, by simp,
        fun r hr s hs heq => hmem (List.mem_singleton.mp hs ▸ heq ▸ hr)⟩

/-- What is kept of a tree is a tree if it is kept with all that is above. -/
theorem IsTree.filter (hd : d.IsTree) (keep : Place → Bool)
    (hkeep : ∀ r ∈ d.places, keep r → r.dropLast = [] ∨ keep r.dropLast) :
    IsTree { d with entries := d.entries.filter fun (r, _) => keep r } := by
  have hplaces : places { d with entries := d.entries.filter fun (r, _) => keep r } =
      d.places.filter keep := by
    rw [places, places, List.filter_map]
    rfl
  refine ⟨?_, ?_, ?_⟩
  · rw [hplaces]
    exact fun r hr => hd.names r (List.mem_of_mem_filter hr)
  · rw [hplaces]
    intro r hr
    obtain ⟨hmem, hkept⟩ := List.mem_filter.mp hr
    by_cases hroot : r.dropLast = []
    · rw [hroot]
      rfl
    · rw [entry?_filter keep hroot, if_pos ((hkeep r hmem hkept).resolve_left hroot)]
      exact hd.above r hmem
  · rw [hplaces]
    exact hd.distinct.filter keep

/-! ### Operations -/

theorem IsTree.of_ensureDirectory (hd : d.IsTree) (hp : p.IsSpelled)
    (hstart : d.CanStand (d.start p.slashes)) (h : d.ensureDirectory p = .ok new) :
    new.IsTree := by
  rw [ensureDirectory, makeDirectory] at h
  cases hlocate : d.locate p with
  | error cause =>
    simp only [hlocate] at h
    split at h
    · exact Except.ok.inj h ▸ hd
    · cases h
  | ok place =>
    cases hentry : d.entry? place with
    | some e =>
      simp only [hlocate, hentry] at h
      split at h
      · exact Except.ok.inj h ▸ hd
      · cases h
    | none =>
      simp only [hlocate, hentry] at h
      cases h
      have hne : place ≠ [] := ne_nil_of_entry?_ne fun h => by cases hentry.symm.trans h
      exact hd.put (hd.canStand_of_locate hp hstart hlocate) hne fun _ => rfl

theorem Opens.directory_of_directory {places : List Place} (h : d.Opens places new)
    (hq : d.entry? q = some .directory) : new.entry? q = some .directory := by
  rw [h.entry, hq, ite_self]

theorem IsTree.of_makeDirectoriesFrom {slashes : Nat} {reversed : List Text} (hd : d.IsTree)
    (hp : Path.IsSpelled ⟨slashes, reversed.reverse⟩) (hstart : d.CanStand (d.start slashes))
    (h : makeDirectoriesFrom slashes reversed d = (.ok (), new)) : new.IsTree := by
  induction reversed generalizing new with
  | nil =>
    rw [makeDirectoriesFrom] at h
    cases hensure : d.ensureDirectory ⟨slashes, []⟩ with
    | error fault => simp [hensure] at h
    | ok way =>
      simp only [hensure] at h
      cases h
      exact hd.of_ensureDirectory (p := ⟨slashes, []⟩) (fun _ h => absurd h List.not_mem_nil)
        hstart hensure
  | cons part above ih =>
    rw [makeDirectoriesFrom] at h
    cases hfirst : d.ensureDirectory ⟨slashes, (part :: above).reverse⟩ with
    | ok way =>
      simp only [hfirst] at h
      cases h
      exact hd.of_ensureDirectory hp hstart hfirst
    | error fault =>
      simp only [hfirst] at h
      split at h
      · rcases hmake : makeDirectoriesFrom slashes above d with ⟨fault' | ⟨⟩, way⟩
        · simp [hmake] at h
        · simp only [hmake] at h
          have hway : way.IsTree :=
            ih (fun x hx => hp x (by simp_all)) hmake
          have hopens : d.Opens (d.trail ⟨slashes, above.reverse⟩) way :=
            (makeDirectories_eq_ok (p := ⟨slashes, above.reverse⟩)
              (by simpa [makeDirectories] using hmake)).2.2
          cases hsecond : way.ensureDirectory ⟨slashes, (part :: above).reverse⟩ with
          | error fault' =>
            simp only [hsecond] at h
            cases h
          | ok way' =>
            simp only [hsecond] at h
            cases h
            refine hway.of_ensureDirectory hp ?_ hsecond
            rw [start, hopens.here, ← start]
            exact hstart.mono fun q => hopens.directory_of_directory
      · cases h

/-- **Directories that are made** leave a tree. -/
theorem IsTree.of_makeDirectories (hd : d.IsTree) (hp : p.IsSpelled)
    (hstart : d.CanStand (d.start p.slashes)) (h : d.makeDirectories p = (.ok (), new)) :
    new.IsTree :=
  hd.of_makeDirectoriesFrom (by rwa [List.reverse_reverse]) hstart h

/-- **A file that is written** leaves a tree. -/
theorem IsTree.of_write (hd : d.IsTree) (hp : p.IsSpelled)
    (hstart : d.CanStand (d.start p.slashes)) (h : d.write p bytes = .ok new) : new.IsTree := by
  rw [Disk.write] at h
  cases hlocate : d.locate p with
  | error cause => simp [hlocate] at h
  | ok place =>
    simp only [hlocate] at h
    split at h
    · cases h
    · next hfree =>
      cases h
      exact hd.put (hd.canStand_of_locate hp hstart hlocate) (ne_nil_of_entry?_ne hfree)
        fun hdirectory => absurd hdirectory hfree

theorem isBelow_of_dropLast (h : isBelow place q.dropLast) : isBelow place q := by
  obtain ⟨rest, hne, hrest⟩ := isBelow_iff.mp h
  rcases List.eq_nil_or_concat q with rfl | ⟨above, last, rfl⟩
  · exact absurd (List.append_eq_nil_iff.mp hrest.symm).2 hne
  · rw [List.concat_eq_append] at hrest ⊢
    rw [List.dropLast_concat] at hrest
    exact isBelow_iff.mpr ⟨rest ++ [last], by simp, by rw [hrest, List.append_assoc]⟩

theorem IsTree.clear (hd : d.IsTree) (base : Place) : (d.clear base).IsTree := by
  refine hd.filter (fun r => !isBelow base r) fun r _ hkept => .inr ?_
  rw [Bool.not_eq_true', Bool.eq_false_iff] at hkept ⊢
  exact fun h => hkept (isBelow_of_dropLast h)

/-- Nothing is left below what was cleared, so it can go. -/
theorem IsTree.drop_clear (hd : d.IsTree) (base : Place) : ((d.clear base).drop base).IsTree := by
  refine (hd.clear base).filter (fun r => decide (r ≠ base)) fun r hr _ => ?_
  rcases List.eq_nil_or_concat r with rfl | ⟨above, last, rfl⟩
  · exact .inl rfl
  · refine .inr (decide_eq_true fun hlast => ?_)
    rw [List.concat_eq_append] at hr hlast
    rw [List.dropLast_concat] at hlast
    obtain ⟨e, he⟩ := exists_entry_of_mem_places hr
    rw [entry?_clear, if_pos (isBelow_iff.mpr ⟨[last], by simp, by rw [hlast]⟩)] at he
    cases he

/-- **A directory that is removed** leaves a tree. -/
theorem IsTree.of_removeTree (hd : d.IsTree) (h : d.removeTree p = (.ok (), new)) : new.IsTree := by
  have hnew : new = (d.removeTree p).2 := by rw [h]
  rw [hnew]
  rcases removeTree_snd_cases d p with ⟨hsame, -⟩ | ⟨place, -, -, hremoved | hremoved⟩
  · rwa [hsame]
  · rw [hremoved]
    exact hd.clear place
  · rw [hremoved]
    exact hd.drop_clear place

end Disk

end Pageloom
