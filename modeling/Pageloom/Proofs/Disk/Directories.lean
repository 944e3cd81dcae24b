import Pageloom.Proofs.Disk.Trail

/-!
# Making directories and writing files

What the operations on a disk come to, said place by place. A directory is made with all directories
on the way to it, and that succeeds unless there is a file on the trail. A file is written when the
places on the way are directories and its own place is none.

A refusal is always a *clash* of files and directories here. The other causes of the operations do
not arise, because whatever is missing on the way is made first.

## Main definitions

* `Disk.Opens`: a disk is another one with directories at some places.
* `Disk.Holds`: a disk is another one with a file at some place.
* `Disk.Cause.IsClash`: a file is where a directory has to be, or the other way round.

## Main results

* `Disk.makeDirectories_of_free`, `Disk.makeDirectories_of_file`: the two outcomes of making a
  directory with all directories above it.
* `Disk.makeDirectories_eq_ok`: what is known once directories were made.
* `Disk.write_of_free`, `Disk.write_of_directory`: the two outcomes of writing a file.
-/

namespace Pageloom.Disk

open Place

variable {d new new' : Disk} {place q : Place} {places : List Place} {e : Entry} {p : Path}
  {part : Text} {parts : List Text} {bytes : List UInt8}

/-! ### One place -/

theorem lookup_putEntry (place : Place) (e : Entry) (entries : List (Place × Entry)) (q : Place) :
    (putEntry place e entries).lookup q = if q = place then some e else entries.lookup q := by
  induction entries with
  | nil =>
    by_cases h : q = place <;>
      simp [putEntry, List.lookup_cons, List.lookup_nil, beq_false_of_ne, h]
  | cons entry rest ih =>
    obtain ⟨r, old⟩ := entry
    by_cases hr : r = place
    · subst hr
      by_cases h : q = r <;> simp [putEntry, List.lookup_cons, beq_false_of_ne, h]
    · by_cases h : q = r
      · subst h
        simp [putEntry, hr]
      · simp [putEntry, List.lookup_cons, hr, beq_false_of_ne h, ih]

/-- Nothing can be put at the root, where there is a directory already. -/
theorem entry?_put (hplace : place ≠ []) (e : Entry) (q : Place) :
    entry? (d.put place e) q = if q = place then some e else d.entry? q := by
  by_cases hq : q = []
  · subst hq
    rw [if_neg (Ne.symm hplace)]
    rfl
  · unfold entry?
    rw [if_neg hq, if_neg hq]
    exact lookup_putEntry place e d.entries q

theorem ne_nil_of_entry?_ne (h : d.entry? q ≠ some .directory) : q ≠ [] := by
  rintro rfl
  exact h rfl

/-! ### Making directories -/

/-- The second disk is the first with directories at all of the places. -/
structure Opens (d : Disk) (places : List Place) (new : Disk) : Prop where
  here : new.here = d.here
  entry : ∀ q, new.entry? q = if q ∈ places then some .directory else d.entry? q

theorem Opens.of_directories (h : ∀ q ∈ places, d.entry? q = some .directory) :
    d.Opens places d where
  here := rfl
  entry q := by
    by_cases hq : q ∈ places
    · rw [if_pos hq, h q hq]
    · rw [if_neg hq]

theorem Opens.directory (h : d.Opens places new) (hq : q ∈ places) :
    new.entry? q = some .directory := by
  rw [h.entry, if_pos hq]

theorem Opens.hasFile_iff (h : d.Opens places new) : new.HasFile q ↔ q ∉ places ∧ d.HasFile q := by
  rw [HasFile, HasFile, h.entry]
  by_cases hq : q ∈ places <;> simp [hq]

theorem Opens.append (h : d.Opens places new) (h' : new.Opens [q] new') :
    d.Opens (places ++ [q]) new' where
  here := h'.here.trans h.here
  entry r := by
    rw [h'.entry, h.entry]
    by_cases hr : r = q <;> by_cases hplaces : r ∈ places <;> simp [hr, hplaces]

/-- A refusal because a file is where a directory has to be, or a directory where a file has to
be. -/
def Cause.IsClash (c : Cause) : Prop := c = .notDirectory ∨ c = .alreadyThere ∨ c = .isDirectory

theorem ensureDirectory_of_free (hlocate : d.locate p = .ok q) (hfree : ¬ d.HasFile q) :
    ∃ new, d.ensureDirectory p = .ok new ∧ d.Opens [q] new := by
  cases hq : d.entry? q with
  | none =>
    have hne : q ≠ [] := ne_nil_of_entry?_ne fun h => by cases hq.symm.trans h
    refine ⟨d.put q .directory, by simp [ensureDirectory, makeDirectory, hlocate, hq], rfl, ?_⟩
    intro r
    rw [entry?_put hne]
    simp
  | some e =>
    cases e with
    | file bytes => exact absurd ⟨bytes, hq⟩ hfree
    | directory =>
      refine ⟨d, ?_, Opens.of_directories fun r hr => List.mem_singleton.mp hr ▸ hq⟩
      simp [ensureDirectory, makeDirectory, isDirectory, status, hlocate, hq]

theorem ensureDirectory_of_file (hlocate : d.locate p = .ok q) (hfile : d.HasFile q) :
    d.ensureDirectory p = .error ⟨.alreadyThere, p⟩ := by
  obtain ⟨bytes, hq⟩ := hfile
  simp [ensureDirectory, makeDirectory, isDirectory, status, hlocate, hq]

theorem ensureDirectory_of_error {cause : Cause} (h : d.locate p = .error cause) :
    d.ensureDirectory p = .error ⟨cause, p⟩ := by
  simp [ensureDirectory, makeDirectory, isDirectory, status, h]

/-- Once the directories of a way are there, the way can be followed one component further. -/
theorem Opens.locate_concat {slashes : Nat} (h : d.Opens (Place.trail (d.start slashes) parts) new)
    (husable : IsUsablePath ⟨slashes, parts ++ [part]⟩) :
    new.locate ⟨slashes, parts ++ [part]⟩ = .ok (step (follow (d.start slashes) parts) part) := by
  have hstart : new.start slashes = d.start slashes := by rw [start, start, h.here]
  rw [← hstart]
  exact locate_concat_of_directories husable fun q hq => h.directory (hstart ▸ hq)

/-- One more directory, once those on the way to it are there. -/
theorem Opens.ensureDirectory_concat {slashes : Nat}
    (h : d.Opens (Place.trail (d.start slashes) parts) new)
    (husable : IsUsablePath ⟨slashes, parts ++ [part]⟩)
    (hfree : ¬ d.HasFile (step (follow (d.start slashes) parts) part)) :
    ∃ new', new.ensureDirectory ⟨slashes, parts ++ [part]⟩ = .ok new' ∧
      d.Opens (Place.trail (d.start slashes) (parts ++ [part])) new' := by
  obtain ⟨new', hensure, hopens⟩ := ensureDirectory_of_free (h.locate_concat husable)
    fun hfile => hfree (h.hasFile_iff.mp hfile).2
  refine ⟨new', hensure, ?_⟩
  rw [trail_concat]
  exact h.append hopens

theorem locate_error {slashes : Nat} {cause : Cause} (husable : IsUsablePath ⟨slashes, parts⟩)
    (h : d.walk (d.start slashes) parts = .error cause) :
    d.locate ⟨slashes, parts⟩ = .error cause := (locate_eq_walk husable).trans h

theorem makeDirectoriesFrom_of_free (slashes : Nat) (reversed : List Text)
    (husable : IsUsablePath ⟨slashes, reversed.reverse⟩)
    (hfree : ∀ q ∈ Place.trail (d.start slashes) reversed.reverse, ¬ d.HasFile q) :
    ∃ new, makeDirectoriesFrom slashes reversed d = (.ok (), new) ∧
      d.Opens (Place.trail (d.start slashes) reversed.reverse) new := by
  induction reversed with
  | nil =>
    have hlocate : d.locate ⟨slashes, []⟩ = .ok (d.start slashes) := locate_eq_walk husable
    obtain ⟨new, hensure, hopens⟩ := ensureDirectory_of_free hlocate (hfree _ (self_mem_trail _ _))
    exact ⟨new, by simp [makeDirectoriesFrom, hensure], hopens⟩
  | cons part above ih =>
    simp only [List.reverse_cons] at husable hfree ⊢
    have habove := husable.of_prefix (List.prefix_append _ _)
    have hlast : ¬ d.HasFile (step (follow (d.start slashes) above.reverse) part) :=
      hfree _ (by simp [trail_concat])
    have hway : ∀ q ∈ Place.trail (d.start slashes) above.reverse, ¬ d.HasFile q := fun q hq =>
      hfree q (by simp [trail_concat, hq])
    rcases trail_cases d (d.start slashes) (fun x hx => (habove.parts x hx).short) with
      hdirs | hwalk | ⟨⟨q, hq, hfile⟩, -⟩
    · obtain ⟨new, hensure, hopens⟩ :=
        (Opens.of_directories hdirs).ensureDirectory_concat husable hlast
      exact ⟨new, by simp [makeDirectoriesFrom, hensure], hopens⟩
    · -- The first attempt fails, and the second one finds all directories on the way.
      have hfirst := ensureDirectory_of_error (locate_error husable (hwalk part))
      obtain ⟨above', hmake, hopens⟩ := ih habove hway
      obtain ⟨new, hensure, hopens'⟩ := hopens.ensureDirectory_concat husable hlast
      exact ⟨new, by simp [makeDirectoriesFrom, hfirst, hmake, hensure], hopens'⟩
    · exact absurd hfile (hway q hq)

theorem makeDirectoriesFrom_of_file (slashes : Nat) (reversed : List Text)
    (husable : IsUsablePath ⟨slashes, reversed.reverse⟩)
    (hfile : ∃ q ∈ Place.trail (d.start slashes) reversed.reverse, d.HasFile q) :
    ∃ f new, makeDirectoriesFrom slashes reversed d = (.error f, new) ∧ f.cause.IsClash := by
  induction reversed with
  | nil =>
    obtain ⟨q, hq, hfile⟩ := hfile
    obtain rfl := List.mem_singleton.mp hq
    have hlocate : d.locate ⟨slashes, []⟩ = .ok (d.start slashes) := locate_eq_walk husable
    have hensure := ensureDirectory_of_file hlocate hfile
    exact ⟨⟨.alreadyThere, ⟨slashes, []⟩⟩, d, by simp [makeDirectoriesFrom, hensure],
      Or.inr (Or.inl rfl)⟩
  | cons part above ih =>
    rw [List.reverse_cons] at husable
    have habove := husable.of_prefix (List.prefix_append _ _)
    rw [List.reverse_cons, trail_concat] at hfile
    have hshort : ∀ x ∈ above.reverse, isTooLong x = false := fun x hx => (habove.parts x hx).short
    rcases trail_cases d (d.start slashes) hshort with hdirs | hwalk | ⟨-, hwalk⟩
    · obtain ⟨q, hq, hfile⟩ := hfile
      rcases List.mem_append.mp hq with hq | hq
      · exact absurd hfile (not_hasFile_of_directory (hdirs q hq))
      · obtain rfl := List.mem_singleton.mp hq
        have hensure := ensureDirectory_of_file (locate_concat_of_directories husable hdirs) hfile
        exact ⟨⟨.alreadyThere, ⟨slashes, above.reverse ++ [part]⟩⟩, d,
          by simp [makeDirectoriesFrom, hensure], Or.inr (Or.inl rfl)⟩
    · have hfirst := ensureDirectory_of_error (locate_error husable (hwalk part))
      by_cases hway : ∃ q ∈ Place.trail (d.start slashes) above.reverse, d.HasFile q
      · obtain ⟨f, new, hmake, hclash⟩ := ih habove hway
        exact ⟨f, new, by simp [makeDirectoriesFrom, hfirst, hmake], hclash⟩
      · push Not at hway
        obtain ⟨new, hmake, hopens⟩ :=
          makeDirectoriesFrom_of_free slashes above habove hway
        -- All directories on the way are made, so the file is at its end.
        obtain ⟨q, hq, hfile⟩ := hfile
        rcases List.mem_append.mp hq with hq | hq
        · exact absurd hfile (hway q hq)
        · obtain rfl := List.mem_singleton.mp hq
          have hnew := hopens.hasFile_iff.mpr ⟨fun hq => hway _ hq hfile, hfile⟩
          have hensure := ensureDirectory_of_file (hopens.locate_concat husable) hnew
          exact ⟨⟨.alreadyThere, ⟨slashes, above.reverse ++ [part]⟩⟩, new,
            by simp [makeDirectoriesFrom, hfirst, hmake, hensure], Or.inr (Or.inl rfl)⟩
    · have hfirst := ensureDirectory_of_error (locate_error husable (hwalk part))
      exact ⟨⟨.notDirectory, ⟨slashes, above.reverse ++ [part]⟩⟩, d,
        by simp [makeDirectoriesFrom, hfirst], Or.inl rfl⟩

/-- **Making directories succeeds** if there is no file on the trail, and makes a directory of each
place on it. -/
theorem makeDirectories_of_free (husable : IsUsablePath p)
    (hfree : ∀ q ∈ d.trail p, ¬ d.HasFile q) :
    ∃ new, d.makeDirectories p = (.ok (), new) ∧ d.Opens (d.trail p) new := by
  rw [trail, ← List.reverse_reverse p.components] at hfree ⊢
  exact makeDirectoriesFrom_of_free _ _ (by rwa [List.reverse_reverse]) hfree

/-- **Making directories fails** if there is a file on the trail. -/
theorem makeDirectories_of_file (husable : IsUsablePath p)
    (hfile : ∃ q ∈ d.trail p, d.HasFile q) :
    ∃ f new, d.makeDirectories p = (.error f, new) ∧ f.cause.IsClash := by
  rw [trail, ← List.reverse_reverse p.components] at hfile
  exact makeDirectoriesFrom_of_file _ _ (by rwa [List.reverse_reverse]) hfile

/-- Making directories fails at once if the path is too long. -/
theorem makeDirectories_of_isLongPath (hparts : ∀ part ∈ p.components, IsUsable part)
    (hlong : isLongPath p) : d.makeDirectories p = (.error ⟨.nameTooLong, p⟩, d) := by
  have hfirst := ensureDirectory_of_error (locate_of_isLongPath (d := d) hparts hlong)
  obtain ⟨slashes, components⟩ := p
  rw [makeDirectories]
  rcases List.eq_nil_or_concat components with rfl | ⟨above, part, rfl⟩
  · simp only [List.reverse_nil, makeDirectoriesFrom, hfirst]
  · rw [List.concat_eq_append] at hfirst ⊢
    simp [makeDirectoriesFrom, hfirst]

/-! ### Directories that were made -/

theorem isUsablePath_of_ensureDirectory (h : d.ensureDirectory p = .ok new) : IsUsablePath p := by
  cases hlocate : d.locate p with
  | ok place => exact (locate_eq_ok hlocate).2.2
  | error cause =>
    rw [ensureDirectory_of_error hlocate] at h
    cases h

/-- What was made has a path that a disk can follow, whichever of the two attempts made it. -/
theorem isUsablePath_of_makeDirectoriesFrom {slashes : Nat} {reversed : List Text}
    (h : makeDirectoriesFrom slashes reversed d = (.ok (), new)) :
    IsUsablePath ⟨slashes, reversed.reverse⟩ := by
  cases reversed with
  | nil =>
    rw [makeDirectoriesFrom] at h
    cases hensure : d.ensureDirectory ⟨slashes, []⟩ with
    | ok way => exact isUsablePath_of_ensureDirectory hensure
    | error fault =>
      simp only [hensure] at h
      cases h
  | cons part above =>
    rw [makeDirectoriesFrom] at h
    cases hfirst : d.ensureDirectory ⟨slashes, (part :: above).reverse⟩ with
    | ok way => exact isUsablePath_of_ensureDirectory hfirst
    | error fault =>
      simp only [hfirst] at h
      split at h
      · rcases hmake : makeDirectoriesFrom slashes above d with ⟨fault' | ⟨⟩, way⟩
        · simp [hmake] at h
        · simp only [hmake] at h
          cases hsecond : way.ensureDirectory ⟨slashes, (part :: above).reverse⟩ with
          | ok way' => exact isUsablePath_of_ensureDirectory hsecond
          | error fault' =>
            simp only [hsecond] at h
            cases h
      · cases h

/-- If directories were made, there was no file on the trail, and now there are directories. -/
theorem makeDirectories_eq_ok (h : d.makeDirectories p = (.ok (), new)) :
    IsUsablePath p ∧ (∀ q ∈ d.trail p, ¬ d.HasFile q) ∧ d.Opens (d.trail p) new := by
  have husable : IsUsablePath p := by
    have hmade := isUsablePath_of_makeDirectoriesFrom h
    rwa [List.reverse_reverse] at hmade
  by_cases hfile : ∃ q ∈ d.trail p, d.HasFile q
  · obtain ⟨f, new', hmake, -⟩ := makeDirectories_of_file husable hfile
    rw [hmake] at h
    cases h
  · push Not at hfile
    obtain ⟨new', hmake, hopens⟩ := makeDirectories_of_free husable hfile
    rw [hmake] at h
    cases h
    exact ⟨husable, hfile, hopens⟩

/-- A path whose trail was opened leads to its end. -/
theorem Opens.locate (h : d.Opens (d.trail p) new) (husable : IsUsablePath p) :
    new.locate p = .ok (d.spot p) := by
  rw [locate_eq_walk husable, ← spot_of_here h.here]
  refine walk_of_directories (fun x hx => (husable.parts x hx).short) fun q hq => h.directory ?_
  rwa [← trail_of_here h.here]

/-- Directories where there were no files leave all files as they were. -/
theorem Opens.file_iff (h : d.Opens places new) (hfree : ∀ q ∈ places, ¬ d.HasFile q) :
    new.entry? q = some (.file bytes) ↔ d.entry? q = some (.file bytes) := by
  rw [h.entry]
  by_cases hq : q ∈ places
  · rw [if_pos hq]
    exact iff_of_false (fun h => nomatch h) fun hfile => hfree q hq ⟨bytes, hfile⟩
  · rw [if_neg hq]

/-- Without a file on its trail, a path cannot be followed only if something is missing. -/
theorem cause_eq_notFound {cause : Cause} (husable : IsUsablePath p)
    (hfree : ∀ q ∈ d.trail p, ¬ d.HasFile q) (h : d.locate p = .error cause) :
    cause = .notFound := by
  obtain ⟨slashes, components⟩ := p
  rw [trail] at hfree
  rcases List.eq_nil_or_concat components with rfl | ⟨above, part, rfl⟩
  · rw [locate_eq_walk husable] at h
    cases h
  · rw [List.concat_eq_append] at husable hfree h
    rcases trail_cases d (d.start slashes)
      (fun x hx => (husable.parts x (List.mem_append_left [part] hx)).short) with
      hdirs | hwalk | ⟨⟨q, hq, hfile⟩, -⟩
    · cases (locate_concat_of_directories husable hdirs).symm.trans h
    · cases (locate_error husable (hwalk part)).symm.trans h
      rfl
    · exact absurd hfile (hfree q (by simp [trail_concat, hq]))

/-! ### Writing files -/

/-- The second disk is the first with a file at a place. -/
structure Holds (d : Disk) (place : Place) (bytes : List UInt8) (new : Disk) : Prop where
  here : new.here = d.here
  entry : ∀ q, new.entry? q = if q = place then some (.file bytes) else d.entry? q

theorem write_of_free (hlocate : d.locate p = .ok q) (hfree : d.entry? q ≠ some .directory)
    (bytes : List UInt8) : ∃ new, d.write p bytes = .ok new ∧ d.Holds q bytes new := by
  refine ⟨d.put q (.file bytes), ?_, rfl, entry?_put (ne_nil_of_entry?_ne hfree) _⟩
  simp only [write, hlocate]

theorem write_of_directory (hlocate : d.locate p = .ok q) (hq : d.entry? q = some .directory)
    (bytes : List UInt8) : d.write p bytes = .error ⟨.isDirectory, p⟩ := by
  simp only [write, hlocate, hq]

end Pageloom.Disk
