import Pageloom.Proofs.Disk.Preservation
import Pageloom.Proofs.Site.Clash
import Pageloom.Proofs.Site.Opening

/-!
# What a build changes, place by place

The two steps of a build that change the disk, with directories and not only files. Opening the
output directory clears what is below it and makes the directories on the way; writing pages puts a
file at the place of each, over any file that was there, and makes the directories on its way.

Nothing is assumed of the pages here: two of them may have files at one place, and then the last one
stays.

## Main definitions

* `Site.Cleaned`: a disk is another one with its output directory cleaned.
* `Site.placed`: what some pages put at a place.

## Main results

* `Site.cleaned_of_openOutput`: opening the output directory.
* `Site.entry?_writeAll`: writing pages.
* `Site.isTree_openOutput`, `Site.isTree_writeAll`: both leave a tree.
-/

namespace Pageloom.Site

open Disk Place

variable {d cleared new : Disk} {output t : Path} {place q : Place} {e : Entry} {html : Text}
  {jobs : List (Path × Text)} {ts : List Path}

/-! ### Cleaning -/

/-- The second disk is the first with an empty output directory, unless the path could not be
followed there. Then it has directories on the way, and nothing is cleaned. -/
structure Cleaned (d : Disk) (output : Path) (new : Disk) : Prop where
  here : new.here = d.here
  usable : IsUsablePath output
  free : ∀ q ∈ d.trail output, ¬ d.HasFile q
  way : d.locate output ≠ .error .notFound →
    d.locate output = .ok (d.spot output) ∧ ∀ r ∈ d.trail output, ¬ isBelow (d.spot output) r
  directory : ∀ q ∈ d.trail output, new.entry? q = some .directory
  gone : d.locate output ≠ .error .notFound →
    ∀ q ∉ d.trail output, d.spot output <+: q → new.entry? q = none
  others : ∀ q ∉ d.trail output, (d.locate output ≠ .error .notFound → ¬ d.spot output <+: q) →
    new.entry? q = d.entry? q

theorem directory_of_removeTree (h : d.removeTree output = (.ok (), new)) :
    d.entry? (d.spot output) = some .directory := by
  obtain ⟨hlocate, -, -⟩ := removeTree_eq_ok h
  rw [removeTree, hlocate] at h
  cases hentry : d.entry? (d.spot output) with
  | none => simp [hentry] at h
  | some e =>
    cases e with
    | directory => rfl
    | file bytes => simp [hentry] at h

/-- A disk on which nothing was found where the output directory should be. -/
theorem cleaned_of_status (hd : d.IsTree) {cause : Cause} (hstatus : d.status output = .error cause)
    (h : d.makeDirectories output = (.ok (), new)) : Cleaned d output new := by
  obtain ⟨husable, hfree, hopens⟩ := makeDirectories_eq_ok h
  have hothers : ∀ q ∉ d.trail output, new.entry? q = d.entry? q := fun q hq => by
    rw [hopens.entry, if_neg hq]
  -- If the path can be followed, the place at its end is free, and so is everything below it.
  have hfound : d.locate output ≠ .error .notFound → d.locate output = .ok (d.spot output) ∧
      ∀ q, d.spot output <+: q → d.entry? q = none := by
    intro hne
    cases hlocate : d.locate output with
    | error cause =>
      rw [hlocate, cause_eq_notFound husable hfree hlocate] at hne
      exact absurd rfl hne
    | ok place =>
      obtain rfl := (locate_eq_ok hlocate).1
      have hnone := entry?_eq_none_of_status hlocate hstatus
      refine ⟨rfl, fun q hq => ?_⟩
      cases hentry : d.entry? q with
      | none => rfl
      | some e =>
        by_cases heq : q = d.spot output
        · rw [heq, hnone] at hentry
          cases hentry
        · obtain ⟨rest, hrest, rfl⟩ := isBelow_iff.mp (isBelow_iff_isPrefix.mpr ⟨hq, heq⟩)
          cases hnone.symm.trans (hd.directory_of_below hrest hentry)
  refine ⟨hopens.here, husable, hfree, fun hne => ⟨(hfound hne).1, fun r hr hbelow => ?_⟩,
    fun q => hopens.directory, fun hne q hq hinside => ?_, fun q hq _ => hothers q hq⟩
  · obtain ⟨hinside, hother⟩ := isBelow_iff_isPrefix.mp hbelow
    have hentry := (locate_eq_ok (hfound hne).1).2.1 r hr
    cases (hentry.resolve_left hother).symm.trans ((hfound hne).2 r hinside)
  · rw [hothers q hq, (hfound hne).2 q hinside]

/-- A disk on which the output directory was removed first. -/
theorem cleaned_of_removeTree (hremove : d.removeTree output = (.ok (), cleared))
    (h : cleared.makeDirectories output = (.ok (), new)) : Cleaned d output new := by
  obtain ⟨hlocate, hremoves, hway⟩ := removeTree_eq_ok hremove
  obtain ⟨husable, hfree, hopens⟩ := makeDirectories_eq_ok h
  rw [trail_of_here hremoves.here] at hfree hopens
  refine ⟨hopens.here.trans hremoves.here, husable, fun q hq hfile => ?_,
    fun _ => ⟨hlocate, hway⟩, fun q => hopens.directory, fun _ q hq hinside => ?_,
    fun q hq hne => ?_⟩
  · by_cases heq : q = d.spot output
    · exact not_hasFile_of_directory (directory_of_removeTree hremove) (heq ▸ hfile)
    · have hapart : ¬ d.spot output <+: q := fun hinside =>
        hway q hq (isBelow_iff_isPrefix.mpr ⟨hinside, heq⟩)
      obtain ⟨bytes, hfile⟩ := hfile
      exact hfree q hq ⟨bytes, by rwa [hremoves.others q hapart]⟩
  · rw [hopens.entry, if_neg hq, hremoves.gone q hinside]
  · rw [hopens.entry, if_neg hq, hremoves.others q (hne (by simp [hlocate]))]

/-- **Opening the output directory** cleans it if its path can be followed. -/
theorem cleaned_of_openOutput (hd : d.IsTree) (h : openOutput true output d = (.ok (), new)) :
    Cleaned d output new := by
  rcases openOutput_true_cases h with ⟨cause, hstatus, hmake⟩ | ⟨cleared, hremove, hmake⟩
  · exact cleaned_of_status hd hstatus hmake
  · exact cleaned_of_removeTree hremove hmake

/-- What is not cleaned is kept. -/
theorem Cleaned.kept (h : Cleaned d output new)
    (hq : d.locate output ≠ .error .notFound → ¬ d.spot output <+: q) (he : d.entry? q = some e) :
    new.entry? q = some e := by
  by_cases htrail : q ∈ d.trail output
  · cases e with
    | directory => exact h.directory q htrail
    | file bytes => exact absurd ⟨bytes, he⟩ (h.free q htrail)
  · rw [h.others q htrail hq, he]

/-- Directories are kept up to the output directory. -/
theorem Cleaned.directory_kept (h : Cleaned d output new) (hq : ¬ isBelow (d.spot output) q)
    (he : d.entry? q = some .directory) : new.entry? q = some .directory := by
  by_cases htrail : q ∈ d.trail output
  · exact h.directory q htrail
  · refine h.kept (fun _ hinside => hq (isBelow_iff_isPrefix.mpr ⟨hinside, ?_⟩)) he
    rintro rfl
    exact htrail (spot_mem_trail d output)

/-- No file is made. -/
theorem Cleaned.file_of_file (h : Cleaned d output new) {bytes : List UInt8}
    (hfile : new.entry? q = some (.file bytes)) :
    d.entry? q = some (.file bytes) ∧ q ∉ d.trail output ∧
      (d.locate output ≠ .error .notFound → ¬ d.spot output <+: q) := by
  have htrail : q ∉ d.trail output := fun htrail => by
    cases (h.directory q htrail).symm.trans hfile
  have hapart : d.locate output ≠ .error .notFound → ¬ d.spot output <+: q := fun hne hinside => by
    cases (h.gone hne q htrail hinside).symm.trans hfile
  exact ⟨by rw [← h.others q htrail hapart, hfile], htrail, hapart⟩

/-! ### Writing -/

/-- What pages put at a place: the file of the last of them that is written there, or else a
directory if it is on the way to one of them. -/
def placed (d : Disk) (q : Place) : List (Path × Text) → Option Entry
  | [] => none
  | (t, html) :: jobs =>
    (placed d q jobs).or
      (if d.spot t = q then some (.file (Utf8.encode html))
      else if q ∈ d.trail t.parent then some .directory
      else none)

theorem placed_eq_none_iff :
    placed d q jobs = none ↔ ∀ job ∈ jobs, d.spot job.1 ≠ q ∧ q ∉ d.trail job.1.parent := by
  induction jobs with
  | nil => simp [placed]
  | cons job jobs ih =>
    rw [placed, Option.or_eq_none_iff, ih, List.forall_mem_cons, and_comm]
    by_cases hspot : d.spot job.1 = q <;> by_cases hway : q ∈ d.trail job.1.parent <;>
      simp [hspot, hway]

theorem exists_spot_of_placed {bytes : List UInt8} (h : placed d q jobs = some (.file bytes)) :
    ∃ job ∈ jobs, d.spot job.1 = q := by
  induction jobs with
  | nil => cases h
  | cons job jobs ih =>
    rcases Option.or_eq_some_iff.mp h with h | ⟨-, h⟩
    · obtain ⟨job', hjob', hspot⟩ := ih h
      exact ⟨job', .tail job hjob', hspot⟩
    · by_cases hspot : d.spot job.1 = q
      · exact ⟨job, .head jobs, hspot⟩
      · rw [if_neg hspot] at h
        split at h <;> cases h

theorem exists_way_of_placed (h : placed d q jobs = some .directory) :
    ∃ job ∈ jobs, q ∈ d.trail job.1.parent := by
  induction jobs with
  | nil => cases h
  | cons job jobs ih =>
    rcases Option.or_eq_some_iff.mp h with h | ⟨-, h⟩
    · obtain ⟨job', hjob', hway⟩ := ih h
      exact ⟨job', .tail job hjob', hway⟩
    · by_cases hspot : d.spot job.1 = q
      · rw [if_pos hspot] at h
        cases h
      · rw [if_neg hspot] at h
        split at h
        · next hway => exact ⟨job, .head jobs, hway⟩
        · cases h

theorem placed_of_here (h : new.here = d.here) (q : Place) (jobs : List (Path × Text)) :
    placed new q jobs = placed d q jobs := by
  induction jobs with
  | nil => rfl
  | cons job jobs ih => rw [placed, placed, ih, spot_of_here h, trail_of_here h]

/-- **Writing pages** puts what they put at each place, and leaves the rest. -/
theorem entry?_writeAll (h : writeAll jobs d = (.ok (), new)) :
    new.here = d.here ∧ ∀ q, new.entry? q = (placed d q jobs).or (d.entry? q) := by
  induction jobs generalizing d with
  | nil =>
    cases h
    exact ⟨rfl, fun q => rfl⟩
  | cons job jobs ih =>
    obtain ⟨t, html⟩ := job
    rcases hwrite : writePage t html d with ⟨f | ⟨⟩, way⟩
    · simp [writeAll, hwrite] at h
    · rw [writeAll_cons_ok hwrite] at h
      obtain ⟨-, -, hwritten⟩ := written_of_writePage hwrite
      obtain ⟨hhere, hentry⟩ := ih h
      refine ⟨hhere.trans hwritten.here, fun q => ?_⟩
      rw [hentry, placed_of_here hwritten.here, placed, Option.or_assoc, hwritten.entry]
      by_cases hspot : d.spot t = q
      · simp [hspot]
      · by_cases hway : q ∈ d.trail t.parent <;> simp [hspot, Ne.symm hspot, hway]

/-- Pages leave all directories. -/
theorem placed_of_directory (hcan : CanWrite d (jobs.map Prod.fst))
    (h : d.entry? q = some .directory) :
    (placed d q jobs).or (d.entry? q) = some .directory := by
  cases hplaced : placed d q jobs with
  | none => exact h
  | some e =>
    cases e with
    | directory => rfl
    | file bytes =>
      obtain ⟨job, hjob, rfl⟩ := exists_spot_of_placed hplaced
      exact absurd h (hcan.fits job.1 (List.mem_map_of_mem hjob)).spot

/-- On the way to a page there are directories. -/
theorem placed_of_mem_trail (hcan : CanWrite d (jobs.map Prod.fst)) {job : Path × Text}
    (hjob : job ∈ jobs) (hq : q ∈ d.trail job.1.parent) :
    placed d q jobs = some .directory := by
  cases hplaced : placed d q jobs with
  | none => exact absurd hq (placed_eq_none_iff.mp hplaced job hjob).2
  | some e =>
    cases e with
    | directory => rfl
    | file bytes =>
      obtain ⟨job', hjob', rfl⟩ := exists_spot_of_placed hplaced
      exact absurd hq (hcan.apart job'.1 (List.mem_map_of_mem hjob') job.1
        (List.mem_map_of_mem hjob))

/-- A file that no page is written to is as it was before. -/
theorem file_writeAll_iff (hcan : CanWrite d (jobs.map Prod.fst))
    (hspot : ∀ job ∈ jobs, d.spot job.1 ≠ q) {bytes : List UInt8} :
    (placed d q jobs).or (d.entry? q) = some (.file bytes) ↔
      d.entry? q = some (.file bytes) := by
  cases hplaced : placed d q jobs with
  | none => rfl
  | some e =>
    cases e with
    | file bytes' =>
      obtain ⟨job, hjob, h⟩ := exists_spot_of_placed hplaced
      exact absurd h (hspot job hjob)
    | directory =>
      obtain ⟨job, hjob, hway⟩ := exists_way_of_placed hplaced
      have hfree := (hcan.fits job.1 (List.mem_map_of_mem hjob)).way q hway
      exact iff_of_false (fun h => nomatch h) fun h => hfree ⟨bytes, h⟩

/-! ### Trees -/

/-- **Cleaning the output directory leaves a tree.** -/
theorem isTree_openOutput (hd : d.IsTree) (hspelled : output.IsSpelled)
    (hstart : d.entry? (d.start output.slashes) = some .directory)
    (h : openOutput true output d = (.ok (), new)) : new.IsTree := by
  have hstand := hd.canStand_of_entry hstart
  rcases openOutput_true_cases h with ⟨cause, -, hmake⟩ | ⟨cleared, hremove, hmake⟩
  · exact hd.of_makeDirectories hspelled hstand hmake
  · obtain ⟨-, hremoves, hway⟩ := removeTree_eq_ok hremove
    have heq : cleared.start output.slashes = d.start output.slashes := by
      rw [start, start, hremoves.here]
    -- The way to the output directory does not begin below it.
    have hapart : ¬ d.spot output <+: (d.start output.slashes).dropLast := by
      intro hinside
      rcases List.eq_nil_or_concat (d.start output.slashes) with hnil | ⟨above, last, hconcat⟩
      · rw [hnil] at hinside
        cases (hremoves.gone [] hinside).symm.trans rfl
      · rw [List.concat_eq_append] at hconcat
        rw [hconcat, List.dropLast_concat] at hinside
        obtain ⟨rest, rfl⟩ := hinside
        refine hway _ (self_mem_trail _ _) (isBelow_iff.mpr ⟨rest ++ [last], by simp, ?_⟩)
        rw [hconcat, List.append_assoc]
    refine (hd.of_removeTree hremove).of_makeDirectories hspelled ?_ hmake
    rw [heq]
    exact ⟨hstand.names, by rw [hremoves.others _ hapart, hstand.above]⟩

theorem isTree_writePage (hd : d.IsTree) (ht : t.IsSpelled)
    (hstart : d.entry? (d.start t.slashes) = some .directory)
    (h : writePage t html d = (.ok (), new)) :
    new.IsTree ∧ new.entry? (new.start t.slashes) = some .directory := by
  obtain ⟨-, hself, hwritten⟩ := written_of_writePage h
  have hbegins : d.start t.slashes ∈ d.trail t.parent := self_mem_trail _ _
  constructor
  · rw [writePage] at h
    rcases hmake : d.makeDirectories t.parent with ⟨f | ⟨⟩, way⟩
    · simp [hmake] at h
    · simp only [hmake] at h
      cases hwrite : way.write t (Utf8.encode html) with
      | error f =>
        simp only [hwrite] at h
        cases h
      | ok new' =>
        simp only [hwrite] at h
        cases h
        have hparent : t.parent.IsSpelled := fun part hpart =>
          ht part (List.mem_of_mem_dropLast hpart)
        have hway := hd.of_makeDirectories hparent (hd.canStand_of_entry hstart) hmake
        obtain ⟨-, -, hopens⟩ := makeDirectories_eq_ok hmake
        have hstart : way.entry? (way.start t.slashes) = some .directory := by
          rw [start, hopens.here]
          exact hopens.directory hbegins
        exact hway.of_write ht (hway.canStand_of_entry hstart) hwrite
  · rw [start, hwritten.here, ← start, hwritten.entry, if_neg, if_pos hbegins]
    intro heq
    rw [heq] at hbegins
    exact hself hbegins

/-- **Writing pages leaves a tree.** -/
theorem isTree_writeAll {slashes : ℕ} (hd : d.IsTree)
    (hjobs : ∀ job ∈ jobs, job.1.slashes = slashes ∧ job.1.IsSpelled)
    (hstart : d.entry? (d.start slashes) = some .directory)
    (h : writeAll jobs d = (.ok (), new)) : new.IsTree := by
  induction jobs generalizing d with
  | nil =>
    cases h
    exact hd
  | cons job jobs ih =>
    obtain ⟨t, html⟩ := job
    obtain ⟨⟨hslashes, ht⟩, hrest⟩ := List.forall_mem_cons.mp hjobs
    dsimp only at hslashes
    subst hslashes
    rcases hwrite : writePage t html d with ⟨f | ⟨⟩, way⟩
    · simp [writeAll, hwrite] at h
    · rw [writeAll_cons_ok hwrite] at h
      obtain ⟨htree, hbegins⟩ := isTree_writePage hd ht hstart hwrite
      exact ih htree hrest hbegins h

end Pageloom.Site
