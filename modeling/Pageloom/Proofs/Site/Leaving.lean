import Pageloom.Proofs.Site.Clean
import Pageloom.Proofs.Site.Effect

/-!
# What a clean build leaves

A clean build that succeeded has opened its output directory and written its pages there. With that,
what stands at a place afterwards is known for every place: what the pages put there, and where they
put nothing, what was there when the output directory was open.

The files of the pages have a name of their own, so all other files are as they were when the output
directory was open. Directories stay, and so a path that keeps out of the output directory can be
followed as before.

## Main definitions

* `Site.IsApart`: a path keeps out of the output directory.
* `Site.Leaves`: the disks before, during and after a clean build.

## Main results

* `Site.Leaves.file_iff`, `Site.Leaves.directory_of_opened`: what is left.
* `Site.IsPlanned.leaves`: what is known of a clean build that succeeded.
-/

namespace Pageloom.Site

open Disk Place

variable {d opened after new : Disk} {root content output p page t : Path} {asked : Option Path}
  {job : Job} {c : Config} {report : Report} {q : Place} {e : Entry} {bytes : List UInt8}
  {htmls : List Text}

/-- The path keeps out of the output directory: it neither leads there nor passes anything below. -/
structure IsApart (d : Disk) (output p : Path) : Prop where
  spot : d.spot p ≠ d.spot output
  way : ∀ r ∈ d.trail p, ¬ isBelow (d.spot output) r

theorem IsApart.outside (h : IsApart d output p) : ¬ d.spot output <+: d.spot p := fun hinside =>
  h.way _ (spot_mem_trail d p) (isBelow_iff_isPrefix.mpr ⟨hinside, h.spot⟩)

/-! ### The disks of a build -/

/-- The disks of a clean build: it found the first, had its output directory open on the second, and
left the third. -/
structure Leaves (d : Disk) (job : Job) (htmls : List Text) (opened after : Disk) : Prop where
  cleaned : Cleaned d job.output opened
  length : htmls.length = job.targets.length
  usable : ∀ t ∈ job.targets, IsUsablePath t
  canWrite : CanWrite opened job.targets
  here : after.here = d.here
  entry : ∀ q, after.entry? q = (placed opened q (job.targets.zip htmls)).or (opened.entry? q)

namespace Leaves

variable (h : Leaves d job htmls opened after)

include h

theorem map_fst : (job.targets.zip htmls).map Prod.fst = job.targets :=
  List.map_fst_zip h.length.ge

theorem canWrite_jobs : CanWrite opened ((job.targets.zip htmls).map Prod.fst) := by
  rw [h.map_fst]
  exact h.canWrite

theorem directory_of_opened (hq : opened.entry? q = some .directory) :
    after.entry? q = some .directory := by
  rw [h.entry]
  exact placed_of_directory h.canWrite_jobs hq

theorem directory_of_mem_trail (hq : q ∈ d.trail job.output) :
    after.entry? q = some .directory :=
  h.directory_of_opened (h.cleaned.directory q hq)

theorem placed_eq_none_iff :
    placed opened q (job.targets.zip htmls) = none ↔
      ∀ t ∈ job.targets, d.spot t ≠ q ∧ q ∉ d.trail t.parent := by
  have hjobs : ∀ t, t ∈ job.targets ↔ ∃ j ∈ job.targets.zip htmls, j.1 = t := fun t => by
    rw [← List.mem_map, h.map_fst]
  simp only [Site.placed_eq_none_iff, spot_of_here h.cleaned.here, trail_of_here h.cleaned.here,
    hjobs, forall_exists_index, and_imp, forall_apply_eq_imp_iff₂]

theorem file_iff (hq : ∀ t ∈ job.targets, d.spot t ≠ q) :
    after.entry? q = some (.file bytes) ↔ opened.entry? q = some (.file bytes) := by
  rw [h.entry]
  refine file_writeAll_iff h.canWrite_jobs fun j hj => ?_
  rw [spot_of_here h.cleaned.here]
  exact hq j.1 (h.map_fst ▸ List.mem_map_of_mem hj)

/-- Where a file was that no page is written to, no page puts anything. -/
theorem placed_of_file (hq : ∀ t ∈ job.targets, d.spot t ≠ q)
    (hfile : opened.entry? q = some (.file bytes)) :
    placed opened q (job.targets.zip htmls) = none := by
  refine h.placed_eq_none_iff.mpr fun t ht => ⟨hq t ht, fun hway => ?_⟩
  rw [← trail_of_here h.cleaned.here] at hway
  exact (h.canWrite.fits t ht).way q hway ⟨bytes, hfile⟩

theorem exists_entry (he : opened.entry? q = some e) : ∃ e', after.entry? q = some e' := by
  rw [h.entry, he]
  cases placed opened q (job.targets.zip htmls) <;> simp

theorem exists_file (ht : t ∈ job.targets) :
    ∃ bytes, after.entry? (d.spot t) = some (.file bytes) := by
  cases hplaced : placed opened (d.spot t) (job.targets.zip htmls) with
  | none => exact absurd rfl (h.placed_eq_none_iff.mp hplaced t ht).1
  | some e =>
    cases e with
    | file bytes => exact ⟨bytes, by rw [h.entry, hplaced]; rfl⟩
    | directory =>
      obtain ⟨j, hj, hway⟩ := exists_way_of_placed hplaced
      rw [← spot_of_here h.cleaned.here] at hway
      exact absurd hway (h.canWrite.apart t ht j.1 (h.map_fst ▸ List.mem_map_of_mem hj))

theorem directory_of_way (ht : t ∈ job.targets) (hq : q ∈ d.trail t.parent) :
    after.entry? q = some .directory := by
  obtain ⟨j, hj, rfl⟩ := List.mem_map.mp (h.map_fst ▸ ht)
  rw [← trail_of_here h.cleaned.here] at hq
  rw [h.entry, placed_of_mem_trail h.canWrite_jobs hj hq]
  rfl

theorem locate_of_isApart (hp : IsApart d job.output p) (hlocate : d.locate p = .ok q) :
    after.locate p = .ok q :=
  locate_mono h.here (fun r hr hdirectory =>
    h.directory_of_opened (h.cleaned.directory_kept (hp.way r hr) hdirectory)) hlocate

theorem locate_output : after.locate job.output = .ok (d.spot job.output) := by
  rw [← spot_of_here h.here]
  refine (Opens.of_directories fun q hq => ?_).locate h.cleaned.usable
  exact h.directory_of_mem_trail (trail_of_here h.here job.output ▸ hq)

theorem start_directory :
    after.entry? (after.start job.output.slashes) = some .directory := by
  rw [start, h.here, ← start]
  exact h.directory_of_mem_trail (self_mem_trail _ _)

end Leaves

/-! ### Builds that succeed -/

theorem start_directory (h : d.entry? d.here = some .directory) (slashes : ℕ) :
    d.entry? (d.start slashes) = some .directory := by
  rw [start]
  split
  · exact h
  · rfl

/-- A path without components leads to where paths begin, and that cannot be removed. -/
theorem components_ne_nil_of_openOutput
    (hstart : d.entry? (d.start output.slashes) = some .directory)
    (h : openOutput true output d = (.ok (), new)) : output.components ≠ [] := by
  intro hnil
  have husable : IsUsablePath output := by
    rcases openOutput_true_cases h with ⟨_, _, hmake⟩ | ⟨_, _, hmake⟩ <;>
      exact (makeDirectories_eq_ok hmake).1
  have hlocate : d.locate output = .ok (d.start output.slashes) := by
    rw [locate_eq_walk husable, hnil, walk]
  rcases openOutput_true_cases h with ⟨cause, hstatus, -⟩ | ⟨cleared, hremove, -⟩
  · simp [status, hlocate, hstart] at hstatus
  · rw [removeTree, hlocate] at hremove
    simp only [hstart, hnil, List.getLast?_nil] at hremove
    split at hremove <;> cases hremove

theorem isSpelled_file (houtput : output.IsSpelled) (hd : d.IsTree)
    (hpage : page ∈ pages d content) : (file content output page).IsSpelled := by
  obtain ⟨dirs, name, rfl, hnames⟩ := exists_of_mem_pages hd hpage
  have hspelled {part : Text} (h : IsName part) : part ≠ [] ∧ part ≠ ".".toList ∧ '/' ∉ part :=
    ⟨h.ne_nil, h.ne_dot, h.no_slash⟩
  intro part hpart
  rw [file, folder_below] at hpart
  rcases List.mem_append.mp hpart with hpart | hpart
  · exact houtput part hpart
  · rcases List.mem_append.mp hpart with hpart | hpart
    · rcases List.mem_append.mp hpart with hpart | hpart
      · exact hspelled (hnames part (List.mem_append_left _ hpart))
      · split at hpart
        · cases hpart
        · next hstem =>
          rw [List.mem_singleton.mp hpart]
          have hname := hnames name (by simp)
          refine ⟨Path.splitSuffix_fst_ne_nil hname.ne_nil, (not_or.mp hstem).2, fun hslash => ?_⟩
          refine hname.no_slash ?_
          rw [← Path.splitSuffix_append name]
          exact List.mem_append_left _ hslash
    · rw [List.mem_singleton.mp hpart]
      decide

theorem IsPlanned.isSpelled_output (h : IsPlanned d root asked c content job)
    (hroot : root.IsSpelled) (hasked : ∀ o, asked = some o → o.IsSpelled) :
    job.output.IsSpelled := by
  have houtput := h.output
  cases asked with
  | some o => exact Except.ok.inj houtput ▸ hasked o rfl
  | none =>
    rw [outputPath, settingPath] at houtput
    split at houtput
    · exact Except.ok.inj houtput ▸ hroot.append (Path.isSpelled_parse _)
    · cases houtput

/-- What is known of a clean build that succeeded. -/
theorem IsPlanned.leaves (h : IsPlanned d root asked c content job) (hd : d.IsTree)
    (hstart : d.entry? (d.start job.output.slashes) = some .directory)
    (hspelled : job.output.IsSpelled)
    (hrun : run true job d = (.ok report, after)) :
    ∃ opened layout rendered, Leaves d job (rendered.map fun r => r.2.html) opened after ∧
      opened.IsTree ∧ after.IsTree ∧ job.layout = .ok layout ∧
      renderAll opened layout job.pages = .ok rendered ∧ job.output.components ≠ [] ∧
      report = ⟨job.output, rendered.map Prod.fst, job.targets⟩ := by
  obtain ⟨opened, layout, rendered, hopen, hlayout, hrender, hwrite, hreport⟩ := run_eq_ok hrun
  have hcleaned := cleaned_of_openOutput hd hopen
  obtain ⟨htargets, -⟩ := h.targets_eq hd
  have hlength : (rendered.map fun r => r.2.html).length = job.targets.length := by
    rw [List.length_map, ← (renderAll_eq_ok hrender).length_eq, h.sources, htargets,
      List.length_map]
  have hfst : (job.targets.zip (rendered.map fun r => r.2.html)).map Prod.fst = job.targets :=
    List.map_fst_zip hlength.ge
  have hjobs : ∀ j ∈ job.targets.zip (rendered.map fun r => r.2.html),
      j.1.slashes = job.output.slashes ∧ j.1.IsSpelled := by
    intro j hj
    have hmem : j.1 ∈ job.targets := hfst ▸ List.mem_map_of_mem hj
    obtain ⟨page, hpage, heq⟩ := List.mem_map.mp (htargets ▸ hmem)
    refine ⟨?_, heq ▸ isSpelled_file hspelled hd hpage⟩
    rw [← heq]
    rfl
  have hopened := isTree_openOutput hd hspelled hstart hopen
  have hbegins : opened.entry? (opened.start job.output.slashes) = some .directory := by
    rw [start, hcleaned.here, ← start]
    exact hcleaned.directory _ (self_mem_trail _ _)
  obtain ⟨hhere, hentry⟩ := entry?_writeAll hwrite
  obtain ⟨hcan, husable⟩ := canWrite_of_writeAll hwrite
  rw [hfst] at hcan
  have husable : ∀ t ∈ job.targets, IsUsablePath t := by
    intro t ht
    obtain ⟨j, hj, rfl⟩ := List.mem_map.mp (hfst.symm ▸ ht)
    exact husable j hj
  exact ⟨opened, layout, rendered,
    ⟨hcleaned, hlength, husable, hcan, hhere.trans hcleaned.here, hentry⟩, hopened,
    isTree_writeAll hopened hjobs hbegins hwrite, hlayout, hrender,
    components_ne_nil_of_openOutput hstart hopen, hreport⟩

end Pageloom.Site
