import Pageloom.Proofs.Site.Replanning

/-!
# Building again

Building a site once more changes nothing, as long as the first build had cleaned what the second
one cleans. It has not if the path of its output directory could not be followed at first, because a
directory on the way was missing. Then what stood where the path leads in the end is still there
after the first build, and goes with the second, unless the pages put it there again.

The argument looks at each place by itself. What cleaning takes away was either made by the first
build, and then the pages make it again, or it was free before.

## Main definitions

* `Site.Reopened`: the output directory is open again.
* `Site.IsSettled`: what is below the output directory is there for the pages.

## Main results

* `Site.Leaves.reopen_keeping`, `Site.Leaves.reopen_cleaning`: opening the output directory again.
* `Site.Reopened.run_again`: the second run.
* `Site.build_again`: when building again changes nothing.
-/

namespace Pageloom.Site

open Disk Place

variable {d opened after new : Disk} {root content page t : Path} {asked : Option Path}
  {job : Job} {c : Config} {report : Report} {q : Place} {bytes : List UInt8} {htmls : List Text}

/-! ### Opening the output directory again -/

/-- The output directory was opened once more. What is not as the build left it is free now, and if
it was not made by the build it was free before. -/
structure Reopened (d : Disk) (job : Job) (htmls : List Text) (opened after new : Disk) : Prop where
  here : new.here = d.here
  tree : new.IsTree
  entry : ∀ q, new.entry? q = after.entry? q ∨ new.entry? q = none ∧ isBelow (d.spot job.output) q ∧
    (opened.entry? q ≠ none → placed opened q (job.targets.zip htmls) ≠ none)

namespace Reopened

variable (h : Leaves d job htmls opened after) (hnew : Reopened d job htmls opened after new)

include h hnew

/-- Writing the pages again makes up for what was cleaned. -/
theorem entry_again (q : Place) :
    (placed new q (job.targets.zip htmls)).or (new.entry? q) = after.entry? q := by
  have hhere : new.here = opened.here := hnew.here.trans h.cleaned.here.symm
  rw [placed_of_here hhere, h.entry]
  rcases hnew.entry q with hsame | ⟨hfree, -, hmade⟩
  · rw [hsame, h.entry, ← Option.or_assoc, Option.or_self]
  · rw [hfree, Option.or_none]
    cases hplaced : placed opened q (job.targets.zip htmls) with
    | some e => rfl
    | none =>
      by_cases hopen : opened.entry? q = none
      · rw [hopen, Option.or_none]
      · exact absurd hplaced (hmade hopen)

/-- There is room for the pages again. -/
theorem canWrite_again : CanWrite new job.targets := by
  have hhere : new.here = opened.here := hnew.here.trans h.cleaned.here.symm
  refine ⟨fun t ht => ⟨fun q hq => ?_, fun hdirectory => ?_⟩, fun t ht u hu => ?_⟩
  · rw [trail_of_here hnew.here] at hq
    rintro ⟨bytes, hfile⟩
    rcases hnew.entry q with hsame | ⟨hfree, -, -⟩
    · cases (hsame.symm.trans hfile).symm.trans (h.directory_of_way ht hq)
    · cases hfree.symm.trans hfile
  · rw [spot_of_here hnew.here] at hdirectory
    rcases hnew.entry (d.spot t) with hsame | ⟨hfree, -, -⟩
    · obtain ⟨bytes, hfile⟩ := h.exists_file ht
      cases (hsame.symm.trans hdirectory).symm.trans hfile
    · cases hfree.symm.trans hdirectory
  · rw [Blocks, spot_of_here hhere, trail_of_here hhere]
    exact h.canWrite.apart t ht u hu

/-- What could be read when the output directory was open the first time can be read again. -/
theorem read_page (hd : d.IsTree) (hplanned : IsPlanned d root asked c content job)
    (hcontent : IsApart d job.output content) (hpage : page ∈ pages d content)
    (hread : opened.read page = .ok bytes) : new.read page = .ok bytes := by
  obtain ⟨rest, hne, rfl, -, -, hfile, hnot⟩ :=
    hplanned.file_of_read hd h.cleaned.here hpage hread
  obtain ⟨-, hlocate, -⟩ := hplanned.locate
  have hlocate' : new.locate content = .ok (d.spot content) := by
    refine locate_mono hnew.here (fun r hr hdirectory => ?_) hlocate
    rcases hnew.entry r with hsame | ⟨-, hbelow, -⟩
    · rw [hsame]
      exact h.directory_of_opened (h.cleaned.directory_kept (hcontent.way r hr) hdirectory)
    · exact absurd hbelow (hcontent.way r hr)
  have hkept : new.entry? (d.spot content ++ rest) = some (.file bytes) := by
    rcases hnew.entry (d.spot content ++ rest) with hsame | ⟨-, -, hmade⟩
    · rw [hsame, h.file_iff hnot, hfile]
    · exact absurd (h.placed_of_file hnot hfile) (hmade (by rw [hfile]; exact nofun))
  have hshort := (locate_eq_ok (read_eq_ok_iff.mp hread).1).2.2.short
  have hbelow := hnew.tree.locate_below hlocate' hkept hshort
  rw [read_eq_ok_iff, ← (locate_eq_ok hbelow).1]
  exact ⟨hbelow, hkept⟩

/-- **The second run.** Once the output directory is open again, the pages are rendered and written
as before, and the disk is as it was before. -/
theorem run_again {clean : Bool} {layout : Layout} {rendered : List (Page × Rendered)}
    (hd : d.IsTree) (hplanned : IsPlanned d root asked c content job)
    (hcontent : IsApart d job.output content) (hhtmls : htmls = rendered.map fun r => r.2.html)
    (hopen : openOutput clean job.output after = (.ok (), new)) (hlayout : job.layout = .ok layout)
    (hrender : renderAll opened layout job.pages = .ok rendered) :
    ∃ again, run clean job after =
        (.ok ⟨job.output, rendered.map Prod.fst, job.targets⟩, again) ∧
      ∀ q, again.entry? q = after.entry? q := by
  have hrender' : renderAll new layout job.pages = .ok rendered := by
    rw [← hrender]
    refine renderAll_congr fun page hpage => ?_
    obtain ⟨bytes, hread⟩ := exists_read_of_renderAll hrender hpage
    rw [hread, read_page h hnew hd hplanned hcontent (hplanned.sources ▸ hpage) hread]
  have husable : ∀ t ∈ (job.targets.zip htmls).map Prod.fst, IsUsablePath t := by
    rw [h.map_fst]
    exact h.usable
  have hcan : CanWrite new ((job.targets.zip htmls).map Prod.fst) := by
    rw [h.map_fst]
    exact canWrite_again h hnew
  obtain ⟨again, hwrite⟩ := writeAll_of_canWrite _ husable hcan
  obtain ⟨-, hentry⟩ := entry?_writeAll hwrite
  subst hhtmls
  refine ⟨again, by simp only [run, hopen, hlayout, hrender', hwrite], fun q => ?_⟩
  rw [hentry, entry_again h hnew]

end Reopened

/-! ### The second run -/

/-- The way to the output directory does not pass below it, and what stands there is what the pages
need. -/
structure IsSettled (d : Disk) (job : Job) : Prop where
  way : ∀ r ∈ d.trail job.output, ¬ isBelow (d.spot job.output) r
  owned : ∀ q, isBelow (d.spot job.output) q → d.entry? q ≠ none →
    ∃ t ∈ job.targets, d.spot t = q ∨ q ∈ d.trail t.parent

/-- Without cleaning, nothing changes. -/
theorem Leaves.reopen_keeping (h : Leaves d job htmls opened after) (hafter : after.IsTree)
    (hspelled : job.output.IsSpelled) :
    ∃ new, openOutput false job.output after = (.ok (), new) ∧
      Reopened d job htmls opened after new := by
  have hdirs : ∀ q ∈ after.trail job.output, after.entry? q = some .directory := fun q hq =>
    h.directory_of_mem_trail (trail_of_here h.here job.output ▸ hq)
  obtain ⟨new, hmake, hopens⟩ := makeDirectories_of_free h.cleaned.usable fun q hq =>
    not_hasFile_of_directory (hdirs q hq)
  have hstand := hafter.canStand_of_entry h.start_directory
  refine ⟨new, hmake, hopens.here.trans h.here,
    hafter.of_makeDirectories hspelled hstand hmake, fun q => .inl ?_⟩
  rw [hopens.entry]
  split
  · next hq => exact (hdirs q hq).symm
  · rfl

/-- Cleaning removes what is below the output directory. If it was cleaned before, or all that was
below it is needed by the pages, they will be written again. -/
theorem Leaves.reopen_cleaning (h : Leaves d job htmls opened after) (hafter : after.IsTree)
    (hspelled : job.output.IsSpelled) (hne : job.output.components ≠ [])
    (hroot : d.spot job.output ≠ [])
    (hsettled : d.locate job.output = .error .notFound → IsSettled d job) :
    ∃ new, openOutput true job.output after = (.ok (), new) ∧
      Reopened d job htmls opened after new := by
  have hspot := spot_of_here h.here job.output
  have htrail := trail_of_here h.here job.output
  have hdirs : ∀ q ∈ after.trail job.output, after.entry? q = some .directory := fun q hq =>
    h.directory_of_mem_trail (htrail ▸ hq)
  have hway : ∀ r ∈ d.trail job.output, ¬ isBelow (d.spot job.output) r := by
    by_cases hfound : d.locate job.output = .error .notFound
    · exact (hsettled hfound).way
    · exact (h.cleaned.way hfound).2
  obtain ⟨cleared, hremove⟩ := removeTree_of_directories h.cleaned.usable hdirs
    (by rwa [hspot, htrail]) hne (by rwa [hspot])
  obtain ⟨hlocate, hremoves, -⟩ := removeTree_eq_ok hremove
  obtain ⟨new, hmake, -⟩ := makeDirectories_of_free (d := cleared) h.cleaned.usable fun q hq => by
    rw [trail_of_here hremoves.here] at hq
    rintro ⟨bytes, hfile⟩
    by_cases hinside : after.spot job.output <+: q
    · cases (hremoves.gone q hinside).symm.trans hfile
    · rw [hremoves.others q hinside, hdirs q hq] at hfile
      cases hfile
  have hopen : openOutput true job.output after = (.ok (), new) := by
    have hexists : after.exists? job.output = .ok true :=
      exists?_eq_true_iff.mpr ⟨_, status_eq_ok_iff.mpr ⟨hlocate, hdirs _ (spot_mem_trail _ _)⟩⟩
    simp only [openOutput, if_true, hexists, hremove, hmake]
  have hcleaned := cleaned_of_removeTree hremove hmake
  refine ⟨new, hopen, hcleaned.here.trans h.here,
    isTree_openOutput hafter hspelled h.start_directory hopen, fun q => ?_⟩
  by_cases hq : q ∈ after.trail job.output
  · exact .inl ((hcleaned.directory q hq).trans (hdirs q hq).symm)
  · by_cases hinside : after.spot job.output <+: q
    · refine .inr ⟨hcleaned.gone (by simp [hlocate]) q hq hinside, ?_, fun hopened hplaced => ?_⟩
      · rw [← hspot]
        exact isBelow_iff_isPrefix.mpr ⟨hinside, fun heq => hq (heq ▸ spot_mem_trail _ _)⟩
      · rw [htrail] at hq
        rw [hspot] at hinside
        by_cases hfound : d.locate job.output = .error .notFound
        · -- What was there stands in the place of a page or on the way to one.
          rw [h.cleaned.others q hq fun hne => absurd hfound hne] at hopened
          have hbelow := isBelow_iff_isPrefix.mpr
            ⟨hinside, fun heq => hq (heq ▸ spot_mem_trail d job.output)⟩
          obtain ⟨t, ht, hmade⟩ := (hsettled hfound).owned q hbelow hopened
          obtain ⟨hnot, hnot'⟩ := h.placed_eq_none_iff.mp hplaced t ht
          exact hmade.elim hnot hnot'
        · exact hopened (h.cleaned.gone hfound q hq hinside)
    · exact .inl (hcleaned.others q hq fun _ => hinside)

/-- If cleaning once more makes no difference, everything below the output directory is needed. -/
theorem Leaves.isSettled {again : Disk} {htmls' : List Text} (h : Leaves d job htmls opened after)
    (hagain : Leaves after job htmls' new again) (hsame : ∀ q, again.entry? q = after.entry? q)
    (hfound : d.locate job.output = .error .notFound) : IsSettled d job := by
  have hspot := spot_of_here h.here job.output
  have htrail := trail_of_here h.here job.output
  have hlocate : after.locate job.output ≠ .error .notFound := by simp [h.locate_output]
  have hway : ∀ r ∈ d.trail job.output, ¬ isBelow (d.spot job.output) r := by
    rw [← hspot, ← htrail]
    exact (hagain.cleaned.way hlocate).2
  refine ⟨hway, fun q hbelow hthere => ?_⟩
  have hq : q ∉ d.trail job.output := fun hq => hway q hq hbelow
  have hopened : opened.entry? q = d.entry? q := h.cleaned.others q hq fun hne => absurd hfound hne
  obtain ⟨e, he⟩ := Option.ne_none_iff_exists'.mp hthere
  obtain ⟨e', he'⟩ := h.exists_entry (hopened.trans he)
  have hgone : new.entry? q = none := by
    refine hagain.cleaned.gone hlocate q (htrail ▸ hq) ?_
    rw [hspot]
    exact (isBelow_iff_isPrefix.mp hbelow).1
  -- The place is free once it is cleaned, so it is a page that was put there again.
  by_contra hnone
  push Not at hnone
  have hplaced : placed new q (job.targets.zip htmls') = none := by
    refine hagain.placed_eq_none_iff.mpr fun t ht => ?_
    rw [spot_of_here h.here, trail_of_here h.here]
    exact hnone t ht
  have hentry := hagain.entry q
  rw [hsame, he', hplaced, hgone] at hentry
  cases hentry

/-- The content directory that is configured can be listed: no path in it is too long. -/
def IsListable (d : Disk) (root : Path) : Prop :=
  ∀ content, contentPath? d root = some content → longPath? d content = none

/-- A build that succeeds has listed its content directory. -/
theorem isListable_of_build {clean : Bool} (h : build root asked clean d = (.ok report, after)) :
    IsListable d root := by
  cases hjob : prepare d root asked with
  | error f =>
    rw [build_of_prepare_error hjob] at h
    cases h
  | ok job =>
    obtain ⟨c, content, hplanned⟩ := prepare_eq_ok hjob
    intro content' hcontent'
    obtain rfl := Option.some.inj (hplanned.contentPath?_eq.symm.trans hcontent')
    exact hplanned.listed

/-- **When building again changes nothing.** After a clean build that succeeded, with its content
directory and its configuration file out of the way of its output directory, building once more
without cleaning gives the same report and leaves the disk as it is, if the content directory can
still be listed. So does another clean build, exactly if besides the first one could follow the path
of the output directory, or everything below the place where it leads is the file of a page or on
the way to one. The content directory can be listed as long as the output directory keeps out of
it. -/
theorem build_again (hd : d.IsTree) (hstart : d.entry? d.here = some .directory)
    (hroot : root.IsSpelled) (hasked : ∀ o, asked = some o → o.IsSpelled)
    (hjob : prepare d root asked = .ok job)
    (hcontent : ∀ content, contentPath? d root = some content → IsApart d job.output content)
    (hconfig : IsApart d job.output (Config.filePath root))
    (hway : d.spot (Config.filePath root) ∉ d.trail job.output)
    (hbuild : build root asked true d = (.ok report, after)) :
    ((∃ again, build root asked false after = (.ok report, again) ∧
        ∀ q, again.entry? q = after.entry? q) ↔ IsListable after root) ∧
      ((∃ again, build root asked true after = (.ok report, again) ∧
          ∀ q, again.entry? q = after.entry? q) ↔
        IsListable after root ∧ (d.locate job.output = .error .notFound → IsSettled d job)) ∧
      ((∀ content, contentPath? d root = some content → IsApart d content job.output) →
        IsListable after root) := by
  obtain ⟨c, content, hplanned⟩ := prepare_eq_ok hjob
  have hcontent : IsApart d job.output content := hcontent content hplanned.contentPath?_eq
  have hspelled := hplanned.isSpelled_output hroot hasked
  rw [build_of_prepare_ok hjob] at hbuild
  obtain ⟨opened, layout, rendered, h, hopened, hafter, hlayout, hrender, hne, rfl⟩ :=
    hplanned.leaves hd (start_directory hstart _) hspelled hbuild
  have hpath : contentPath? after root = some content := by
    rw [contentPath?, h.load_eq hd hjob hopened hconfig hway, ← contentPath?]
    exact hplanned.contentPath?_eq
  have hjob' (hlisted : IsListable after root) : prepare after root asked = .ok job :=
    h.prepare_eq hd hopened hafter hplanned hcontent hconfig hway
      (fun page => exists_read_of_renderAll hrender) (hlisted content hpath)
  refine ⟨⟨?_, fun hlisted => ?_⟩, ⟨?_, ?_⟩, fun houtput content' hcontent' => ?_⟩
  · rintro ⟨_, hbuild, -⟩
    exact isListable_of_build hbuild
  · obtain ⟨new, hopen, hnew⟩ := h.reopen_keeping hafter hspelled
    rw [build_of_prepare_ok (hjob' hlisted)]
    exact hnew.run_again h hd hplanned hcontent rfl hopen hlayout hrender
  · rintro ⟨again, hbuild, hsame⟩
    have hlisted := isListable_of_build hbuild
    refine ⟨hlisted, fun hfound => ?_⟩
    have hjob' := hjob' hlisted
    rw [build_of_prepare_ok hjob'] at hbuild
    obtain ⟨c', content', hplanned'⟩ := prepare_eq_ok hjob'
    obtain ⟨new, _, _, h', -⟩ := hplanned'.leaves hafter h.start_directory hspelled hbuild
    exact h.isSettled h' hsame hfound
  · rintro ⟨hlisted, hsettled⟩
    have hoff : d.spot job.output ≠ [] := fun hnil => hcontent.outside (hnil ▸ List.nil_prefix)
    obtain ⟨new, hopen, hnew⟩ := h.reopen_cleaning hafter hspelled hne hoff hsettled
    rw [build_of_prepare_ok (hjob' hlisted)]
    exact hnew.run_again h hd hplanned hcontent rfl hopen hlayout hrender
  · obtain rfl := Option.some.inj (hpath.symm.trans hcontent')
    exact h.longPath?_eq_none hd hafter hplanned hcontent
      (houtput content hplanned.contentPath?_eq)

/-- An output directory behind a directory that is missing. The first build leaves a file of an
earlier build where the path leads in the end, and the second one removes it. -/
theorem build_again_of_missing_way :
    let d : Disk := ⟨[], [(["project"], .directory), (["project", "content"], .directory),
      (["project", "content", "index.md"], .file (Utf8.encode "a".toList)),
      (["project", "folio.yaml"], .file (Utf8.encode "output_dir: a/../output".toList)),
      (["project", "output"], .directory), (["project", "output", "old.html"], .file [])]⟩
    let output : Path := "project/a/../output"
    (d.IsTree ∧ d.entry? d.here = some .directory) ∧
      (IsApart d output "project/content" ∧ IsApart d output "project/folio.yaml") ∧
      ∃ report after, build "project" none true d = (.ok report, after) ∧
        (∃ again, build "project" none false after = (.ok report, again) ∧
          ∀ q, again.entry? q = after.entry? q) ∧
        ¬ ∃ again, build "project" none true after = (.ok report, again) ∧
          ∀ q, again.entry? q = after.entry? q := by
  intro d output
  have hd : d.IsTree := by decide
  have hcontent : IsApart d output "project/content" := ⟨by decide, by decide⟩
  have hconfig : IsApart d output (Config.filePath "project") := ⟨by decide, by decide⟩
  have hpath : contentPath? d "project" = some "project/content" := by decide +kernel
  have hprepare : ((prepare d "project" none).toOption.map fun job => (job.output, job.targets)) =
      some (output, [("project/a/../output/index.html" : Path)]) := by decide +kernel
  have hbuilt : (build "project" none true d).1.isOk = true := by decide +kernel
  rcases hjob : prepare d "project" none with e | job
  · rw [hjob] at hprepare
    cases hprepare
  rcases hresult : build "project" none true d with ⟨e | report, after⟩ <;> rw [hresult] at hbuilt
  · cases hbuilt
  rw [hjob] at hprepare
  obtain ⟨houtput, htargets⟩ := Prod.mk.inj (Option.some.inj hprepare)
  have hway : d.spot (Config.filePath "project") ∉ d.trail job.output := by
    rw [houtput]
    decide
  have hasked : ∀ o : Path, none = some o → o.IsSpelled := fun _ h => nomatch h
  obtain ⟨hkeeping, hcleaning, houtside⟩ := build_again hd rfl (by decide) hasked hjob
    (fun content h => Option.some.inj (hpath.symm.trans h) ▸ houtput.symm ▸ hcontent)
    (houtput.symm ▸ hconfig) hway hresult
  have hlisted : IsListable after "project" := by
    refine houtside fun content h => ?_
    rw [Option.some.inj (hpath.symm.trans h).symm, houtput]
    exact ⟨by decide, by decide⟩
  refine ⟨⟨hd, rfl⟩, ⟨hcontent, hconfig⟩, report, after, rfl, hkeeping.mpr hlisted, fun h => ?_⟩
  have hmissing : d.locate job.output = .error .notFound := by
    rw [houtput]
    decide
  have howned := ((hcleaning.mp h).2 hmissing).owned ["project", "output", "old.html"]
  rw [houtput, htargets] at howned
  exact absurd (howned (by decide) (by decide)) (by decide)

end Pageloom.Site
