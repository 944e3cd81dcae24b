import Mathlib.Data.List.Nodup
import Pageloom.Proofs.Site.Clash
import Pageloom.Proofs.Site.Opening
import Pageloom.Proofs.Site.Rendering
import Pageloom.Proofs.Site.Stages

/-!
# Clean builds

What a clean build leaves behind when it succeeds: in the output directory there are the pages of
the site and no other files, each page as it is rendered on the disk that the build found.

The exception is an output directory that could not be found because a directory on the way to it
was missing. It is not cleaned, and the files that stand where the path leads in the end stay beside
the pages.

## Main definitions

* `Site.IsBuilt`: what a clean build leaves.

## Main results

* `Site.run_eq_ok`: what is known of the steps of a build.
* `Site.build_clean_exact`: the files below the output directory after a clean build.
-/

namespace Pageloom.Site

open Disk Place

variable {d new after : Disk} {content output page root : Path} {asked : Option Path} {job : Job}
  {c : Config} {report : Report} {place : Place} {bytes : List UInt8} {jobs : List (Path × Text)}

/-! ### The steps -/

theorem run_eq_ok (h : run true job d = (.ok report, after)) :
    ∃ opened layout rendered, openOutput true job.output d = (.ok (), opened) ∧
      job.layout = .ok layout ∧ renderAll opened layout job.pages = .ok rendered ∧
      writeAll (job.targets.zip (rendered.map fun r => r.2.html)) opened = (.ok (), after) ∧
      report = ⟨job.output, rendered.map Prod.fst, job.targets⟩ := by
  have hrun := runsTo_run true job d
  rw [h] at hrun
  cases hrun with
  | done hopen hlayout hrender hwrite =>
    exact ⟨_, _, _, hopen, hlayout, hrender, hwrite, rfl⟩

/-! ### Reading the pages -/

/-- A page that can still be read has the bytes that it had before. -/
theorem Opened.read_of_mem_pages (h : Opened d output place new) (hd : d.IsTree)
    (hpage : page ∈ pages d content) (hread : new.read page = .ok bytes) :
    d.read page = .ok bytes := by
  obtain ⟨hfound, hentry⟩ := read_eq_ok_iff.mp hread
  rw [spot_of_here h.here] at hentry
  refine read_eq_ok_iff.mpr ⟨?_, ((h.file_iff _ _).mp hentry).1⟩
  obtain ⟨base, rest, e, hbase, -, hne, hmem, -, rfl⟩ :=
    mem_filesBelow_iff.mp (mem_pages.mp hpage).1
  have he := hd.entry?_eq_of_mem hmem (List.append_ne_nil_of_right_ne_nil base hne)
  have hlocate := hd.locate_below hbase he (locate_eq_ok hfound).2.2.short
  rw [hlocate, (locate_eq_ok hlocate).1]

/-! ### The places of the files -/

/-- Without a stem that leads up, the file of a page is below the output directory. -/
theorem spot_file (hd : d.IsTree) (hpage : page ∈ pages d content)
    (hstem : page.stem ≠ "..".toList) (new : Disk) (output : Path) :
    new.spot (file content output page) =
      new.spot output ++ (folder content page ++ ["index.html".toList]) := by
  obtain ⟨dirs, name, rfl, hnames⟩ := exists_of_mem_pages hd hpage
  rcases folder_below_cases content hnames with ⟨hfolder, -⟩ | ⟨-, hup⟩
  · refine (follow_append _ _ _).trans (follow_of_names fun hmem => ?_)
    exact (List.mem_append.mp hmem).elim hfolder fun h =>
      index_ne_up (List.mem_singleton.mp h).symm
  · exact absurd hup hstem

/-- So no two files are at one place. -/
theorem nodup_map_spot_file (hd : d.IsTree) (hstem : ∀ page ∈ pages d content,
    page.stem ≠ "..".toList) (h : ((pages d content).map (file content output)).Nodup)
    (new : Disk) : (((pages d content).map (file content output)).map new.spot).Nodup := by
  refine List.Nodup.map_on ?_ h
  intro t ht u hu heq
  obtain ⟨p, hp, rfl⟩ := List.mem_map.mp ht
  obtain ⟨q, hq, rfl⟩ := List.mem_map.mp hu
  rw [spot_file hd hp (hstem p hp), spot_file hd hq (hstem q hq)] at heq
  exact congrArg output.below (List.append_cancel_left heq)

/-! ### The site -/

/-- Where there are directories all the way, a path leads to its end. -/
theorem locate_of_directories {p : Path} (husable : IsUsablePath p)
    (hdirs : ∀ q ∈ d.trail p, d.entry? q = some .directory) : d.locate p = .ok (d.spot p) :=
  (Opens.of_directories hdirs).locate husable

/-- The output directory is where it was opened. -/
theorem Opened.locate_of_wrote (h : Opened d output place new) (hwrote : Wrote new jobs after) :
    after.locate output = .ok place := by
  obtain rfl := (locate_eq_ok h.locate).1
  rw [← spot_of_here hwrote.here]
  refine locate_of_directories h.usable fun q hq => (hwrote.directory_iff q).mpr (.inr ?_)
  rw [trail_of_here hwrote.here] at hq
  rcases (locate_eq_ok h.locate).2.1 q hq with rfl | hdirectory
  · exact h.directory
  · exact hdirectory

/-- A page is where it was written to. -/
theorem Wrote.locate (h : Wrote new jobs after) {job : Path × Text}
    (hjob : job ∈ jobs) (husable : IsUsablePath job.1) :
    after.locate job.1 = .ok (new.spot job.1) := by
  rw [← spot_of_here h.here]
  refine locate_of_opens husable (Opens.of_directories fun q hq => ?_)
  rw [trail_of_here h.here] at hq
  exact (h.directory_iff q).mpr (.inl ⟨job, hjob, hq⟩)

theorem Wrote.read (h : Wrote new jobs after) {job : Path × Text}
    (hjob : job ∈ jobs) (husable : IsUsablePath job.1) :
    after.read job.1 = .ok (Utf8.encode job.2) := by
  rw [read_eq_ok_iff, spot_of_here h.here]
  exact ⟨h.locate hjob husable, (h.file_iff _ _).mpr (.inl ⟨job, hjob, rfl, rfl⟩)⟩

theorem Wrote.forall₂_read {targets : List Path} {rendered : List (Page × Rendered)}
    (h : Wrote new (targets.zip (rendered.map fun r => r.2.html)) after)
    (husable : ∀ j ∈ targets.zip (rendered.map fun r => r.2.html), IsUsablePath j.1)
    (hlength : targets.length = rendered.length) :
    List.Forall₂ (fun t r => after.read t = .ok (Utf8.encode r.2.html)) targets rendered := by
  refine List.forall₂_iff_zip.mpr ⟨hlength, fun {t r} hmem => ?_⟩
  have hjob : (t, r.2.html) ∈ targets.zip (rendered.map fun r => r.2.html) := by
    rw [List.zip_map_right]
    exact List.mem_map.mpr ⟨(t, r), hmem, rfl⟩
  exact h.read hjob (husable _ hjob)

/-- The files below the output directory are those that were written, and those that were there and
could not be found. -/
theorem Opened.hasFile_iff (h : Opened d output place new)
    (hwrote : Wrote new jobs after) (husable : ∀ job ∈ jobs, IsUsablePath job.1)
    (rest : List Text) :
    after.HasFile (place ++ rest) ↔
      (∃ job ∈ jobs, after.locate job.1 = .ok (place ++ rest)) ∨
        d.locate output = .error .notFound ∧ d.HasFile (place ++ rest) := by
  have hspot : ∀ job ∈ jobs, after.locate job.1 = .ok (place ++ rest) ↔
      new.spot job.1 = place ++ rest := fun job hjob => by
    rw [hwrote.locate hjob (husable job hjob), Except.ok.injEq]
  constructor
  · rintro ⟨bytes, hfile⟩
    rcases (hwrote.file_iff _ _).mp hfile with ⟨job, hjob, heq, -⟩ | ⟨-, hfile⟩
    · exact .inl ⟨job, hjob, (hspot job hjob).mpr heq⟩
    · obtain ⟨hfile, hmissing⟩ := (h.file_iff _ _).mp hfile
      exact .inr ⟨hmissing (List.prefix_append place rest), bytes, hfile⟩
  · by_cases hat : ∃ job ∈ jobs, new.spot job.1 = place ++ rest
    · obtain ⟨job, hjob, heq⟩ := hat
      exact fun _ => ⟨_, (hwrote.file_iff _ _).mpr (.inl ⟨job, hjob, heq, rfl⟩)⟩
    · rintro (⟨job, hjob, hlocate⟩ | ⟨hmissing, bytes, hfile⟩)
      · exact absurd ⟨job, hjob, (hspot job hjob).mp hlocate⟩ hat
      · push Not at hat
        exact ⟨bytes, (hwrote.file_iff _ _).mpr
          (.inr ⟨hat, (h.file_iff _ _).mpr ⟨hfile, fun _ => hmissing⟩⟩)⟩

/-- Pages that are rendered on the disk that was opened are so on the disk before. -/
theorem Opened.forall₂_renderPage (h : Opened d output place new) (hd : d.IsTree) {l : Layout}
    {rendered : List (Page × Rendered)}
    (hrendered : List.Forall₂ (fun page r => renderPage new l page = .ok r)
      (pages d content) rendered) :
    List.Forall₂ (fun page r => renderPage d l page = .ok r) (pages d content) rendered := by
  have hpages := (List.forall₂_and_left _ _).mpr ⟨fun page hpage => hpage, hrendered⟩
  refine hpages.imp fun page r => ?_
  rintro ⟨hpage, hr⟩
  obtain ⟨bytes, hread⟩ := exists_read_of_renderPage hr
  rw [← renderPage_congr (hread.trans (h.read_of_mem_pages hd hpage hread).symm), hr]

theorem IsPlanned.targets_eq (h : IsPlanned d root asked c content job) (hd : d.IsTree) :
    job.targets = (pages d content).map (file content job.output) ∧ job.targets.Nodup := by
  have htargets := h.targets
  rw [h.sources] at htargets
  obtain ⟨hnodup, heq⟩ :=
    (plan_eq_ok_iff fun _ hpage => target_of_mem_pages hd hpage job.output).mp htargets
  exact ⟨heq, heq ▸ hnodup⟩

/-- If the pages of a plan were written, they are at places of their own. -/
theorem IsPlanned.wrote (h : IsPlanned d root asked c content job) (hd : d.IsTree)
    (hstem : ∀ page ∈ pages d content, page.stem ≠ "..".toList)
    {htmls : List Text} (hlength : htmls.length = job.targets.length)
    (hwrite : writeAll (job.targets.zip htmls) new = (.ok (), after)) :
    (∀ j ∈ job.targets.zip htmls, IsUsablePath j.1) ∧
      Wrote new (job.targets.zip htmls) after := by
  obtain ⟨hfiles, hnodup⟩ := h.targets_eq hd
  have hfst : (job.targets.zip htmls).map Prod.fst = job.targets := List.map_fst_zip hlength.ge
  refine ⟨(canWrite_of_writeAll hwrite).2, writeAll_eq_ok ?_ hwrite⟩
  have hmap : (job.targets.zip htmls).map (fun j => new.spot j.1) = job.targets.map new.spot := by
    rw [← hfst, List.map_map, hfst]
    rfl
  rw [hmap, hfiles]
  exact nodup_map_spot_file hd hstem (hfiles ▸ hnodup) new

/-- What a clean build leaves. The output directory is at a place, and the pages are written below
it. -/
structure IsBuilt (d : Disk) (job : Job) (rendered : List (Page × Rendered)) (place : Place)
    (report : Report) (after : Disk) : Prop where
  /-- Each page is rendered as it is alone, on the disk that the build found. -/
  alone : ∃ layout, job.layout = .ok layout ∧
    List.Forall₂ (fun page r => renderPage d layout page = .ok r) job.pages rendered
  pages : report.pages = rendered.map Prod.fst
  written : report.written = job.targets
  nodup : report.written.Nodup
  length : report.written.length = report.pages.length
  read : List.Forall₂ (fun t r => after.read t = .ok (Utf8.encode r.2.html)) report.written rendered
  output : report.output = job.output ∧ after.locate report.output = .ok place
  below : ∀ t ∈ report.written, ∃ rest, rest ≠ [] ∧ after.locate t = .ok (place ++ rest)
  /-- Other files are there only if the output directory could not be followed. -/
  exact : ∀ rest, after.HasFile (place ++ rest) ↔
    (∃ t ∈ report.written, after.locate t = .ok (place ++ rest)) ∨
      d.locate report.output = .error .notFound ∧ d.HasFile (place ++ rest)

/-- **A clean build leaves the pages of the site**, one for each page of the content directory and
in their order. Each holds what the page is rendered to alone, and below the output directory there
is no other file. The exception are files that the path of the output directory did not lead to
before the build made a directory on its way. -/
theorem build_clean_exact (hd : d.IsTree) (hjob : prepare d root asked = .ok job)
    (hstem : ∀ page ∈ job.pages, page.stem ≠ "..".toList)
    (hbuild : build root asked true d = (.ok report, after)) :
    (∃ c content, IsPlanned d root asked c content job) ∧
      ∃ rendered place, IsBuilt d job rendered place report after := by
  obtain ⟨c, content, hplanned⟩ := prepare_eq_ok hjob
  refine ⟨⟨c, content, hplanned⟩, ?_⟩
  simp only [build, hjob] at hbuild
  obtain ⟨opened, layout, rendered, hopen, hlayout, hrender, hwrite, rfl⟩ := run_eq_ok hbuild
  have hopened := openOutput_eq_ok hd hopen
  have hrendered := hopened.forall₂_renderPage hd (hplanned.sources ▸ renderAll_eq_ok hrender)
  have hstem : ∀ page ∈ pages d content, page.stem ≠ "..".toList := hplanned.sources ▸ hstem
  obtain ⟨hfiles, hnodup⟩ := hplanned.targets_eq hd
  have hlength : job.targets.length = rendered.length := by
    rw [hfiles, List.length_map, hrendered.length_eq]
  obtain ⟨husable, hwrote⟩ :=
    hplanned.wrote hd hstem (by simp [hlength]) hwrite
  have hmem (t : Path) : t ∈ job.targets ↔
      ∃ j ∈ job.targets.zip (rendered.map fun r => r.2.html), j.1 = t := by
    rw [← List.mem_map, List.map_fst_zip (by simp [hlength])]
  refine ⟨rendered, d.spot job.output, ?_⟩
  exact {
    alone := ⟨layout, hlayout, hplanned.sources ▸ hrendered⟩
    pages := rfl
    written := rfl
    nodup := hnodup
    length := by simp [hlength]
    read := hwrote.forall₂_read husable hlength
    output := ⟨rfl, hopened.locate_of_wrote hwrote⟩
    below := by
      intro t ht
      obtain ⟨j, hj, rfl⟩ := (hmem t).mp ht
      obtain ⟨page, hpage, hpath⟩ := List.mem_map.mp (hfiles ▸ ht)
      refine ⟨folder content page ++ ["index.html".toList], by simp, ?_⟩
      rw [hwrote.locate hj (husable j hj), ← hpath, spot_file hd hpage (hstem page hpage),
        spot_of_here hopened.here]
    exact := by
      intro rest
      rw [hopened.hasFile_iff hwrote husable]
      simp only [hmem, exists_exists_and_eq_and] }

/-- An output directory behind a directory that is missing. It is not cleaned, and a file of an
earlier build stays. -/
theorem build_clean_of_missing_way :
    let d : Disk := ⟨[], [(["project"], .directory), (["project", "content"], .directory),
      (["project", "content", "index.md"], .file (Utf8.encode "a".toList)),
      (["project", "folio.yaml"], .file (Utf8.encode "output_dir: a/../output".toList)),
      (["project", "output"], .directory), (["project", "output", "old.html"], .file [])]⟩
    let output : Path := "project/a/../output"
    d.IsTree ∧ ∃ job report after, prepare d "project" none = .ok job ∧
      (∀ page ∈ job.pages, page.stem ≠ "..".toList) ∧
      build "project" none true d = (.ok report, after) ∧
      after.locate output = .ok ["project", "output"] ∧
      after.HasFile ["project", "output", "old.html"] ∧
      ∀ t ∈ report.written, after.locate t ≠ .ok ["project", "output", "old.html"] := by
  intro d output
  have hd : d.IsTree := by decide
  have hprepare : ((prepare d "project" none).toOption.map fun job => (job.output, job.pages)) =
      some (output, [("project/content/index.md" : Path)]) := by decide +kernel
  have hbuild : ((build "project" none true d).1.toOption.map Report.written) =
      some [("project/a/../output/index.html" : Path)] := by decide +kernel
  have hlocate : (build "project" none true d).2.locate output = .ok ["project", "output"] := by
    decide +kernel
  have hindex : (build "project" none true d).2.locate "project/a/../output/index.html" =
      .ok ["project", "output", "index.html"] := by decide +kernel
  rcases hjob : prepare d "project" none with e | job
  · rw [hjob] at hprepare
    cases hprepare
  rcases hresult : build "project" none true d with ⟨e | report, after⟩ <;>
    rw [hresult] at hbuild hlocate hindex
  · cases hbuild
  rw [hjob] at hprepare
  obtain ⟨houtput, hpages⟩ := Prod.mk.inj (Option.some.inj hprepare)
  have hwritten : report.written = ["project/a/../output/index.html"] := Option.some.inj hbuild
  have hstem : ∀ page ∈ job.pages, page.stem ≠ "..".toList := by
    rw [hpages]
    decide
  obtain ⟨-, rendered, place, hbuilt⟩ := build_clean_exact hd hjob hstem hresult
  have hplace : place = ["project", "output"] := by
    have h := hbuilt.output.2
    rw [hbuilt.output.1, houtput] at h
    exact Except.ok.inj (h.symm.trans hlocate)
  subst hplace
  refine ⟨hd, job, report, after, rfl, hstem, rfl, hlocate, ?_, ?_⟩
  · refine (hbuilt.exact ["old.html".toList]).mpr (.inr ⟨?_, [], ?_⟩)
    · rw [hbuilt.output.1, houtput]
      decide
    · decide
  · rw [hwritten]
    intro t ht
    rw [List.mem_singleton.mp ht]
    exact fun h => absurd (hindex.symm.trans h) (by decide)

end Pageloom.Site
