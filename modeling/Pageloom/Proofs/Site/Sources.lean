import Pageloom.Proofs.Disk.Files
import Pageloom.Proofs.Site.Clash
import Pageloom.Proofs.Site.Rendering
import Pageloom.Proofs.Site.Stages

/-!
# What a build does to the files of its project

The output directory is a setting like any other, and nothing keeps it apart from the directories
that a build reads. So a build that cleans its output may remove its own sources: the output
directory `.` is the project itself, and it is emptied before the first page is read.

What holds instead is exact. A file is gone exactly if the output is cleaned and its path leads to a
directory above the file, unless a page was written in the place of the file. All other files have
the bytes that they had before, whether the build succeeds or breaks off anywhere.

## Main definitions

* `Site.IsSource`: the configuration file of a project, and what is below its content directory.

## Main results

* `Site.file_build_iff`: the files after a build, off the places of the pages.
* `Site.build_keeps_source_iff`: when a source is still there.
* `Site.build_removes_sources`: a build that removes its sources.
-/

namespace Pageloom.Site

open Disk Place

variable {d : Disk} {root content output : Path} {asked : Option Path} {job : Job} {clean : Bool}
  {q : Place} {bytes : List UInt8}

/-! ### The output directory -/

/-- What is above a file on a tree is a directory. -/
theorem status_of_covers (hd : d.IsTree) (hfile : d.HasFile q) (h : d.Covers output q) :
    d.status output = .ok .directory := by
  obtain ⟨place, rest, hlocate, hne, rfl⟩ := h
  obtain ⟨bytes, hfile⟩ := hfile
  simp only [status, hlocate, hd.directory_of_below hne hfile]

/-- **The files once the output directory is opened**, or was to be: all but those below it if it
was to be cleaned. -/
theorem file_openOutput_iff (hd : d.IsTree) (clean : Bool) (output : Path) (q : Place)
    (bytes : List UInt8) :
    entry? (openOutput clean output d).2 q = some (.file bytes) ↔
      d.entry? q = some (.file bytes) ∧ ¬ (clean = true ∧ d.Covers output q) := by
  cases clean with
  | false => simpa [openOutput] using (sameFiles_makeDirectories d output).file_iff q bytes id
  | true =>
    have hcovers (h : d.exists? output ≠ .ok true) (hfile : d.entry? q = some (.file bytes)) :
        ¬ d.Covers output q := fun hcovers =>
      h (by simp only [exists?, status_of_covers hd ⟨bytes, hfile⟩ hcovers])
    rw [openOutput, if_pos rfl]
    cases hexists : d.exists? output with
    | error f => simpa using hcovers (by simp [hexists])
    | ok found =>
      cases found with
      | false =>
        rw [(sameFiles_makeDirectories d output).file_iff q bytes id]
        simpa using hcovers (by simp [hexists])
      | true =>
        have hremove := file_removeTree_iff hd output q bytes
        rcases hres : d.removeTree output with ⟨f | ⟨⟩, cleared⟩ <;> rw [hres] at hremove
        · simpa using hremove
        · rw [(sameFiles_makeDirectories cleared output).file_iff q bytes id]
          simpa using hremove

theorem here_openOutput (clean : Bool) (output : Path) (d : Disk) :
    (openOutput clean output d).2.here = d.here := by
  rw [openOutput]
  split
  · split
    · rfl
    · exact (sameFiles_makeDirectories d output).here
    · have hremove := here_removeTree d output
      rcases hres : d.removeTree output with ⟨f | ⟨⟩, cleared⟩ <;> rw [hres] at hremove
      · exact hremove
      · exact (sameFiles_makeDirectories cleared output).here.trans hremove
  · exact (sameFiles_makeDirectories d output).here

/-! ### The pages -/

/-- Writing a page leaves all files but its own, also if it fails. -/
theorem sameFiles_writePage (t : Path) (html : Text) (d : Disk) :
    d.SameFiles (d.spot t = ·) (writePage t html d).2 := by
  have hmake : d.SameFiles (d.spot t = ·) (d.makeDirectories t.parent).2 :=
    (sameFiles_makeDirectories d t.parent).mono fun _ h => h.elim
  rw [writePage]
  rcases hres : d.makeDirectories t.parent with ⟨f | ⟨⟩, way⟩ <;> rw [hres] at hmake
  · exact hmake
  · dsimp only
    cases hwrite : way.write t (Utf8.encode html) with
    | error f => exact hmake
    | ok new => exact hmake.trans (spot_of_here hmake.here t ▸ sameFiles_write hwrite)

/-- Writing pages leaves all files but theirs, up to where it fails. -/
theorem sameFiles_writeAll (jobs : List (Path × Text)) (d : Disk) :
    d.SameFiles (fun q => ∃ job ∈ jobs, d.spot job.1 = q) (writeAll jobs d).2 := by
  induction jobs generalizing d with
  | nil => exact .refl d _
  | cons job jobs ih =>
    obtain ⟨t, html⟩ := job
    have hfirst : d.SameFiles (fun q => ∃ job ∈ (t, html) :: jobs, d.spot job.1 = q)
        (writePage t html d).2 :=
      (sameFiles_writePage t html d).mono fun q hq => ⟨(t, html), .head jobs, hq⟩
    rw [writeAll]
    rcases hres : writePage t html d with ⟨f | ⟨⟩, way⟩ <;> rw [hres] at hfirst
    · exact hfirst
    · refine hfirst.trans ((ih way).mono ?_)
      rintro q ⟨job, hjob, rfl⟩
      exact ⟨job, .tail _ hjob, (spot_of_here hfirst.here job.1).symm⟩

/-! ### The build -/

theorem file_run_iff (hd : d.IsTree) (clean : Bool) (hq : ∀ t ∈ job.targets, d.spot t ≠ q)
    (bytes : List UInt8) :
    entry? (run clean job d).2 q = some (.file bytes) ↔
      d.entry? q = some (.file bytes) ∧ ¬ (clean = true ∧ d.Covers job.output q) := by
  rw [← file_openOutput_iff hd]
  have hhere := here_openOutput clean job.output d
  have hwrites (rendered : List (Page × Rendered)) (opened : Disk) (hhere : opened.here = d.here) :
      entry? (writeAll (job.writes rendered) opened).2 q = some (.file bytes) ↔
        opened.entry? q = some (.file bytes) := by
    refine (sameFiles_writeAll _ opened).file_iff q bytes ?_
    rintro ⟨j, hj, hspot⟩
    exact hq j.1 (List.of_mem_zip hj).1 ((spot_of_here hhere j.1).symm.trans hspot)
  have hrun := runsTo_run clean job d
  generalize run clean job d = outcome at hrun ⊢
  cases hrun with
  | shut hopen => rw [hopen]
  | unset hopen => rw [hopen]
  | failed hopen => rw [hopen]
  | stopped hopen _ _ hwrite =>
    rw [hopen] at hhere ⊢
    rw [← hwrites _ _ hhere, hwrite]
  | done hopen _ _ hwrite =>
    rw [hopen] at hhere ⊢
    rw [← hwrites _ _ hhere, hwrite]

/-- **The files after a build**, whatever its outcome, off the places of the pages. -/
theorem file_build_iff (hd : d.IsTree) (hjob : prepare d root asked = .ok job) (clean : Bool)
    (hq : ∀ t ∈ job.targets, d.spot t ≠ q) (bytes : List UInt8) :
    entry? (build root asked clean d).2 q = some (.file bytes) ↔
      d.entry? q = some (.file bytes) ∧ ¬ (clean = true ∧ d.Covers job.output q) := by
  rw [build_of_prepare_ok hjob]
  exact file_run_iff hd clean hq bytes

/-! ### Sources -/

/-- A source of a project: its configuration file, or something below its content directory. -/
def IsSource (d : Disk) (root : Path) (q : Place) : Prop :=
  d.locate (root.append (.parse Config.fileName)) = .ok q ∨
    ∃ c content, Config.load d root = .ok c ∧
      settingPath root c "content_dir" "content" = .ok content ∧ d.Covers content q

theorem isSource_of_below {place : Place} (h : contentPath? d root = some content)
    (hlocate : d.locate content = .ok place) (hbelow : isBelow place q) : IsSource d root q := by
  obtain ⟨c, hload, hcontent⟩ := contentPath?_eq_some h
  exact .inr ⟨c, content, hload, hcontent, (covers_iff_of_locate hlocate).mpr hbelow⟩

/-- All pages are written to files of one name. -/
theorem spot_of_mem_targets (hd : d.IsTree) (hjob : prepare d root asked = .ok job) {t : Path}
    (ht : t ∈ job.targets) : ∃ folder, d.spot t = folder ++ ["index.html".toList] := by
  obtain ⟨c, content, hplanned⟩ := prepare_eq_ok hjob
  have htargets := plan_eq_ok hd (hplanned.sources ▸ hplanned.targets)
  obtain ⟨page, -, rfl⟩ := List.mem_map.mp (htargets ▸ ht)
  refine ⟨follow (d.spot job.output) (folder content page), ?_⟩
  rw [spot, file, Path.below, follow_append, follow_append, follow_singleton,
    step_of_ne index_ne_up]
  rfl

/-- So the configuration file is never one of them. -/
theorem spot_ne_of_locate_config (hd : d.IsTree) (hjob : prepare d root asked = .ok job)
    (hq : d.locate (root.append (.parse Config.fileName)) = .ok q) {t : Path}
    (ht : t ∈ job.targets) : d.spot t ≠ q := by
  obtain ⟨folder, hfolder⟩ := spot_of_mem_targets hd hjob ht
  have hname : Path.parse Config.fileName = ⟨0, ["folio.yaml".toList]⟩ := by decide
  have hspot : q = d.spot root ++ ["folio.yaml".toList] := by
    rw [(locate_eq_ok hq).1, hname, Path.append, if_pos rfl, spot, follow_append,
      follow_singleton, step_of_ne (by decide)]
    rfl
  rw [hfolder, hspot]
  intro heq
  have hlast := congrArg List.getLast? heq
  rw [List.getLast?_concat, List.getLast?_concat] at hlast
  exact absurd hlast (by decide)

/-- **When a source is still there after a build**, whatever the outcome of the build. If nothing is
planned, nothing changes. If pages are planned, they are written to files `index.html`, which the
configuration file is not; and a source that is none of these files has kept its bytes exactly if it
is not below an output directory that was to be cleaned. -/
theorem build_keeps_source_iff (hd : d.IsTree) (root : Path) (asked : Option Path) (clean : Bool) :
    ∀ q bytes, IsSource d root q → d.entry? q = some (.file bytes) →
      (∀ f, prepare d root asked = .error f →
        entry? (build root asked clean d).2 q = some (.file bytes)) ∧
      ∀ job, prepare d root asked = .ok job →
        (∀ t ∈ job.targets, ∃ folder, d.spot t = folder ++ ["index.html".toList]) ∧
        (d.locate (root.append (.parse Config.fileName)) = .ok q →
          ∀ t ∈ job.targets, d.spot t ≠ q) ∧
        ((∀ t ∈ job.targets, d.spot t ≠ q) →
          (¬ (clean = true ∧ d.Covers job.output q) ↔
            entry? (build root asked clean d).2 q = some (.file bytes))) := by
  intro q bytes _ hfile
  refine ⟨fun f hf => ?_, fun job hjob => ⟨?_, ?_, fun hq => ?_⟩⟩
  · rw [build_of_prepare_error hf]
    exact hfile
  · exact fun t ht => spot_of_mem_targets hd hjob ht
  · exact fun hconfig t ht => spot_ne_of_locate_config hd hjob hconfig ht
  · rw [file_build_iff hd hjob clean hq, and_iff_right hfile]

/-- An output directory inside of the content directory. The source beside it stays, although the
build fails; the source in it is gone. -/
theorem build_keeps_source_of_output_in_content :
    let d : Disk := ⟨[], [(["project"], .directory), (["project", "content"], .directory),
      (["project", "content", "index.md"], .file (Utf8.encode "a".toList)),
      (["project", "content", "out"], .directory),
      (["project", "content", "out", "old.md"], .file (Utf8.encode "b".toList)),
      (["project", "folio.yaml"], .file (Utf8.encode "output_dir: content/out".toList))]⟩
    let after := (build "project" none true d).2
    d.IsTree ∧
      (IsSource d "project" ["project", "content", "index.md"] ∧
        after.entry? ["project", "content", "index.md"] =
          some (.file (Utf8.encode "a".toList))) ∧
      IsSource d "project" ["project", "content", "out", "old.md"] ∧
        after.entry? ["project", "content", "out", "old.md"] ≠
          some (.file (Utf8.encode "b".toList)) := by
  intro d after
  have hd : d.IsTree := by decide
  have hcontent : contentPath? d "project" = some "project/content" := by decide +kernel
  have hprepare : ((prepare d "project" none).toOption.map fun job => (job.output, job.targets)) =
      some (("project/content/out" : Path), [("project/content/out/index.html" : Path),
        ("project/content/out/out/old/index.html" : Path)]) := by decide +kernel
  have hlocate : d.locate "project/content" = .ok ["project", "content"] := by decide
  have hout : d.locate "project/content/out" = .ok ["project", "content", "out"] := by decide
  have hindex : IsSource d "project" ["project", "content", "index.md"] :=
    isSource_of_below hcontent hlocate (by decide)
  have hold : IsSource d "project" ["project", "content", "out", "old.md"] :=
    isSource_of_below hcontent hlocate (by decide)
  rcases hjob : prepare d "project" none with f | job <;> rw [hjob] at hprepare
  · cases hprepare
  obtain ⟨houtput, htargets⟩ := Prod.mk.inj (Option.some.inj hprepare)
  refine ⟨hd, ⟨hindex, ?_⟩, hold, ?_⟩
  · obtain ⟨-, hkeeps⟩ := build_keeps_source_iff hd "project" none true _ _ hindex rfl
    refine ((hkeeps job hjob).2.2 ?_).mp ?_
    · rw [htargets]
      decide
    · rw [houtput, covers_iff_of_locate hout]
      decide
  · obtain ⟨-, hkeeps⟩ := build_keeps_source_iff hd "project" none true _ _ hold rfl
    refine fun hafter => ((hkeeps job hjob).2.2 ?_).mpr hafter ⟨rfl, ?_⟩
    · rw [htargets]
      decide
    · rw [houtput, covers_iff_of_locate hout]
      decide

/-- An output directory that is the project itself. All sources are gone before a page is read. -/
theorem build_removes_sources :
    let d : Disk := ⟨[], [(["project"], .directory), (["project", "content"], .directory),
      (["project", "content", "index.md"], .file (Utf8.encode "a".toList)),
      (["project", "folio.yaml"], .file (Utf8.encode "output_dir: .".toList))]⟩
    d.IsTree ∧ ∀ q ∈ [(["project", "folio.yaml"] : Place), ["project", "content", "index.md"]],
      IsSource d "project" q ∧ d.HasFile q ∧ ¬ (build "project" none true d).2.HasFile q := by
  intro d
  have hcontent : contentPath? d "project" = some "project/content" := by decide +kernel
  have hlocate : d.locate "project/content" = .ok ["project", "content"] := by decide
  have hgone : ∀ q ∈ [(["project", "folio.yaml"] : Place), ["project", "content", "index.md"]],
      entry? (build "project" none true d).2 q = none := by decide +kernel
  refine ⟨by decide, fun q hq => ⟨?_, ?_, ?_⟩⟩
  · rcases List.mem_pair.mp hq with rfl | rfl
    · exact .inl (by decide)
    · exact isSource_of_below hcontent hlocate (by decide)
  · rcases List.mem_pair.mp hq with rfl | rfl <;> exact ⟨_, rfl⟩
  · rintro ⟨bytes, hfile⟩
    rw [hgone q hq] at hfile
    cases hfile

end Pageloom.Site
