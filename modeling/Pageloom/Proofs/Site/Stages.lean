import Pageloom.Site.Build

/-!
# How far a build gets

A build breaks off at the first step that fails, and leaves the disk as it is then. Before the
output directory is opened nothing has changed; until the first page is written, nothing but that.

All that is proved about the outcomes of a build goes through the cases listed here.

## Main definitions

* `Site.RunsTo`: the outcomes of a job, each with the steps that lead to it.

## Main results

* `Site.runsTo_run`: a job has one of these outcomes.
* `Site.build_of_prepare_error`: without a job, nothing changes.
-/

namespace Pageloom.Site

variable {d : Disk} {root : Path} {asked : Option Path} {job : Job}

/-- What a job writes: the HTML of each page, to its file. -/
def Job.writes (job : Job) (rendered : List (Page × Rendered)) : List (Path × Text) :=
  job.targets.zip (rendered.map fun r => r.2.html)

/-- The outcomes of a job, with the steps that lead to them. -/
inductive RunsTo (clean : Bool) (job : Job) (d : Disk) : Except Fault Report × Disk → Prop
  /-- The output directory cannot be opened. -/
  | shut {f opened} (hopen : openOutput clean job.output d = (.error f, opened)) :
      RunsTo clean job d (.error (.disk f), opened)
  /-- There is no layout. -/
  | unset {f opened} (hopen : openOutput clean job.output d = (.ok (), opened))
      (hlayout : job.layout = .error f) : RunsTo clean job d (.error (.setting f), opened)
  /-- A page fails. -/
  | failed {e layout opened} (hopen : openOutput clean job.output d = (.ok (), opened))
      (hlayout : job.layout = .ok layout) (hrender : renderAll opened layout job.pages = .error e) :
      RunsTo clean job d (.error (.page e), opened)
  /-- A page cannot be written. -/
  | stopped {f layout rendered opened after}
      (hopen : openOutput clean job.output d = (.ok (), opened)) (hlayout : job.layout = .ok layout)
      (hrender : renderAll opened layout job.pages = .ok rendered)
      (hwrite : writeAll (job.writes rendered) opened = (.error f, after)) :
      RunsTo clean job d (.error (.disk f), after)
  /-- All pages are written. -/
  | done {layout rendered opened after}
      (hopen : openOutput clean job.output d = (.ok (), opened)) (hlayout : job.layout = .ok layout)
      (hrender : renderAll opened layout job.pages = .ok rendered)
      (hwrite : writeAll (job.writes rendered) opened = (.ok (), after)) :
      RunsTo clean job d (.ok ⟨job.output, rendered.map Prod.fst, job.targets⟩, after)

theorem runsTo_run (clean : Bool) (job : Job) (d : Disk) :
    RunsTo clean job d (run clean job d) := by
  rw [run]
  rcases hopen : openOutput clean job.output d with ⟨f | ⟨⟩, opened⟩
  · exact .shut hopen
  · cases hlayout : job.layout with
    | error f => exact .unset hopen hlayout
    | ok layout =>
      cases hrender : renderAll opened layout job.pages with
      | error e =>
        simp only [hrender]
        exact .failed hopen hlayout hrender
      | ok rendered =>
        simp only [hrender]
        rcases hwrite : writeAll (job.writes rendered) opened with ⟨f | ⟨⟩, after⟩ <;>
          rw [Job.writes] at hwrite <;> simp only [hwrite]
        · exact .stopped hopen hlayout hrender hwrite
        · exact .done hopen hlayout hrender hwrite

/-- A build that is not prepared changes nothing. -/
theorem build_of_prepare_error {f : Fault} (h : prepare d root asked = .error f) (clean : Bool) :
    build root asked clean d = (.error f, d) := by
  simp only [build, h]

theorem build_of_prepare_ok (h : prepare d root asked = .ok job) (clean : Bool) :
    build root asked clean d = run clean job d := by
  simp only [build, h]

end Pageloom.Site
