import Pageloom.Proofs.Site.Sources

/-!
# The footprint of a build

A build may break off at many points: before anything is planned, while the output directory is
removed or made, when a page fails, or between two writes. Wherever that is, the files it has
touched are among those it was going to touch: the places of the planned pages, and what is inside
of an output directory that is to be cleaned.

The places are those that the paths lead to on the disk, `..` included, so a page or an output
directory that is spelled in a roundabout way is no exception.

## Main definitions

* `Site.Job.IsInFootprint`: where a job may take a file away or change it.

## Main results

* `Site.build_stays_in_footprint`: a build leaves all other files, and makes files at the places of
  pages only.
-/

namespace Pageloom.Site

open Disk Place

variable {d : Disk} {root : Path} {asked : Option Path} {job : Job} {clean : Bool} {q : Place}
  {bytes : List UInt8}

/-- A place where a job may take a file away or change it: that of a planned page, or one inside of
an output directory that is to be cleaned. -/
def Job.IsInFootprint (job : Job) (clean : Bool) (d : Disk) (q : Place) : Prop :=
  (∃ t ∈ job.targets, d.spot t = q) ∨ (clean = true ∧ isBelow (d.spot job.output) q)

/-- What the path of the output directory covers is inside of the output directory. -/
theorem isBelow_of_covers {p : Path} (h : d.Covers p q) : isBelow (d.spot p) q := by
  obtain ⟨place, rest, hlocate, hne, rfl⟩ := h
  obtain rfl := (locate_eq_ok hlocate).1
  exact isBelow_iff.mpr ⟨rest, hne, rfl⟩

theorem file_of_not_isInFootprint (hd : d.IsTree) (hjob : prepare d root asked = .ok job)
    (hq : ¬ job.IsInFootprint clean d q) (hfile : d.entry? q = some (.file bytes)) :
    entry? (build root asked clean d).2 q = some (.file bytes) := by
  obtain ⟨hspot, hinside⟩ := not_or.mp hq
  refine (file_build_iff hd hjob clean (fun t ht heq => hspot ⟨t, ht, heq⟩) bytes).mpr
    ⟨hfile, fun ⟨hclean, hcovers⟩ => hinside ⟨hclean, isBelow_of_covers hcovers⟩⟩

theorem exists_target_of_new_file (hd : d.IsTree) (hjob : prepare d root asked = .ok job)
    (hnew : entry? (build root asked clean d).2 q = some (.file bytes))
    (hold : d.entry? q ≠ some (.file bytes)) : ∃ t ∈ job.targets, d.spot t = q := by
  by_contra hspot
  exact hold ((file_build_iff hd hjob clean (fun t ht heq => hspot ⟨t, ht, heq⟩) bytes).mp hnew).1

/-- **A build stays in its footprint**, whatever its outcome. If nothing is planned, the disk is as
before. Otherwise all files outside of the footprint of the job have the bytes that they had, and a
file that was not there before, or not with these bytes, is at the place of a planned page. -/
theorem build_stays_in_footprint (hd : d.IsTree) (root : Path) (asked : Option Path)
    (clean : Bool) :
    (∀ f, prepare d root asked = .error f → (build root asked clean d).2 = d) ∧
      ∀ job, prepare d root asked = .ok job → ∀ q bytes,
        (¬ job.IsInFootprint clean d q → d.entry? q = some (.file bytes) →
          entry? (build root asked clean d).2 q = some (.file bytes)) ∧
        ( entry? (build root asked clean d).2 q = some (.file bytes) →
          d.entry? q ≠ some (.file bytes) → ∃ t ∈ job.targets, d.spot t = q) := by
  refine ⟨fun f hf => ?_, fun job hjob q bytes => ⟨fun hq hfile => ?_, fun hnew hold => ?_⟩⟩
  · rw [build_of_prepare_error hf]
  · exact file_of_not_isInFootprint hd hjob hq hfile
  · exact exists_target_of_new_file hd hjob hnew hold

/-- A build that breaks off between two writes. The first page is there, the second one has no room;
an old file of the output directory, which is not cleaned, is as before. -/
theorem build_stays_in_footprint_of_stopped :
    let d : Disk := ⟨[], [(["project"], .directory), (["project", "content"], .directory),
      (["project", "content", "index.html.md"], .file (Utf8.encode "a".toList)),
      (["project", "content", "index.md"], .file (Utf8.encode "b".toList)),
      (["project", "folio.yaml"], .file (Utf8.encode "markdown: no".toList)),
      (["project", "output"], .directory),
      (["project", "output", "old.html"], .file (Utf8.encode "c".toList))]⟩
    let after := (build "project" none false d).2
    d.IsTree ∧ (build "project" none false d).1.toOption.isNone ∧
      ∃ job, prepare d "project" none = .ok job ∧
        (¬ job.IsInFootprint false d ["project", "output", "old.html"] ∧
          after.entry? ["project", "output", "old.html"] =
            some (.file (Utf8.encode "c".toList))) ∧
        after.entry? ["project", "output", "index.html", "index.html"] =
          some (.file (Utf8.encode "a".toList)) ∧
        ∃ t ∈ job.targets, d.spot t = ["project", "output", "index.html", "index.html"] := by
  intro d after
  have hd : d.IsTree := by decide
  have hfails : (build "project" none false d).1.toOption.isNone := by decide +kernel
  have hprepare : ((prepare d "project" none).toOption.map fun job => (job.output, job.targets)) =
      some (("project/output" : Path), [("project/output/index.html/index.html" : Path),
        ("project/output/index.html" : Path)]) := by decide +kernel
  have hpage : after.entry? ["project", "output", "index.html", "index.html"] =
      some (.file (Utf8.encode "a".toList)) := by decide +kernel
  rcases hjob : prepare d "project" none with f | job <;> rw [hjob] at hprepare
  · cases hprepare
  obtain ⟨houtput, htargets⟩ := Prod.mk.inj (Option.some.inj hprepare)
  have hout : ¬ job.IsInFootprint false d ["project", "output", "old.html"] := by
    rw [Job.IsInFootprint, houtput, htargets]
    decide
  obtain ⟨-, hstays⟩ := build_stays_in_footprint hd "project" none false
  exact ⟨hd, hfails, job, rfl, ⟨hout, (hstays job hjob _ _).1 hout rfl⟩, hpage,
    (hstays job hjob _ _).2 hpage (by decide)⟩

end Pageloom.Site
