import Mathlib.Data.List.Nodup
import Pageloom.Proofs.Site.Planning
import Pageloom.Proofs.Site.Rendering
import Pageloom.Proofs.Site.Stages

/-!
# Builds that are refused

A build is refused if its configuration is invalid, if there is nothing where its content should be,
or if two of its pages have one file. All of this is found out before the output directory is
touched, so a build that is refused leaves the disk as it was, and the site of the last build with
it.

One missing content directory goes by another name. Where the path is longer than any that is
followed, or a component of it is longer than any name on a disk, there can be no directory either,
but the disk is asked and its fault is reported in place of the refusal. In the same way the pages
cannot be listed if something lies so deep in the content directory that its path is too long.

## Main definitions

* `Site.Fault.IsRefusal`: the faults of a build that is refused.
* `Site.absence`: the fault for a content directory that is missing.

## Main results

* `Site.build_refused`: refusals change nothing, and when they come.
-/

namespace Pageloom.Site

open Disk

variable {d after : Disk} {root content output p q : Path} {asked : Option Path} {c : Config}
  {job : Job} {clean : Bool} {f : Fault} {cause : Cause} {e : Entry} {r : PageError}

/-- The configuration is invalid, there is no content, or the file of a page is taken. -/
def Fault.IsRefusal : Fault → Prop
  | .config (.invalid _) => True
  | .noContent _ => True
  | .page ⟨_, .taken _ _⟩ => True
  | _ => False

/-! ### Refusals change nothing -/

/-- No step after the plan fails with a refusal. -/
theorem not_isRefusal_of_run (h : run clean job d = (.error f, after)) : ¬ f.IsRefusal := by
  have hrun := runsTo_run clean job d
  rw [h] at hrun
  cases hrun with
  | shut => exact id
  | unset => exact id
  | failed _ _ hrender =>
    obtain ⟨-, -, -, -, -, -, -, rfl⟩ := renderAll_eq_error hrender
    exact id
  | stopped => exact id

theorem eq_of_isRefusal (h : build root asked clean d = (.error f, after)) (hf : f.IsRefusal) :
    after = d := by
  cases hprepare : prepare d root asked with
  | error fault =>
    rw [build_of_prepare_error hprepare] at h
    exact (Prod.mk.inj h).2.symm
  | ok job =>
    rw [build_of_prepare_ok hprepare] at h
    exact absurd hf (not_isRefusal_of_run h)

/-! ### When they come -/

/-- The fault for a content directory that is missing: a refusal, unless its path is too long or a
name in it is. -/
def absence (content : Path) (cause : Cause) : Fault :=
  if cause = .nameTooLong then .disk ⟨.nameTooLong, content⟩ else .noContent content

theorem exists?_of_error (h : d.status p = .error cause) :
    d.exists? p = if cause = .nameTooLong then .error ⟨.nameTooLong, p⟩ else .ok false := by
  cases cause <;> simp only [exists?, h] <;> rfl

theorem prepare_of_absent (hload : Config.load d root = .ok c)
    (hcontent : settingPath root c "content_dir" "content" = .ok content)
    (hstatus : d.status content = .error cause) :
    prepare d root asked = .error (absence content cause) := by
  rw [prepare, bind_of_ok (mapError_eq_ok.mpr hload), bind_of_ok hcontent,
    exists?_of_error hstatus, absence]
  split <;> rfl

/-- The rest of the first step, once there is content. -/
theorem prepare_of_present (hload : Config.load d root = .ok c)
    (hcontent : settingPath root c "content_dir" "content" = .ok content)
    (hstatus : d.status content = .ok e) :
    prepare d root asked = outputPath root c asked >>= fun output =>
      (listing d content).mapError .disk >>= fun pages =>
        match plan content output pages with
        | .ok targets => .ok ⟨output, pages, targets, Config.layout? c⟩
        | .error (.page e) => .error (.page e)
        | .error (.notBelow e) => .error (.notBelow e) := by
  have hexists : d.exists? content = .ok true := by simp only [exists?, hstatus]
  rw [prepare, bind_of_ok (mapError_eq_ok.mpr hload), bind_of_ok hcontent,
    bind_of_ok (mapError_eq_ok.mpr hexists)]
  rfl

/-- Two pages with one file keep a plan from being made. -/
theorem exists_reports_of_target_eq (hd : d.IsTree) (hp : p ∈ pages d content)
    (hq : q ∈ pages d content) (hne : p ≠ q)
    (htarget : target content output p = target content output q) :
    ∃ r, Reports content output (pages d content) r ∧
      plan content output (pages d content) = .error (.page r) := by
  rw [target_of_mem_pages hd hp, target_of_mem_pages hd hq] at htarget
  rcases plan_pages_cases hd content output with ⟨hnodup, -⟩ | hrefused
  · exact absurd (List.inj_on_of_nodup_map hnodup hp hq (Except.ok.inj htarget)) hne
  · exact hrefused

/-- **A build that is refused changes nothing.** And it is refused whenever there is a configuration
and nothing where its content should be, or else two pages of the content have one file; the state
of the output directory makes no difference to this. The exceptions are the disk's faults: a content
directory with a path or a name that is too long, and pages that cannot be listed because a path
below it is. -/
theorem build_refused (hd : d.IsTree) (root : Path) (asked : Option Path) (clean : Bool) :
    (∀ f after, build root asked clean d = (.error f, after) → f.IsRefusal → after = d) ∧
      ∀ c content, Config.load d root = .ok c →
        settingPath root c "content_dir" "content" = .ok content →
        (∀ cause, d.status content = .error cause →
          build root asked clean d = (.error (absence content cause), d) ∧
            (cause = .nameTooLong →
              isLongPath content ∨ ∃ part ∈ content.components, isTooLong part)) ∧
        ∀ e output, d.status content = .ok e → outputPath root c asked = .ok output →
          (∀ f, listing d content = .error f →
            build root asked clean d = (.error (.disk f), d) ∧
              ∃ p e, (p, e) ∈ d.under content ∧ isLongPath p ∧ f = ⟨.nameTooLong, p⟩) ∧
          ∀ ps, listing d content = .ok ps → ∀ p ∈ ps, ∀ q ∈ ps, p ≠ q →
            target content output p = target content output q →
            ∃ r, Reports content output ps r ∧
              build root asked clean d = (.error (.page r), d) := by
  refine ⟨fun f after h hf => eq_of_isRefusal h hf, fun c content hload hcontent => ⟨?_, ?_⟩⟩
  · intro cause hstatus
    refine ⟨build_of_prepare_error (prepare_of_absent hload hcontent hstatus) clean, ?_⟩
    rintro rfl
    exact isLong_of_status hstatus
  · intro e output hstatus houtput
    have hprepare := (prepare_of_present hload hcontent hstatus).trans (bind_of_ok houtput)
    refine ⟨fun f hlisting => ?_, fun ps hlisting p hp q hq hne htarget => ?_⟩
    · rw [hlisting] at hprepare
      exact ⟨build_of_prepare_error hprepare clean, exists_isLongPath_of_listing hlisting⟩
    · rw [hlisting] at hprepare
      obtain ⟨-, rfl⟩ := listing_eq_ok_iff.mp hlisting
      obtain ⟨r, hr, hplan⟩ := exists_reports_of_target_eq hd hp hq hne htarget
      refine ⟨r, hr, build_of_prepare_error (hprepare.trans ?_) clean⟩
      rw [bind_of_ok (mapError_eq_ok.mpr rfl), hplan]

/-- A content directory with a name of 256 characters. There is none, and the build fails with the
disk's fault. -/
theorem build_of_long_content_name :
    let d : Disk := ⟨[], [(["project"], .directory), (["project", "folio.yaml"],
      .file (Utf8.encode ("content_dir: ".toList ++ List.replicate 256 'a')))]⟩
    let content : Path := ⟨0, ["project".toList, List.replicate 256 'a']⟩
    d.IsTree ∧ d.status content = .error .nameTooLong ∧
      build "project" none true d = (.error (.disk ⟨.nameTooLong, content⟩), d) := by
  intro d content
  have hd : d.IsTree := by decide +kernel
  have hsetting : contentPath? d "project" = some content := by decide +kernel
  have hstatus : d.status content = .error .nameTooLong := by decide +kernel
  obtain ⟨c, hload, hcontent⟩ := contentPath?_eq_some hsetting
  obtain ⟨-, hwhen⟩ := build_refused hd "project" none true
  exact ⟨hd, hstatus, ((hwhen c content hload hcontent).1 _ hstatus).1⟩

end Pageloom.Site
