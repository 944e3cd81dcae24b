import Pageloom.Proofs.Site.Clash
import Pageloom.Proofs.Site.Opening
import Pageloom.Proofs.Site.Order
import Pageloom.Proofs.Site.Pool
import Pageloom.Proofs.Site.Stages

/-!
# Builds with failing pages

Pages are loaded and rendered when the output directory is open, and none is written before all are
rendered. So if pages fail, the first of them is reported, in the order of the pages, and the disk
is as it was when the output directory was opened.

How that is depends on the opening. Without cleaning, there are at most new directories on the way
to the output directory. With cleaning, the output directory is empty if its path could be followed
to begin with. If a directory on the way was missing, the output directory is wherever the path
leads with that directory made, and nothing that stands there is removed.

## Main definitions

* `Site.IsFirstFailing`: a page is the first of some pages that fails.

## Main results

* `Site.isEmptyAt_openOutput_iff`: when a cleaned output directory is empty.
* `Site.build_of_failing_page`: what a build with failing pages comes to.
-/

namespace Pageloom.Site

open Disk

variable {d mid opened : Disk} {root content output page : Path} {asked : Option Path} {job : Job}
  {clean : Bool} {l : Layout} {sources : List Path} {f : Failure}

/-! ### The first page that fails -/

/-- The page fails, and other pages that fail come after it. -/
structure IsFirstFailing (d : Disk) (l : Layout) (sources : List Path) (page : Path) (f : Failure) :
    Prop where
  mem : page ∈ sources
  fails : FailsWith d l page f
  first : ∀ p ∈ sources, ∀ g, FailsWith d l p g → p = page ∨ page.before p

theorem not_failsWith_of_ok {r : Page × Rendered} (h : renderPage d l page = .ok r) :
    ¬ FailsWith d l page f := fun hf => by
  rw [renderPage_eq_error_iff.mpr ⟨f, rfl, hf⟩] at h
  cases h

/-- If a page fails, not all are rendered. -/
theorem exists_renderAll_eq_error (h : ∃ page ∈ sources, ∃ f, FailsWith d l page f) :
    ∃ e, renderAll d l sources = .error e := by
  induction sources with
  | nil =>
    obtain ⟨page, hpage, -⟩ := h
    cases hpage
  | cons source sources ih =>
    obtain ⟨page, hpage, f, hf⟩ := h
    rw [renderAll]
    rcases renderPage_cases d l source with ⟨r, hr⟩ | ⟨g, -, hg⟩
    · rcases List.mem_cons.mp hpage with rfl | hpage
      · exact absurd hf (not_failsWith_of_ok hr)
      · obtain ⟨e, he⟩ := ih ⟨page, hpage, f, hf⟩
        exact ⟨e, by simp only [hr, he, Except.map]⟩
    · exact ⟨_, by simp only [hg]; rfl⟩

/-- Of the pages of a directory, the first that fails is reported. -/
theorem exists_isFirstFailing (h : ∃ page ∈ pages d content, ∃ f, FailsWith opened l page f) :
    ∃ page f, IsFirstFailing opened l (pages d content) page f ∧
      renderAll opened l (pages d content) = .error ⟨page, .failed f⟩ := by
  obtain ⟨e, hrender⟩ := exists_renderAll_eq_error h
  obtain ⟨before, page, after, f, hsplit, hbefore, hf, rfl⟩ := renderAll_eq_error hrender
  refine ⟨page, f, ⟨by simp [hsplit], hf, fun p hp g hg => ?_⟩, hrender⟩
  rw [hsplit] at hp
  rcases List.mem_append.mp hp with hp | hp
  · obtain ⟨r, hr⟩ := hbefore p hp
    exact absurd hg (not_failsWith_of_ok hr)
  · rcases List.mem_cons.mp hp with rfl | hp
    · exact .inl rfl
    · exact eq_or_before_of_pages hsplit hp

/-! ### The output directory -/

/-- Once directories are made, the last of them is empty if there was nothing below it and the way
to it does not lead through what is below. -/
theorem empty_iff_of_opens (h : mid.Opens (mid.trail output) opened) :
    (∀ rest, rest ≠ [] → opened.entry? (mid.spot output ++ rest) = none) ↔
      (∀ q, isBelow (mid.spot output) q → mid.entry? q = none) ∧
        ∀ r ∈ mid.trail output, ¬ isBelow (mid.spot output) r := by
  constructor
  · intro hempty
    have hnone (q) (hq : isBelow (mid.spot output) q) : opened.entry? q = none := by
      obtain ⟨rest, hne, rfl⟩ := isBelow_iff.mp hq
      exact hempty rest hne
    have hway : ∀ r ∈ mid.trail output, ¬ isBelow (mid.spot output) r := fun r hr hbelow => by
      cases (hnone r hbelow).symm.trans (h.directory hr)
    refine ⟨fun q hq => ?_, hway⟩
    rw [← hnone q hq, h.entry, if_neg fun hmem => hway q hmem hq]
  · rintro ⟨hnone, hway⟩ rest hne
    have hbelow : isBelow (mid.spot output) (mid.spot output ++ rest) :=
      isBelow_iff.mpr ⟨rest, hne, rfl⟩
    rw [h.entry, if_neg fun hmem => hway _ hmem hbelow, hnone _ hbelow]

/-- Where a path leads to a free place, there is nothing below, and the way is outside. -/
theorem free_below_of_locate (hd : d.IsTree) (hlocate : d.locate output = .ok (d.spot output))
    (hfree : d.entry? (d.spot output) = none) :
    (∀ q, isBelow (d.spot output) q → d.entry? q = none) ∧
      ∀ r ∈ d.trail output, ¬ isBelow (d.spot output) r := by
  have hnone : ∀ q, isBelow (d.spot output) q → d.entry? q = none := by
    intro q hq
    obtain ⟨rest, hne, rfl⟩ := isBelow_iff.mp hq
    cases hentry : d.entry? (d.spot output ++ rest) with
    | none => rfl
    | some e => cases hfree.symm.trans (hd.directory_of_below hne hentry)
  refine ⟨hnone, fun r hr hbelow => ?_⟩
  rcases (locate_eq_ok hlocate).2.1 r hr with rfl | hdirectory
  · simp [isBelow_iff] at hbelow
  · cases (hnone r hbelow).symm.trans hdirectory

/-- **When a cleaned output directory is empty**: always, if its path could be followed, and else if
there was nothing where the path leads once it can be. -/
theorem isEmptyAt_openOutput_iff (hd : d.IsTree)
    (h : openOutput true output d = (.ok (), opened)) :
    IsEmptyAt opened output (d.spot output) ↔
      (d.locate output = .error .notFound →
        (∀ q, isBelow (d.spot output) q → d.entry? q = none) ∧
          ∀ r ∈ d.trail output, ¬ isBelow (d.spot output) r) := by
  have hopened := openOutput_eq_ok hd h
  have hiff : IsEmptyAt opened output (d.spot output) ↔
      ∀ rest, rest ≠ [] → opened.entry? (d.spot output ++ rest) = none :=
    ⟨IsEmptyAt.empty, fun hempty => ⟨hopened.locate, hopened.directory, hempty⟩⟩
  rw [hiff]
  rcases openOutput_true_cases h with ⟨cause, hstatus, hmake⟩ | ⟨cleared, hremove, hmake⟩
  · obtain ⟨husable, hfree, hopens⟩ := makeDirectories_eq_ok hmake
    rw [empty_iff_of_opens hopens]
    cases hlocate : d.locate output with
    | error cause => simp [cause_eq_notFound husable hfree hlocate]
    | ok place =>
      obtain rfl := (locate_eq_ok hlocate).1
      simpa using free_below_of_locate hd hlocate (entry?_eq_none_of_status hlocate hstatus)
  · obtain ⟨hlocate, hremoves, hway⟩ := removeTree_eq_ok hremove
    obtain ⟨-, -, hopens⟩ := makeDirectories_eq_ok hmake
    rw [← spot_of_here hremoves.here] at hremoves hway ⊢
    rw [← trail_of_here hremoves.here] at hway
    rw [empty_iff_of_opens hopens, hlocate]
    refine iff_of_true ⟨fun q hq => ?_, hway⟩ fun h => nomatch h
    obtain ⟨rest, -, rfl⟩ := isBelow_iff.mp hq
    exact hremoves.gone _ (List.prefix_append _ rest)

/-- **A build with failing pages** reports the first of them and writes none. The disk is as it was
when the output directory was opened, and with several workers the same failure is reported. A
cleaned output directory is there, and empty unless its path could not be followed before; without
cleaning, there are new directories on the way to it at most. Settings that cannot be written in a
layout are found out first. -/
theorem build_of_failing_page (hd : d.IsTree) (hjob : prepare d root asked = .ok job)
    (hopen : openOutput clean job.output d = (.ok (), opened)) :
    (∀ f, job.layout = .error f →
      build root asked clean d = (.error (.setting f), opened)) ∧
    (∀ l, job.layout = .ok l → (∃ page ∈ job.pages, ∃ f, FailsWith opened l page f) →
      ∃ page f, IsFirstFailing opened l job.pages page f ∧
        build root asked clean d = (.error (.page ⟨page, .failed f⟩), opened) ∧
        ∀ workers s, 0 < workers →
          Relation.ReflTransGen (Pool.Step workers opened l) (.start job.pages) s →
          (∀ a, s.answer? = some a → a = .error ⟨page, .failed f⟩) ∧
            ∃ s', Relation.ReflTransGen (Pool.Step workers opened l) s s' ∧
              s'.answer? = some (.error ⟨page, .failed f⟩)) ∧
    (clean = true → opened.locate job.output = .ok (d.spot job.output) ∧
      opened.entry? (d.spot job.output) = some .directory ∧
      (IsEmptyAt opened job.output (d.spot job.output) ↔
        (d.locate job.output = .error .notFound →
          (∀ q, isBelow (d.spot job.output) q → d.entry? q = none) ∧
            ∀ r ∈ d.trail job.output, ¬ isBelow (d.spot job.output) r))) ∧
    (clean = false → d.Opens (d.trail job.output) opened ∧
      ∀ q bytes, opened.entry? q = some (.file bytes) ↔ d.entry? q = some (.file bytes)) := by
  obtain ⟨c, content, hplanned⟩ := prepare_eq_ok hjob
  rw [build_of_prepare_ok hjob]
  refine ⟨fun f hlayout => ?_, fun l hlayout hfails => ?_, ?_, ?_⟩
  · simp only [run, hopen, hlayout]
  · rw [hplanned.sources] at hfails ⊢
    obtain ⟨page, f, hfirst, hrender⟩ := exists_isFirstFailing hfails
    refine ⟨page, f, hfirst, ?_, fun workers s hworkers hrun => ?_⟩
    · rw [← hplanned.sources] at hrender
      simp only [run, hopen, hlayout, hrender]
    · rw [← hrender]
      exact Pool.answer_of_reaches hworkers hrun
  · rintro rfl
    have hopened := openOutput_eq_ok hd hopen
    exact ⟨hopened.locate, hopened.directory, isEmptyAt_openOutput_iff hd hopen⟩
  · rintro rfl
    obtain ⟨-, hfree, hopens⟩ := makeDirectories_eq_ok hopen
    exact ⟨hopens, fun q bytes => hopens.file_iff hfree⟩

/-- A page with a bad header, and an output directory behind a directory that is missing. No page is
written, and the output directory is not empty. -/
theorem build_of_failing_page_of_missing_way :
    let d : Disk := ⟨[], [(["project"], .directory), (["project", "content"], .directory),
      (["project", "content", "index.md"], .file (Utf8.encode "---\nx".toList)),
      (["project", "folio.yaml"], .file (Utf8.encode "output_dir: a/../output".toList)),
      (["project", "output"], .directory), (["project", "output", "old.html"], .file [])]⟩
    let page : Path := "project/content/index.md"
    d.IsTree ∧ ∃ job l opened f, prepare d "project" none = .ok job ∧ job.layout = .ok l ∧
      openOutput true job.output d = (.ok (), opened) ∧ FailsWith opened l page f ∧
      build "project" none true d = (.error (.page ⟨page, .failed f⟩), opened) ∧
      ¬ IsEmptyAt opened job.output ["project", "output"] := by
  intro d page
  have hd : d.IsTree := by decide
  have hmissing : d.locate "project/a/../output" = .error .notFound := by decide
  have hbelow : isBelow (d.spot "project/a/../output") ["project", "output", "old.html"] := by
    decide
  have hprepare : ((prepare d "project" none).toOption.map fun job =>
      (job.output, job.pages, job.layout.toOption.isSome)) =
      some (("project/a/../output" : Path), [page], true) := by decide +kernel
  rcases hjob : prepare d "project" none with fault | job <;> rw [hjob] at hprepare
  · cases hprepare
  obtain ⟨output, pages, targets, layout⟩ := job
  simp only [Except.toOption, Option.map_some, Option.some.injEq, Prod.mk.injEq] at hprepare
  obtain ⟨rfl, rfl, hlayout⟩ := hprepare
  cases layout with
  | error fault => cases hlayout
  | ok l =>
    have hopens : (openOutput true "project/a/../output" d).1.toOption = some () := by
      decide +kernel
    have hread : (readPage (openOutput true "project/a/../output" d).2 page).toOption = none := by
      decide +kernel
    rcases hopen : openOutput true "project/a/../output" d with ⟨fault | ⟨⟩, opened⟩ <;>
      rw [hopen] at hopens hread
    · cases hopens
    rcases hfault : readPage opened page with f | loaded <;> rw [hfault] at hread
    · have hf : FailsWith opened l page f := .inl hfault
      obtain ⟨-, hpages, hclean, -⟩ := build_of_failing_page hd hjob hopen
      obtain ⟨first, g, hfirst, hbuild, -⟩ := hpages l rfl ⟨page, .head _, f, hf⟩
      obtain rfl := List.mem_singleton.mp hfirst.mem
      refine ⟨hd, _, l, opened, g, rfl, rfl, hopen, hfirst.fails, hbuild, fun hempty => ?_⟩
      obtain ⟨hfree, -⟩ := (hclean rfl).2.2.mp hempty hmissing
      exact absurd (hfree ["project", "output", "old.html"] hbelow) (by decide)
    · cases hread

end Pageloom.Site
