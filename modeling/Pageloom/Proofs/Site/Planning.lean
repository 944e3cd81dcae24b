import Pageloom.Proofs.Site.Target

/-!
# Plans and refusals

A plan gives each page its file, or it refuses two pages that have one file. The pages are taken in
order, so the page that is reported is the first whose file is that of a page before it, and with it
goes that other page.

## Main definitions

* `Site.IsTakenBy`: a page is the first whose file is taken, by another page.
* `Site.Reports`: an error is the report on such a page.

## Main results

* `Site.plan_cases`: the two outcomes of a plan.
* `Site.plan_file_cases`, `Site.plan_eq_ok_iff`: the files of a plan, and the report on one that is
  refused.
* `Site.plan_pages_cases`: both for the pages of a directory.
-/

namespace Pageloom.Site

variable {d : Disk} {content output page other : Path} {f : Path → Path}
  {seen ps targets : List Path}

/-- The page is the first of some pages whose file is taken, and `other` takes it. -/
def IsTakenBy (f : Path → Path) (ps : List Path) (page other : Path) : Prop :=
  ∃ before after, ps = before ++ page :: after ∧ (before.map f).Nodup ∧
    other ∈ before ∧ f other = f page

theorem lookup_files_eq_some {t : Path}
    (h : (seen.map fun p => (f p, p)).lookup t = some other) : other ∈ seen ∧ f other = t := by
  obtain ⟨first, rest, hsplit, -⟩ := List.lookup_eq_some_iff.mp h
  have hmem : (t, other) ∈ seen.map fun p => (f p, p) := hsplit ▸ by simp
  obtain ⟨p, hp, heq⟩ := List.mem_map.mp hmem
  obtain ⟨rfl, rfl⟩ := Prod.mk.inj heq
  exact ⟨hp, rfl⟩

theorem lookup_files_eq_none {t : Path} (h : (seen.map fun p => (f p, p)).lookup t = none) :
    t ∉ seen.map f := by
  intro hmem
  obtain ⟨p, hp, rfl⟩ := List.mem_map.mp hmem
  have hne := List.lookup_eq_none_iff.mp h (f p, p) (List.mem_map.mpr ⟨p, hp, rfl⟩)
  simp at hne

/-- The pages that were seen have files of their own, so either all pages have, or the first that
has not is found. -/
theorem planFrom_cases (seen : List Path)
    (hf : ∀ page ∈ ps, target content output page = .ok (f page)) (hseen : (seen.map f).Nodup) :
    (((seen ++ ps).map f).Nodup ∧
        planFrom content output (seen.reverse.map fun p => (f p, p)) ps = .ok (ps.map f)) ∨
      ∃ page other, IsTakenBy f (seen ++ ps) page other ∧
        planFrom content output (seen.reverse.map fun p => (f p, p)) ps =
          .error (takenBy content output page (f page) other) := by
  induction ps generalizing seen with
  | nil =>
    rw [List.append_nil]
    exact .inl ⟨hseen, rfl⟩
  | cons page ps ih =>
    rw [planFrom, hf page (.head ps)]
    dsimp only
    cases htaken : (seen.reverse.map fun p => (f p, p)).lookup (f page) with
    | some other =>
      obtain ⟨hother, hfile⟩ := lookup_files_eq_some htaken
      exact .inr ⟨page, other, ⟨seen, ps, rfl, hseen, List.mem_reverse.mp hother, hfile⟩, rfl⟩
    | none =>
      have hfree : f page ∉ seen.map f := by
        simpa using lookup_files_eq_none htaken
      have hnodup : ((seen ++ [page]).map f).Nodup := by
        rw [List.map_append, List.map_singleton]
        exact List.nodup_append.mpr ⟨hseen, by simp, fun t ht u hu =>
          List.mem_singleton.mp hu ▸ fun heq => hfree (heq ▸ ht)⟩
      have hrest := ih (seen ++ [page]) (fun p hp => hf p (.tail page hp)) hnodup
      simp only [List.reverse_append, List.reverse_singleton, List.singleton_append,
        List.map_cons, List.append_assoc] at hrest
      rcases hrest with ⟨hall, hplan⟩ | ⟨p, q, htaken, hplan⟩
      · exact .inl ⟨by simpa using hall, by rw [hplan]; rfl⟩
      · exact .inr ⟨p, q, htaken, by rw [hplan]; rfl⟩

/-- Where a page is reported, two pages have one file. -/
theorem IsTakenBy.not_nodup (h : IsTakenBy f ps page other) : ¬ (ps.map f).Nodup := by
  obtain ⟨before, after, rfl, -, hother, hfile⟩ := h
  rw [List.map_append, List.map_cons, List.nodup_append]
  rintro ⟨-, -, hapart⟩
  exact hapart (f other) (List.mem_map_of_mem hother) (f page) List.mem_cons_self hfile

/-- **A plan is made or refused.** It is made if all pages have files of their own. -/
theorem plan_cases (hf : ∀ page ∈ ps, target content output page = .ok (f page)) :
    ((ps.map f).Nodup ∧ plan content output ps = .ok (ps.map f)) ∨
      ∃ page other, IsTakenBy f ps page other ∧
        plan content output ps = .error (takenBy content output page (f page) other) :=
  planFrom_cases [] hf List.nodup_nil

/-! ### The report -/

/-- The error reports the first page whose file is taken, with the file and the page that takes it
as they are seen from the directories they are in. -/
def Reports (content output : Path) (ps : List Path) (e : PageError) : Prop :=
  ∃ other t o, IsTakenBy (file content output) ps e.source other ∧
    (file content output e.source).relativeTo output = .ok t ∧ other.relativeTo content = .ok o ∧
    e.cause = .taken t o

theorem exists_relativeTo_of_target {t : Path} (h : target content output page = .ok t) :
    ∃ rest, page.relativeTo content = .ok rest := by
  cases hrest : page.relativeTo content with
  | ok rest => exact ⟨rest, rfl⟩
  | error e => simp [target, hrest] at h

/-- A plan is refused only with a report. -/
theorem plan_file_cases
    (hf : ∀ page ∈ ps, target content output page = .ok (file content output page)) :
    ((ps.map (file content output)).Nodup ∧
        plan content output ps = .ok (ps.map (file content output))) ∨
      ∃ e, Reports content output ps e ∧ plan content output ps = .error (.page e) := by
  rcases plan_cases hf with hmade | ⟨page, other, htaken, hplan⟩
  · exact .inl hmade
  · have hother : other ∈ ps := by
      obtain ⟨before, after, hsplit, -, hother, -⟩ := htaken
      exact hsplit ▸ List.mem_append_left _ hother
    obtain ⟨o, ho⟩ := exists_relativeTo_of_target (hf other hother)
    have ht := Path.relativeTo_below output (folder content page ++ ["index.html".toList])
    refine .inr ⟨⟨page, .taken _ o⟩, ⟨other, _, o, htaken, ht, ho, rfl⟩, hplan.trans ?_⟩
    rw [takenBy, file, ht, ho]

theorem plan_eq_ok_iff
    (hf : ∀ page ∈ ps, target content output page = .ok (file content output page)) :
    plan content output ps = .ok targets ↔
      (ps.map (file content output)).Nodup ∧ targets = ps.map (file content output) := by
  rcases plan_file_cases hf with ⟨hnodup, hplan⟩ | ⟨e, ⟨other, t, o, htaken, -⟩, hplan⟩
  · rw [hplan, Except.ok.injEq, and_iff_right hnodup, eq_comm]
  · rw [hplan]
    exact ⟨nofun, fun h => absurd h.1 htaken.not_nodup⟩

/-! ### The pages of a directory -/

/-- The plan for the pages of a directory is refused only with a report. -/
theorem plan_pages_cases (hd : d.IsTree) (content output : Path) :
    (((pages d content).map (file content output)).Nodup ∧
        plan content output (pages d content) =
          .ok ((pages d content).map (file content output))) ∨
      ∃ e, Reports content output (pages d content) e ∧
        plan content output (pages d content) = .error (.page e) :=
  plan_file_cases fun _ hpage => target_of_mem_pages hd hpage output

theorem plan_eq_ok (hd : d.IsTree) (h : plan content output (pages d content) = .ok targets) :
    targets = (pages d content).map (file content output) :=
  ((plan_eq_ok_iff fun _ hpage => target_of_mem_pages hd hpage output).mp h).2

end Pageloom.Site
