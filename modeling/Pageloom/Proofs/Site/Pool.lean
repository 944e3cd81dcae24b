import Mathlib.Logic.Relation
import Pageloom.Proofs.Site.Rendering

/-!
# Rendering with many workers

Pages may be rendered by several workers at a time. They begin with the pages in order, and they
are done in any order; the build takes their results in the order of the pages, so it waits for a
page even if others are done. With the first failure that it takes it calls off the pages that no
worker has begun with, and reports the failure when all workers are done.

What the build gets is what it gets from rendering one page after the other, for every number of
workers and however they take turns. This is because a result that is taken is that of the first
page without one: by then all pages before it were rendered.

## Main definitions

* `Site.Pool`: the pages that the workers have, and what the build has taken from them.
* `Site.Pool.Step`: one step of a worker or of the build.
* `Site.Pool.answer?`: what the build gets in the end.

## Main results

* `Site.Pool.Sound.step`: each step keeps to rendering one page after the other.
* `Site.Pool.answer_of_reaches`: what the build gets.
-/

namespace Pageloom.Site

/-- How far a page is. -/
inductive Task where
  | waiting
  | running
  | done (r : Except PageError (Page × Rendered))

namespace Task

def isWaiting : Task → Bool
  | .waiting => true
  | _ => false

def isRunning : Task → Bool
  | .running => true
  | _ => false

/-- How many steps there are at most until the result of a page is taken. -/
def work : Task → Nat
  | .waiting => 3
  | .running => 2
  | .done _ => 1

end Task

/-- The pages whose results were not taken, in their order, with the results that were taken so far.
A failure that was taken is the last thing that is. -/
structure Pool where
  tasks : List (Path × Task)
  taken : List (Page × Rendered)
  failed : Option PageError

namespace Pool

variable {d : Disk} {l : Layout} {sources : List Path} {workers : Nat} {s s' : Pool}

/-- At first all pages are waiting. -/
def start (sources : List Path) : Pool := ⟨sources.map fun source => (source, .waiting), [], none⟩

/-- How many workers are busy. -/
def running (s : Pool) : Nat := s.tasks.countP fun t => t.2.isRunning

/-- One step of a worker or of the build. -/
inductive Step (workers : Nat) (d : Disk) (l : Layout) (s : Pool) : Pool → Prop
  /-- A worker that is free begins with the first page that is waiting. -/
  | begin {before source after} (hfree : s.running < workers)
      (htasks : s.tasks = before ++ (source, .waiting) :: after)
      (hfirst : ∀ t ∈ before, t.2.isWaiting = false) :
      Step workers d l s { s with tasks := before ++ (source, .running) :: after }
  /-- A worker is done with a page. -/
  | finish {before source after} (htasks : s.tasks = before ++ (source, .running) :: after) :
      Step workers d l s
        { s with tasks := before ++ (source, .done (renderPage d l source)) :: after }
  /-- The build takes the first result. -/
  | take {source r after} (hopen : s.failed = none)
      (htasks : s.tasks = (source, .done (.ok r)) :: after) :
      Step workers d l s { s with tasks := after, taken := s.taken ++ [r] }
  /-- The first result is a failure. -/
  | fail {source e after} (hopen : s.failed = none)
      (htasks : s.tasks = (source, .done (.error e)) :: after) :
      Step workers d l s { s with tasks := after, failed := some e }
  /-- The build calls off a page. -/
  | cancel {e before source after} (hfailed : s.failed = some e)
      (htasks : s.tasks = before ++ (source, .waiting) :: after) :
      Step workers d l s { s with tasks := before ++ after }

/-- What the build gets: the failure, when all workers are done, or all results. -/
def answer? (s : Pool) : Option (Except PageError (List (Page × Rendered))) :=
  match s.failed with
  | some e =>
    if s.tasks.all fun t => !t.2.isWaiting && !t.2.isRunning then some (.error e) else none
  | none => if s.tasks = [] then some (.ok s.taken) else none

/-! ### What the steps keep to -/

/-- The results are those of the pages, and with the pages that are left they make what comes from
rendering one page after the other. -/
structure Sound (d : Disk) (l : Layout) (sources : List Path) (s : Pool) : Prop where
  done : ∀ source r, (source, Task.done r) ∈ s.tasks → r = renderPage d l source
  rest : s.failed = none →
    renderAll d l sources = (renderAll d l (s.tasks.map Prod.fst)).map (s.taken ++ ·)
  failed : ∀ e, s.failed = some e → renderAll d l sources = .error e

theorem sound_start (d : Disk) (l : Layout) (sources : List Path) :
    Sound d l sources (start sources) where
  done source r h := by
    obtain ⟨p, -, hp⟩ := List.mem_map.mp h
    cases hp
  rest _ := by
    have hfst : (start sources).tasks.map Prod.fst = sources := by simp [start, Function.comp_def]
    rw [hfst]
    cases renderAll d l sources <;> rfl
  failed e h := nomatch h

/-- A step of a worker leaves the pages as they are, and a result that comes is that of its page. -/
theorem Sound.of_worker (h : Sound d l sources s) {before after : List (Path × Task)}
    {source : Path} {old new : Task} (htasks : s.tasks = before ++ (source, old) :: after)
    (hnew : ∀ r, new = .done r → r = renderPage d l source) :
    Sound d l sources { s with tasks := before ++ (source, new) :: after } where
  done p r hp := by
    rcases List.mem_append.mp hp with hbefore | hrest
    · exact h.done p r (htasks ▸ List.mem_append_left _ hbefore)
    · rcases List.mem_cons.mp hrest with heq | hafter
      · obtain ⟨rfl, hdone⟩ := Prod.mk.inj heq
        exact hnew r hdone.symm
      · exact h.done p r (htasks ▸ List.mem_append_right _ (.tail _ hafter))
  rest hopen := by
    rw [h.rest hopen, htasks]
    simp
  failed := h.failed

/-- **Each step keeps to rendering one page after the other.** -/
theorem Sound.step (h : Sound d l sources s) (hstep : Step workers d l s s') :
    Sound d l sources s' := by
  cases hstep with
  | begin _ htasks _ => exact h.of_worker htasks fun r hr => nomatch hr
  | finish htasks => exact h.of_worker htasks fun r hr => (Task.done.inj hr).symm
  | @take source r after hopen htasks =>
    -- The result is that of the first page that is left.
    have hr : renderPage d l source = .ok r := (h.done source _ (htasks ▸ .head after)).symm
    refine ⟨fun p q hp => h.done p q (htasks ▸ .tail _ hp), fun _ => ?_, fun e he => ?_⟩
    · rw [h.rest hopen, htasks, List.map_cons, renderAll, hr]
      cases renderAll d l (after.map Prod.fst) <;> simp [Except.map]
    · exact h.failed e he
  | @fail source e after hopen htasks =>
    have he : renderPage d l source = .error e := (h.done source _ (htasks ▸ .head after)).symm
    refine ⟨fun p q hp => h.done p q (htasks ▸ .tail _ hp), fun hnone => ?_, ?_⟩
    · cases hnone
    rintro e' ⟨⟩
    rw [h.rest hopen, htasks, List.map_cons, renderAll, he]
    rfl
  | @cancel e before source after hfailed htasks =>
    refine ⟨fun p q hp => h.done p q ?_, fun hopen => ?_, h.failed⟩
    · rw [htasks]
      exact (List.mem_append.mp hp).elim (List.mem_append_left _) fun hafter =>
        List.mem_append_right _ (.tail _ hafter)
    · cases hfailed.symm.trans hopen

theorem Sound.reaches (h : Sound d l sources s)
    (hrun : Relation.ReflTransGen (Step workers d l) s s') : Sound d l sources s' := by
  induction hrun with
  | refl => exact h
  | tail _ hstep ih => exact ih.step hstep

theorem Sound.answer (h : Sound d l sources s) {a : Except PageError (List (Page × Rendered))}
    (ha : s.answer? = some a) : a = renderAll d l sources := by
  rw [answer?] at ha
  cases hfailed : s.failed with
  | some e =>
    simp only [hfailed] at ha
    split at ha <;> cases ha
    exact (h.failed e hfailed).symm
  | none =>
    simp only [hfailed] at ha
    split at ha <;> cases ha
    next htasks =>
      rw [h.rest hfailed, htasks]
      simp [renderAll, Except.map]

/-! ### The steps come to an end -/

/-- How many steps there are at most until nothing is left of some pages. -/
def workOf : List (Path × Task) → Nat
  | [] => 0
  | (_, task) :: tasks => task.work + workOf tasks

@[simp] theorem workOf_append (ts us : List (Path × Task)) :
    workOf (ts ++ us) = workOf ts + workOf us := by
  induction ts with
  | nil => simp [workOf]
  | cons t ts ih => simp [workOf, ih, Nat.add_assoc]

/-- How many steps there are at most until nothing is left. -/
def work (s : Pool) : Nat := workOf s.tasks

theorem work_lt_of_step (h : Step workers d l s s') : s'.work < s.work := by
  cases h <;> simp_all [work, workOf, Task.work]

/-- If pages are waiting, there is a first one. -/
theorem exists_first_waiting {tasks : List (Path × Task)}
    (h : ∃ t ∈ tasks, t.2.isWaiting = true) :
    ∃ before source after, tasks = before ++ (source, .waiting) :: after ∧
      ∀ t ∈ before, t.2.isWaiting = false := by
  obtain ⟨⟨source, task⟩, hfind⟩ := Option.isSome_iff_exists.mp (List.find?_isSome.mpr h)
  obtain ⟨htask, before, after, rfl, hfirst⟩ := List.find?_eq_some_iff_append.mp hfind
  cases task with
  | waiting => exact ⟨before, source, after, rfl, by simpa using hfirst⟩
  | running => cases htask
  | done r => cases htask

theorem exists_step_of_isRunning {t : Path × Task} (ht : t ∈ s.tasks)
    (hrunning : t.2.isRunning = true) : ∃ s', Step workers d l s s' := by
  obtain ⟨source, task⟩ := t
  obtain ⟨before, after, htasks⟩ := List.append_of_mem ht
  cases task with
  | waiting => cases hrunning
  | running => exact ⟨_, .finish htasks⟩
  | done r => cases hrunning

/-- As long as there is no answer, there is a step. -/
theorem exists_step (hworkers : 0 < workers) (d : Disk) (l : Layout) (h : s.answer? = none) :
    ∃ s', Step workers d l s s' := by
  by_cases hrunning : ∃ t ∈ s.tasks, t.2.isRunning = true
  · obtain ⟨t, ht, hrunning⟩ := hrunning
    exact exists_step_of_isRunning ht hrunning
  push Not at hrunning
  by_cases hwaiting : ∃ t ∈ s.tasks, t.2.isWaiting = true
  · obtain ⟨before, source, after, htasks, hfirst⟩ := exists_first_waiting hwaiting
    cases hfailed : s.failed with
    | some e => exact ⟨_, .cancel hfailed htasks⟩
    | none =>
      have hfree : s.running = 0 := List.countP_eq_zero.mpr hrunning
      exact ⟨_, .begin (hfree ▸ hworkers) htasks hfirst⟩
  push Not at hwaiting
  cases hfailed : s.failed with
  | some e =>
    have hdone : s.tasks.all (fun t => !t.2.isWaiting && !t.2.isRunning) = true :=
      List.all_eq_true.mpr fun t ht => by simp [hwaiting t ht, hrunning t ht]
    simp only [answer?, hfailed, hdone, if_true, reduceCtorEq] at h
  | none =>
    cases htasks : s.tasks with
    | nil => simp [answer?, hfailed, htasks] at h
    | cons t after =>
      obtain ⟨source, task⟩ := t
      have hmem : (source, task) ∈ s.tasks := htasks ▸ .head after
      cases task with
      | waiting => exact absurd rfl (hwaiting _ hmem)
      | running => exact absurd rfl (hrunning _ hmem)
      | done r =>
        cases r with
        | error e => exact ⟨_, .fail hfailed htasks⟩
        | ok r => exact ⟨_, .take hfailed htasks⟩

/-- So the steps lead to an answer, whichever are made. -/
theorem exists_answer (hworkers : 0 < workers) (d : Disk) (l : Layout) (s : Pool) :
    ∃ s' a, Relation.ReflTransGen (Step workers d l) s s' ∧ s'.answer? = some a := by
  induction hwork : s.work using Nat.strongRecOn generalizing s with
  | _ n ih =>
    cases ha : s.answer? with
    | some a => exact ⟨s, a, .refl, ha⟩
    | none =>
      obtain ⟨next, hstep⟩ := exists_step hworkers d l ha
      obtain ⟨s', a, hrun, ha'⟩ := ih next.work (hwork ▸ work_lt_of_step hstep) next rfl
      exact ⟨s', a, .head hstep hrun, ha'⟩

/-- **What the build gets** is what comes from rendering one page after the other. It never gets
anything else, and it gets there from wherever the workers are: each step leaves less work, and
there is a step as long as there is no answer. -/
theorem answer_of_reaches (hworkers : 0 < workers)
    (hrun : Relation.ReflTransGen (Step workers d l) (start sources) s) :
    (∀ a, s.answer? = some a → a = renderAll d l sources) ∧
      ∃ s', Relation.ReflTransGen (Step workers d l) s s' ∧
        s'.answer? = some (renderAll d l sources) := by
  have hsound := (sound_start d l sources).reaches hrun
  obtain ⟨s', a, hend, ha⟩ := exists_answer hworkers d l s
  exact ⟨fun _ => hsound.answer, s', hend, by rw [ha, (hsound.reaches hend).answer ha]⟩

end Pool

end Pageloom.Site
