import Pageloom.Proofs.Layout.Rendering
import Pageloom.Workbench

/-!
# Histories of layouts

Layouts are filled and used side by side, by several parsers and under labels that move. Whatever is
done with them, a layout only grows, and from its first rendering on it does not change any more.
A step touches one layout at most: it puts a new one behind the others, or grows the one it is
about.

Since a layout is frozen by the first rendering with it, every later rendering finds the same
filters and helpers. So a layout of stateless ones renders a text the same way at any two times.

## Main definitions

* `Workbench.Uses`, `Workbench.Freezes`: a step renders with a layout, or freezes it otherwise.

## Main results

* `Workbench.layouts_step`: what a step does to the layouts.
* `Workbench.layout_history`: what holds of a layout from any time on.
-/

namespace Pageloom.Workbench

variable {w : Workbench} {l l' : Layout} {n : ℕ} {a : Step} {label : Text}

/-- The step renders with the layout of the number: the one under the label that is given, or else
that of the parser. -/
def Uses (w : Workbench) (n : ℕ) : Step → Prop
  | .render parser _ _ none => w.parsers[parser]? = some (some n)
  | .render parser _ _ (some label) => (∃ own, w.parsers[parser]? = some own) ∧
      w.number? label = some n
  | _ => False

/-- The step freezes the layout of the number, or renders with it. -/
def Freezes (w : Workbench) (n : ℕ) : Step → Prop
  | .freeze label => w.number? label = some n
  | a => w.Uses n a

/-- What the layout of the number is told is refused. -/
def Refuses (w : Workbench) (n : ℕ) : Prop :=
  ∀ label, w.number? label = some n →
    (∀ f, w.step (.addFilter label f) = (.refused {}, w)) ∧
      ∀ h, w.step (.addHelper label h) = (.refused {}, w)

/-! ### One step -/

/-- A step puts a layout behind the others, or grows one of them in its place, or changes none. -/
inductive LayoutsStep (layouts : List Layout) : List Layout → Prop where
  | same : LayoutsStep layouts layouts
  | put (l : Layout) : LayoutsStep layouts (layouts ++ [l])
  | grow (n : ℕ) (l l' : Layout) (h : layouts[n]? = some l) (hgrows : l.Grows l') :
      LayoutsStep layouts (layouts.set n l')

theorem LayoutsStep.exists_grows {layouts layouts' : List Layout} (h : LayoutsStep layouts layouts')
    (hl : layouts[n]? = some l) : ∃ l', layouts'[n]? = some l' ∧ l.Grows l' := by
  have hlt := (List.getElem?_eq_some_iff.mp hl).1
  cases h with
  | same => exact ⟨l, hl, .refl l⟩
  | put m => exact ⟨l, by rw [List.getElem?_append_left hlt, hl], .refl l⟩
  | grow k m m' hm hgrows =>
    by_cases hk : k = n
    · subst hk
      obtain rfl := Option.some.inj (hl.symm.trans hm)
      exact ⟨m', List.getElem?_set_self hlt, hgrows⟩
    · exact ⟨l, by rw [List.getElem?_set_ne hk, hl], .refl l⟩

theorem layouts_change (w : Workbench) (label : Text)
    {f : Layout → Except Layout.Frozen Layout} (hf : ∀ l l', f l = .ok l' → l.Grows l') :
    LayoutsStep w.layouts (w.change label f).2.layouts := by
  unfold change
  split
  · exact .same
  · next n _ =>
    cases hl : w.layouts[n]? with
    | none => exact .same
    | some l =>
      cases hres : f l with
      | error e =>
        simp only [hres]
        exact .same
      | ok l' =>
        simp only [hres]
        exact .grow n l l' hl (hf l l' hres)

theorem layouts_renderWith (w : Workbench) (page : Page) (n : Option ℕ) :
    LayoutsStep w.layouts (w.renderWith page n).2.layouts := by
  cases n with
  | none => exact .same
  | some n =>
    cases hl : w.layouts[n]? with
    | none =>
      have hset : w.layouts.set n ((Layout.empty).render ⟨[], []⟩ page).layout = w.layouts :=
        List.set_eq_of_length_le (List.getElem?_eq_none_iff.mp hl)
      simp only [renderWith, hl, Option.getD_none, hset]
      exact .same
    | some l =>
      obtain ⟨hfrozen, hkeeps⟩ := Layout.keeps_render l ⟨[], []⟩ page
      simp only [renderWith, hl, Option.getD_some]
      exact .grow n l _ hl (hkeeps.grows fun _ => hfrozen)

theorem layouts_step (w : Workbench) (a : Step) : LayoutsStep w.layouts (w.step a).2.layouts := by
  cases a with
  | place label l => exact .put l
  | addFilter label f => exact layouts_change w label fun _ _ => Layout.grows_of_addFilter
  | addHelper label h => exact layouts_change w label fun _ _ => Layout.grows_of_addHelper
  | freeze label =>
    refine layouts_change w label ?_
    rintro l l' ⟨⟩
    exact Layout.grows_freeze l
  | takeParser label =>
    cases label with
    | none => exact .same
    | some label =>
      rw [step]
      split <;> exact .same
  | render parser text name label =>
    rw [step]
    split
    · exact layouts_renderWith ..
    · exact .same

/-- A frozen layout refuses filters and helpers, and nothing changes. -/
theorem change_of_frozen (hlabel : w.number? label = some n) (hl : w.layouts[n]? = some l)
    {f : Layout → Except Layout.Frozen Layout} (hf : f l = .error {}) :
    w.change label f = (.refused {}, w) := by
  simp only [change, hlabel, hl, hf]

theorem layoutFor_of_uses {parser : ℕ} {text : Text} {name own : Option Text}
    (huses : w.Uses n (.render parser text name own)) : w.layoutFor parser own = .ok (some n) := by
  cases own with
  | none =>
    have hparser : w.parsers[parser]? = some (some n) := huses
    simp only [layoutFor, hparser]
  | some label =>
    obtain ⟨⟨own, hparser⟩, hlabel⟩ := huses
    simp only [layoutFor, hparser, hlabel]

/-- Rendering with a layout freezes it and changes no other one. -/
theorem step_of_uses (huses : w.Uses n a) (hl : w.layouts[n]? = some l) :
    ∃ l', (w.step a).2 = { w with layouts := w.layouts.set n l' } ∧ l'.frozen = true ∧
      l.Keeps l' := by
  cases a with
  | render parser text name label =>
    obtain ⟨hfrozen, hkeeps⟩ := Layout.keeps_render l ⟨[], []⟩ (Page.ofText text name)
    refine ⟨_, ?_, hfrozen, hkeeps⟩
    simp only [step, layoutFor_of_uses huses, renderWith, hl, Option.getD_some]
  | _ => cases huses

/-- A step that freezes a layout leaves it frozen. -/
theorem frozen_of_freezes (h : w.Freezes n a) (hl : w.layouts[n]? = some l) :
    ∃ l', (w.step a).2.layouts[n]? = some l' ∧ l'.frozen = true ∧ l.Keeps l' := by
  have hlt := (List.getElem?_eq_some_iff.mp hl).1
  cases a with
  | freeze label =>
    have hlabel : w.number? label = some n := h
    refine ⟨l.freeze, ?_, rfl, rfl, rfl⟩
    simp only [step, change, hlabel, hl]
    exact List.getElem?_set_self hlt
  | render parser text name label =>
    have huses : w.Uses n (.render parser text name label) := h
    obtain ⟨l', hstep, hfrozen, hkeeps⟩ := step_of_uses huses hl
    exact ⟨l', by rw [hstep]; exact List.getElem?_set_self hlt, hfrozen, hkeeps⟩
  | _ => cases h

/-! ### Runs -/

theorem exists_grows_run (hl : w.layouts[n]? = some l) (steps : List Step) :
    ∃ l', (w.run steps).layouts[n]? = some l' ∧ l.Grows l' := by
  induction steps generalizing w l with
  | nil => exact ⟨l, hl, .refl l⟩
  | cons a steps ih =>
    obtain ⟨l₁, hl₁, hgrows₁⟩ := (layouts_step w a).exists_grows hl
    obtain ⟨l₂, hl₂, hgrows₂⟩ := ih hl₁
    exact ⟨l₂, hl₂, hgrows₁.trans hgrows₂⟩

/-- From the step on that freezes a layout, its filters and helpers stay. -/
theorem exists_keeps_run (h : w.Freezes n a) (hl : w.layouts[n]? = some l) (steps : List Step) :
    ∃ l', ((w.step a).2.run steps).layouts[n]? = some l' ∧ l'.frozen = true ∧ l.Keeps l' := by
  obtain ⟨l₁, hl₁, hfrozen, hkeeps⟩ := frozen_of_freezes h hl
  obtain ⟨l₂, hl₂, hgrows⟩ := exists_grows_run hl₁ steps
  obtain ⟨hfrozen', hkeeps'⟩ := hgrows.frozen hfrozen
  exact ⟨l₂, hl₂, hfrozen', hkeeps.trans hkeeps'⟩

/-- The answer of a rendering, by the layout that it uses. -/
theorem answer_of_uses {parser : ℕ} {text : Text} {name : Option Text} {own : Option Text}
    (huses : w.Uses n (.render parser text name own)) (hl : w.layouts[n]? = some l) :
    (w.step (.render parser text name own)).1 =
      .rendered (l.render ⟨[], []⟩ (Page.ofText text name)).result := by
  simp only [step, layoutFor_of_uses huses, renderWith, hl, Option.getD_some]

theorem refuses_of_frozen (hl : w.layouts[n]? = some l) (hfrozen : l.frozen = true) :
    w.Refuses n := by
  intro label hlabel
  refine ⟨fun f => change_of_frozen hlabel hl ?_, fun h => change_of_frozen hlabel hl ?_⟩
  · simp only [Layout.addFilter, hfrozen, if_true]
  · simp only [Layout.addHelper, hfrozen, if_true]

/-- Parsers keep the layouts they were taken with. -/
theorem parsers_step_isPrefix (w : Workbench) (a : Step) :
    w.parsers <+: (w.step a).2.parsers := by
  have hchange (label : Text) (f : Layout → Except Layout.Frozen Layout) :
      (w.change label f).2.parsers = w.parsers := by
    simp only [change]
    split <;> [rfl; split <;> [rfl; split <;> rfl]]
  cases a with
  | place label l => exact List.prefix_rfl
  | addFilter label f => exact (hchange label _).symm ▸ List.prefix_rfl
  | addHelper label h => exact (hchange label _).symm ▸ List.prefix_rfl
  | freeze label => exact (hchange label _).symm ▸ List.prefix_rfl
  | takeParser label =>
    cases label with
    | none => exact List.prefix_append ..
    | some label =>
      rw [step]
      split <;> [exact List.prefix_append ..; exact List.prefix_rfl]
  | render parser text name label =>
    rw [step]
    split <;> [skip; exact List.prefix_rfl]
    next n _ => cases n <;> exact List.prefix_rfl

theorem parsers_run {parser : ℕ} {own : Option ℕ} (h : w.parsers[parser]? = some own)
    (steps : List Step) : (w.run steps).parsers[parser]? = some own := by
  induction steps generalizing w with
  | nil => exact h
  | cons a steps ih =>
    obtain ⟨others, hothers⟩ := parsers_step_isPrefix w a
    refine ih ?_
    rw [← hothers, List.getElem?_append_left (List.getElem?_eq_some_iff.mp h).1, h]

/-- A parser without a layout renders without filters and helpers. -/
theorem step_of_no_layout {parser : ℕ} (hparser : w.parsers[parser]? = some none) (text : Text)
    (name : Option Text) :
    w.step (.render parser text name none) =
      (.rendered (Layout.renderPlain ⟨[], []⟩ (Page.ofText text name)), w) := by
  simp only [step, layoutFor, hparser, renderWith, Layout.result_render_empty]

/-- **What holds of a layout from any time on.** It only grows. From the step on that freezes it or
renders with it, which may also fail, it stays as it is and refuses everything. Rendering with it
changes no other layout. If its filters and helpers are stateless, it renders a text the same way
whatever is done in between. A parser without a layout stays one, and renders with nothing but
the page's name. -/
theorem layout_history (w : Workbench) :
    (∀ n l, w.layouts[n]? = some l →
      (∀ steps, ∃ l', (w.run steps).layouts[n]? = some l' ∧ l.Grows l') ∧
      (∀ a, w.Freezes n a → ∀ steps, ∃ l', ((w.step a).2.run steps).layouts[n]? = some l' ∧
        l.Keeps l' ∧ ((w.step a).2.run steps).Refuses n) ∧
      (∀ a, w.Uses n a → ∃ l', (w.step a).2 = { w with layouts := w.layouts.set n l' } ∧
        l'.frozen = true ∧ l.Keeps l') ∧
      (l.IsStateless → ∀ parser parser' text name own own' steps,
        let later := (w.step (.render parser text name own)).2.run steps
        w.Uses n (.render parser text name own) → later.Uses n (.render parser' text name own') →
          (later.step (.render parser' text name own')).1 =
            (w.step (.render parser text name own)).1)) ∧
    ∀ parser, w.parsers[parser]? = some none →
      ∀ steps text name,
        (w.run steps).step (.render parser text name none) =
          (.rendered (Layout.renderPlain ⟨[], []⟩ (Page.ofText text name)), w.run steps) ∧
        ∀ page token, Template.answer page [] token =
          .ok (if token = Helper.nameToken then page.name.getD (Template.placeholder token)
            else Template.placeholder token) := by
  constructor
  · intro n l hl
    refine ⟨exists_grows_run hl, fun a h steps => ?_, fun a huses => step_of_uses huses hl, ?_⟩
    · obtain ⟨l', hl', hfrozen, hkeeps⟩ := exists_keeps_run h hl steps
      exact ⟨l', hl', hkeeps, refuses_of_frozen hl' hfrozen⟩
    · intro hstateless parser parser' text name own own' steps later huses huses'
      have hfreezes : w.Freezes n (.render parser text name own) := huses
      obtain ⟨l', hl', -, hkeeps⟩ := exists_keeps_run hfreezes hl steps
      rw [answer_of_uses huses hl, answer_of_uses huses' hl', hkeeps.result_render hstateless]
  · intro parser hparser steps text name
    exact ⟨step_of_no_layout (parsers_run hparser steps) text name, Template.answer_nil⟩

/-- A layout that lost its label to another one still renders a text as it did before. -/
theorem layout_history_of_moved_label :
    let l : Layout := ⟨[.minify], [.data [("X", "1")]], false⟩
    let w : Workbench := ⟨[l], [("a", 0)], [none, some 0]⟩
    let first : Step := .render 1 "\x7bX\x7d <!-- \x7bNAME\x7d -->" none (some "a")
    let later := (w.step first).2.run [.place "a" .empty, .addHelper "a" .name]
    let second : Step := .render 1 "\x7bX\x7d <!-- \x7bNAME\x7d -->" none none
    w.Uses 0 first ∧ later.Uses 0 second ∧ l.IsStateless ∧
      (later.step second).1 = (w.step first).1 ∧
      w.parsers[0]? = some none ∧ later.Refuses 0 := by
  intro l w first later second
  have hl : w.layouts[0]? = some l := rfl
  have huses : w.Uses 0 first := ⟨⟨some 0, rfl⟩, rfl⟩
  have hparser : w.parsers[1]? = some (some 0) := rfl
  have hlater : later.Uses 0 second :=
    parsers_run hparser [first, .place "a" .empty, .addHelper "a" .name]
  have hstateless : l.IsStateless := by
    refine ⟨fun f hf => ?_, fun h hh => ?_⟩
    · obtain rfl := List.mem_singleton.mp hf
      exact fun _ _ _ => rfl
    · obtain rfl := List.mem_singleton.mp hh
      exact .of_recalling fun _ => rfl
  have hhistory := ((layout_history w).1 0 l hl)
  refine ⟨huses, hlater, hstateless, ?_, rfl, ?_⟩
  · exact hhistory.2.2.2 hstateless 1 1 _ _ _ _ _ huses hlater
  · obtain ⟨_, _, _, hrefuses⟩ := hhistory.2.1 first huses
      [.place "a" .empty, .addHelper "a" .name]
    exact hrefuses

end Pageloom.Workbench
