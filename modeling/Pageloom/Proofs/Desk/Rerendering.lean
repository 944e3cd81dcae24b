import Pageloom.Proofs.Desk.History
import Pageloom.Proofs.Layout.Rendering

/-!
# Rendering a page again

A rendering reads the file of a page and takes its front matter out of its body. Both are done once.
What is left is a page that says of itself that it has been read, and nobody looks at its body for
front matter again, even if the body looks as if it had some. The filters work on a copy of the body
that does not go back into the page, so it makes no difference either what their HTML looks like.

So a page that was rendered is rendered to the same once more, and does not change by that. The same
holds later on, whatever happened to the page in between, unless it was given another body or
another name.

## Main definitions

* `Page.IsPrepared`: nothing is left to be read of a page.
* `Desk.Step.KeepsPage`: a step gives the page neither a body nor a name.

## Main results

* `Layout.isPrepared_of_render`: a rendering leaves such a page.
* `Desk.page_step_of_isPrepared`, `Desk.page_run_of_isPrepared`: it stays as it is, step by step.
* `Desk.render_again`: rendering it again.
-/

namespace Pageloom

variable {d : Disk} {p q : Page} {l l' : Layout} {r : Rendered}

/-! ### Pages -/

namespace Page

/-- Nothing is left to be read of the page: its file is read, if it has one, and its front matter is
out of its body. -/
structure IsPrepared (p : Page) : Prop where
  source : p.loaded = true ∨ p.path = none
  extracted : p.extracted = true

theorem source_of_load (h : p.load d = .ok q) : q.loaded = true ∨ q.path = none := by
  rw [load] at h
  split at h
  · split at h
    · cases h
      exact .inl rfl
    · cases h
  · next hread =>
    cases h
    cases hloaded : p.loaded with
    | true => exact .inl rfl
    | false => exact .inr (Option.eq_none_iff_forall_ne_some.mpr fun path => hread path hloaded)

theorem isPrepared_of_extract (hsource : p.loaded = true ∨ p.path = none)
    (h : p.extract = .ok q) : q.IsPrepared := by
  rw [extract] at h
  split at h
  · next hextracted =>
    cases h
    exact ⟨hsource, hextracted⟩
  · split at h
    · cases h
      exact ⟨hsource, rfl⟩
    · cases h

namespace IsPrepared

theorem load (h : p.IsPrepared) (d : Disk) : p.load d = .ok p := by
  rcases h.source with hloaded | hpath
  · exact load_of_loaded hloaded d
  · rw [Page.load, hpath]
    cases p.loaded <;> rfl

theorem extract (h : p.IsPrepared) : p.extract = .ok p := if_pos h.extracted

/-- There is nothing left to do but to render the body. -/
theorem render (h : p.IsPrepared) (l : Layout) (d : Disk) :
    l.render d p = ⟨(l.freeze.renderBody p).1, p, (l.freeze.renderBody p).2⟩ :=
  Layout.render_of_extract (h.load d) h.extract

end IsPrepared

end Page

/-! ### Renderings -/

namespace Layout

/-- **A rendering leaves a page of which nothing is left to be read.** -/
theorem isPrepared_of_render (h : (l.render d p).result = .ok r) :
    (l.render d p).page.IsPrepared := by
  obtain ⟨loaded, page', hload, hextract⟩ := exists_extract_of_render h
  rw [render_of_extract hload hextract]
  exact Page.isPrepared_of_extract (Page.source_of_load hload) hextract

theorem renderBody_of_render (h : (l.render d p).result = .ok r) :
    (l.freeze.renderBody (l.render d p).page).1 = .ok r := by
  obtain ⟨loaded, page', hload, hextract⟩ := exists_extract_of_render h
  rw [render_of_extract hload hextract] at h ⊢
  exact h

/-- Once rendered, the page is rendered to the same on every disk, and by a layout that was used in
the meantime. -/
theorem Keeps.result_render_again (hkeeps : l.Keeps l') (hl : l.IsStateless)
    (h : (l.render d p).result = .ok r) (d' : Disk) :
    (l'.render d' (l.render d p).page).result = .ok r := by
  calc (l'.render d' (l.render d p).page).result
      = (l.render d' (l.render d p).page).result := hkeeps.result_render hl d' _
    _ = (l.freeze.renderBody (l.render d p).page).1 := by rw [(isPrepared_of_render h).render]
    _ = .ok r := renderBody_of_render h

end Layout

/-! ### The page in use -/

namespace Desk

variable {s : Desk} {a : Step} {steps : List Step}

/-- The step gives the page neither a body nor a name. -/
structure Step.KeepsPage (a : Step) : Prop where
  body : a.body? = none
  name : a.name? = none

theorem step_render_of_isPrepared (h : s.page.IsPrepared) (l : Layout) :
    s.step (.render l) = (.rendered (l.render s.disk s.page).result, s) := by
  have hpage : (l.render s.disk s.page).page = s.page := by rw [h.render]
  rw [step, hpage, update_self]

/-- A step leaves the page as it is, unless it gives it a body or a name. -/
theorem page_step_of_isPrepared (h : s.page.IsPrepared) (ha : a.KeepsPage) :
    (s.step a).2.page = s.page := by
  cases a with
  | setName name => cases ha.name
  | setBody body => cases ha.body
  | load => simp only [step, h.load, update_self]
  | extract => simp only [step, h.extract, update_self]
  | render l => rw [step_render_of_isPrepared h]
  | view => rfl
  | read view => rfl
  | assign view name value => rfl
  | changeDisk disk => rfl

theorem page_run_of_isPrepared (h : s.page.IsPrepared) (hsteps : ∀ a ∈ steps, a.KeepsPage) :
    (s.run steps).page = s.page := by
  induction steps generalizing s with
  | nil => rfl
  | cons a steps ih =>
    obtain ⟨ha, hsteps⟩ := List.forall_mem_cons.mp hsteps
    have hpage := page_step_of_isPrepared h ha
    rw [run_cons, ih (hpage ▸ h) hsteps, hpage]

theorem page_step_render (s : Desk) (l : Layout) :
    (s.step (.render l)).2.page = (l.render s.disk s.page).page := page_update _ _

/-- **A page is rendered to the same again.** The filters and helpers of the layout are stateless,
and the page, whatever was done with it, is rendered. Rendering it with this layout again gives the
same, and leaves the page and its views as they are. It does so later as well, if the page was given
no other body and no other name: whatever else was done by then with the page, its disk and the
layout, the page is still the same, and so is what comes of it. -/
theorem render_again (hl : l.IsStateless) (h : (s.step (.render l)).1 = .rendered (.ok r)) :
    let after := (s.step (.render l)).2
    after.step (.render (l.render s.disk s.page).layout) = (.rendered (.ok r), after) ∧
      ∀ steps l', (∀ a ∈ steps, a.KeepsPage) → l.Keeps l' →
        let later := after.run steps
        later.page = after.page ∧ later.step (.render l') = (.rendered (.ok r), later) := by
  intro after
  have hresult : (l.render s.disk s.page).result = .ok r := Answer.rendered.inj h
  have hpage : after.page = (l.render s.disk s.page).page := page_step_render s l
  have hprepared : after.page.IsPrepared := hpage ▸ Layout.isPrepared_of_render hresult
  have hagain : ∀ (t : Desk) l', t.page = after.page → l.Keeps l' →
      t.step (.render l') = (.rendered (.ok r), t) := by
    intro t l' ht hkeeps
    rw [step_render_of_isPrepared (ht ▸ hprepared), ht, hpage,
      hkeeps.result_render_again hl hresult]
  refine ⟨hagain after _ rfl (Layout.keeps_render l s.disk s.page).2, ?_⟩
  intro steps l' hsteps hkeeps
  have hlater : (after.run steps).page = after.page := page_run_of_isPrepared hprepared hsteps
  exact ⟨hlater, hagain _ l' hlater hkeeps⟩

/-- A page from a file, with a second header behind the first one. It opens what is left as the body
and also the HTML. The file is gone when the page is rendered for the second time. -/
theorem render_again_of_second_header :
    let t : Text := "---\na: x\n---\n---\nb: \x7bA\x7d\n---\nend"
    let html : Text := "---\nb: x\n---\nend"
    let d : Disk := ⟨[], [(["p.md"], .file (Utf8.encode t))]⟩
    let page : Page := ⟨.file, some "p.md", none, t, [], true, false⟩
    let l : Layout := ⟨[.absolute "h.com"], [.frontMatter], false⟩
    let after := ((ofPage d page).step (.render l)).2
    let later := after.run [.changeDisk ⟨[], []⟩, .load, .extract]
    Page.make d (some (.path "p.md")) none none = .ok page ∧ l.IsStateless ∧
      ((ofPage d page).step (.render l)).1 = .rendered (.ok ⟨html, none, [("a", "x")]⟩) ∧
      FrontMatter.isPresent after.page.body ∧ FrontMatter.isPresent html ∧
      later.step (.render l) = (.rendered (.ok ⟨html, none, [("a", "x")]⟩), later) := by
  intro t html d page l after later
  have hl : l.IsStateless := by
    constructor
    · rintro f hf
      obtain rfl := List.mem_singleton.mp hf
      exact fun _ body _ => by cases body <;> rfl
    · rintro h hh
      obtain rfl := List.mem_singleton.mp hh
      exact .of_recalling fun _ => rfl
  have hrendered : ((ofPage d page).step (.render l)).1 =
      .rendered (.ok ⟨html, none, [("a", "x")]⟩) := congrArg Answer.rendered (by decide)
  have hsteps : ∀ a ∈ [Step.changeDisk ⟨[], []⟩, .load, .extract], a.KeepsPage := by
    rintro a ha
    simp only [List.mem_cons, List.not_mem_nil, or_false] at ha
    obtain rfl | rfl | rfl := ha <;> exact ⟨rfl, rfl⟩
  obtain ⟨-, hlater⟩ := render_again hl hrendered
  exact ⟨by decide, hl, hrendered, by decide, by decide,
    (hlater _ l hsteps (Layout.Keeps.refl l)).2⟩

end Desk

end Pageloom
