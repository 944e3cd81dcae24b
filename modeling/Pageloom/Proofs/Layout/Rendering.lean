import Pageloom.Layout
import Pageloom.Proofs.Template.Fill

/-!
# What a rendering leaves of a layout

A rendering freezes the layout and leaves its filters and helpers as they were, but for what those
from outside remember. So the filters and helpers of a layout are told by how they were made, and
what they remember does not matter to those that are *stateless*: a layout of such filters and
helpers renders a page the same way however often it was used.

## Main definitions

* `Filter.made`, `Filter.IsStateless`: a filter as it was made, and one that does not depend on its
  earlier uses.
* `Layout.Keeps`: two layouts with the same filters and helpers, as they were made.
* `Layout.Grows`: filters and helpers were added behind those of a layout, unless it was frozen.
* `Layout.renderPlain`: what a rendering without filters and helpers comes to.

## Main results

* `Layout.exists_fill_of_renderBody`: a body is rendered by filling what the filters make of it.
* `Layout.keeps_render`: a rendering keeps the layout.
* `Layout.Keeps.result_render`: stateless filters and helpers render a page the same way each time.
-/

namespace Pageloom

variable {body : Option Text} {page : Page} {d : Disk}

/-! ### Filters -/

namespace Filter

variable {f f' : Filter} {fs fs' : List Filter}

/-- The filter with other earlier uses. -/
def recalling (uses : List Use) : Filter → Filter
  | .function name f _ => .function name f uses
  | f => f

/-- The filter as it was made, before it was used. -/
def made (f : Filter) : Filter := f.recalling []

/-- What a filter makes of a body does not depend on its earlier uses. -/
def IsStateless (f : Filter) : Prop :=
  ∀ uses body page, ((f.recalling uses).apply body page).1 = (f.apply body page).1

/-- Being used changes nothing but what a filter remembers. -/
theorem made_apply (f : Filter) (body : Option Text) (page : Page) :
    (f.apply body page).2.made = f.made := by
  cases f with
  | markdown plugins highlightCode headingIds => simp only [apply]; split <;> rfl
  | minify => cases body <;> rfl
  | absolute baseUrl => cases body <;> rfl
  | function name f earlier => rfl

@[simp] theorem recalling_recalling (f : Filter) (uses uses' : List Use) :
    (f.recalling uses).recalling uses' = f.recalling uses' := by
  cases f <;> rfl

theorem exists_recalling_eq (f : Filter) : ∃ uses, f = f.recalling uses := by
  cases f with
  | function name f earlier => exact ⟨earlier, rfl⟩
  | _ => exact ⟨[], rfl⟩

/-- Two filters that were made alike differ only in what they remember. -/
theorem exists_recalling_of_made (h : f'.made = f.made) : ∃ uses, f' = f.recalling uses := by
  obtain ⟨uses, huses⟩ := exists_recalling_eq f'
  refine ⟨uses, ?_⟩
  rw [huses, ← recalling_recalling f' [], ← recalling_recalling f [], ← made, h, made]

theorem map_made_applyAll (fs : List Filter) (body : Option Text) (page : Page) :
    (applyAll fs body page).2.map made = fs.map made := by
  induction fs generalizing body with
  | nil => rfl
  | cons f fs ih =>
    have hmade := made_apply f body page
    rcases hres : f.apply body page with ⟨e | body', f'⟩ <;> rw [hres] at hmade <;>
      simp only [applyAll, hres, List.map_cons, hmade]
    rw [ih]

theorem applyAll_fst_of_made (hstateless : ∀ f ∈ fs, f.IsStateless)
    (h : fs'.map made = fs.map made) (body : Option Text) (page : Page) :
    (applyAll fs' body page).1 = (applyAll fs body page).1 := by
  induction fs generalizing fs' body with
  | nil => rw [List.map_eq_nil_iff.mp h]
  | cons f fs ih =>
    obtain ⟨f', fs', rfl, hf, hfs⟩ := List.map_eq_cons_iff.mp h
    obtain ⟨uses, rfl⟩ := exists_recalling_of_made hf
    obtain ⟨hstateless, hrest⟩ := List.forall_mem_cons.mp hstateless
    have hfirst := hstateless uses body page
    rcases hres : f.apply body page with ⟨result, f₁⟩
    rcases hres' : (f.recalling uses).apply body page with ⟨result', f₂⟩
    rw [hres, hres'] at hfirst
    subst hfirst
    cases result' with
    | error e => simp only [applyAll, hres, hres']
    | ok body' => simp only [applyAll, hres, hres', ih hrest hfs]

end Filter

/-! ### Layouts -/

namespace Layout

variable {l l' l'' : Layout}

/-- The second layout has the filters and helpers of the first, as they were made. -/
structure Keeps (l l' : Layout) : Prop where
  filters : l'.filters.map Filter.made = l.filters.map Filter.made
  helpers : l'.helpers.map Helper.made = l.helpers.map Helper.made

/-- The second layout has the filters and helpers of the first with others behind them, or without
others and frozen if the first one is frozen. -/
structure Grows (l l' : Layout) : Prop where
  filters : l.filters.map Filter.made <+: l'.filters.map Filter.made
  helpers : l.helpers.map Helper.made <+: l'.helpers.map Helper.made
  frozen : l.frozen = true → l'.frozen = true ∧ l.Keeps l'

/-- No filter and no helper of the layout depends on what it was used for before. -/
structure IsStateless (l : Layout) : Prop where
  filter : ∀ f ∈ l.filters, f.IsStateless
  helper : ∀ h ∈ l.helpers, h.IsStateless

theorem Keeps.refl (l : Layout) : l.Keeps l := ⟨rfl, rfl⟩

theorem Keeps.trans (h : l.Keeps l') (h' : l'.Keeps l'') : l.Keeps l'' :=
  ⟨h'.filters.trans h.filters, h'.helpers.trans h.helpers⟩

theorem Keeps.grows (h : l.Keeps l') (hfrozen : l.frozen = true → l'.frozen = true) :
    l.Grows l' :=
  ⟨h.filters ▸ List.prefix_rfl, h.helpers ▸ List.prefix_rfl, fun hf => ⟨hfrozen hf, h⟩⟩

theorem Grows.refl (l : Layout) : l.Grows l := (Keeps.refl l).grows id

theorem Grows.trans (h : l.Grows l') (h' : l'.Grows l'') : l.Grows l'' where
  filters := h.filters.trans h'.filters
  helpers := h.helpers.trans h'.helpers
  frozen hf := ⟨(h'.frozen (h.frozen hf).1).1, (h.frozen hf).2.trans (h'.frozen (h.frozen hf).1).2⟩

theorem grows_of_addFilter {f : Filter} (h : l.addFilter f = .ok l') : l.Grows l' := by
  rw [addFilter] at h
  split at h
  · cases h
  · next hopen =>
    cases h
    exact ⟨by simp, List.prefix_rfl, fun hf => absurd hf hopen⟩

theorem grows_of_addHelper {h : Helper} (hadd : l.addHelper h = .ok l') : l.Grows l' := by
  rw [addHelper] at hadd
  split at hadd
  · cases hadd
  · next hopen =>
    cases hadd
    exact ⟨List.prefix_rfl, by simp, fun hf => absurd hf hopen⟩

theorem grows_freeze (l : Layout) : l.Grows l.freeze := Keeps.grows ⟨rfl, rfl⟩ fun _ => rfl

/-! ### Renderings -/

/-- A page whose file and front matter can be read is rendered by its body. -/
theorem render_of_extract {loaded page' : Page} (hload : page.load d = .ok loaded)
    (hextract : loaded.extract = .ok page') :
    l.render d page = ⟨(l.freeze.renderBody page').1, page', (l.freeze.renderBody page').2⟩ := by
  simp only [render, hload, hextract]

theorem exists_extract_of_render {rendered : Rendered}
    (h : (l.render d page).result = .ok rendered) :
    ∃ loaded page', page.load d = .ok loaded ∧ loaded.extract = .ok page' := by
  rw [render] at h
  cases hload : page.load d with
  | error e => simp [hload] at h
  | ok loaded =>
    cases hextract : loaded.extract with
    | error e => simp [hload, hextract] at h
    | ok page' => exact ⟨loaded, page', rfl, hextract⟩

/-- A body that the filters make a text of is rendered by filling this text. -/
theorem renderBody_of_filtered {filtered : Text}
    (h : (Filter.applyAll l.filters (some page.body) page).1 = .ok (some filtered)) :
    (l.renderBody page).1 = (Template.fill filtered page l.helpers).1.map
        (fun html => ⟨html, page.name, page.frontMatter⟩) ∧
      (l.renderBody page).2.helpers = (Template.fill filtered page l.helpers).2 := by
  rcases hres : Filter.applyAll l.filters (some page.body) page with ⟨result, fs⟩
  obtain rfl : result = .ok (some filtered) := by rw [← h, hres]
  simp only [renderBody, hres, and_self]

/-- A body is rendered only by filling a text that the filters make of it. -/
theorem exists_fill_of_renderBody {rendered : Rendered}
    (h : (l.renderBody page).1 = .ok rendered) :
    ∃ filtered,
      (Filter.applyAll l.filters (some page.body) page).1 = .ok (some filtered) ∧
      Template.fill filtered page l.helpers =
        (.ok rendered.html, (l.renderBody page).2.helpers) := by
  rcases hres : Filter.applyAll l.filters (some page.body) page with ⟨e | _ | filtered, fs⟩
  · simp [renderBody, hres] at h
  · simp [renderBody, hres] at h
  · obtain ⟨hresult, hhelpers⟩ := renderBody_of_filtered (congrArg Prod.fst hres)
    rw [hresult] at h
    refine ⟨filtered, rfl, Prod.ext ?_ hhelpers.symm⟩
    cases hfill : (Template.fill filtered page l.helpers).1 with
    | error e => simp [hfill, Except.map] at h
    | ok html =>
      simp only [hfill, Except.map] at h
      cases h
      rfl

theorem keeps_renderBody (l : Layout) (page : Page) : l.Keeps (l.renderBody page).2 := by
  have hfilters := Filter.map_made_applyAll l.filters (some page.body) page
  rcases hres : Filter.applyAll l.filters (some page.body) page with ⟨e | _ | body, fs⟩ <;>
    rw [hres] at hfilters <;> simp only [renderBody, hres]
  · exact ⟨hfilters, rfl⟩
  · exact ⟨hfilters, rfl⟩
  · exact ⟨hfilters, Helper.recalls_iff_map_made.mp (Template.recalls_fillPieces ..)⟩

theorem frozen_renderBody (l : Layout) (page : Page) : (l.renderBody page).2.frozen = l.frozen := by
  rw [renderBody]
  split <;> rfl

/-- **A rendering keeps the layout** and freezes it, also if it fails. -/
theorem keeps_render (l : Layout) (d : Disk) (page : Page) :
    (l.render d page).layout.frozen = true ∧ l.Keeps (l.render d page).layout := by
  have hfreeze : l.Keeps l.freeze := ⟨rfl, rfl⟩
  simp only [render]
  split
  · exact ⟨rfl, hfreeze⟩
  · split
    · exact ⟨rfl, hfreeze⟩
    · exact ⟨frozen_renderBody l.freeze _, hfreeze.trans (keeps_renderBody l.freeze _)⟩

/-- What a rendering without filters and helpers comes to. -/
def renderPlain (d : Disk) (page : Page) : Except Failure Rendered := do
  let page ← page.load d
  let page ← page.extract
  let html ← (Template.fill page.body page []).1
  pure ⟨html, page.name, page.frontMatter⟩

theorem result_render_empty (d : Disk) (page : Page) :
    (empty.freeze.render d page).result = renderPlain d page := by
  simp only [render, renderPlain]
  cases page.load d with
  | error e => rfl
  | ok page =>
    cases hpage : page.extract with
    | error e => simp only [hpage, bind, Except.bind]
    | ok page =>
      have hbody : (empty.freeze.freeze.renderBody page).1 =
          (Template.fill page.body page []).1.map fun html =>
            ⟨html, page.name, page.frontMatter⟩ := rfl
      simp only [hpage, hbody, bind, Except.bind]
      cases (Template.fill page.body page []).1 <;> rfl

/-- A rendering shows what the filters make of the body and how texts are filled. -/
theorem renderBody_fst_of_eq {p q : Page} (hname : p.name = q.name)
    (hentries : p.frontMatter = q.frontMatter)
    (hfilters : (Filter.applyAll l'.filters (some p.body) p).1 =
      (Filter.applyAll l.filters (some q.body) q).1)
    (hfill : ∀ t, (Template.fill t p l'.helpers).1 = (Template.fill t q l.helpers).1) :
    (l'.renderBody p).1 = (l.renderBody q).1 := by
  rcases hp : Filter.applyAll l'.filters (some p.body) p with ⟨result, fs⟩
  rcases hq : Filter.applyAll l.filters (some q.body) q with ⟨result', fs'⟩
  rw [hp, hq] at hfilters
  subst hfilters
  rcases result with e | _ | body
  · simp only [renderBody, hp, hq]
  · simp only [renderBody, hp, hq]
  · simp only [renderBody, hp, hq, hname, hentries, hfill]

/-- A rendering comes to what it makes of the page as it leaves it. -/
theorem result_render_congr
    (h : (l'.freeze.renderBody (l.render d page).page).1 =
      (l.freeze.renderBody (l.render d page).page).1) :
    (l'.render d page).result = (l.render d page).result := by
  cases hload : page.load d with
  | error e => simp only [render, hload]
  | ok loaded =>
    cases hextract : loaded.extract with
    | error e => simp only [render, hload, hextract]
    | ok page' =>
      rw [render_of_extract hload hextract] at h ⊢
      rw [render_of_extract hload hextract]
      exact h

theorem Keeps.renderBody_fst (h : l.Keeps l') (hstateless : l.IsStateless) (page : Page) :
    (l'.renderBody page).1 = (l.renderBody page).1 := by
  refine renderBody_fst_of_eq rfl rfl
    (Filter.applyAll_fst_of_made hstateless.filter h.filters (some page.body) page) fun t => ?_
  have hhelpers : Helper.Recalls l.helpers l'.helpers := Helper.recalls_iff_map_made.mpr h.helpers
  exact Template.fillPieces_fst_congr (fun _ _ => rfl) hhelpers (Helper.recalls_refl l.helpers)
    hstateless.helper hstateless.helper

/-- **Stateless filters and helpers** render a page the same way, whatever they were used for. -/
theorem Keeps.result_render (h : l.Keeps l') (hstateless : l.IsStateless) (d : Disk) (page : Page) :
    (l'.render d page).result = (l.render d page).result := by
  have hfreeze : l.freeze.Keeps l'.freeze := ⟨h.filters, h.helpers⟩
  exact result_render_congr (hfreeze.renderBody_fst ⟨hstateless.filter, hstateless.helper⟩ _)

end Layout

end Pageloom
