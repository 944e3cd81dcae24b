import Mathlib.Data.List.Forall2
import Pageloom.Proofs.Site.Target
import Pageloom.Site.Build

/-!
# Preparing and rendering

A build renders its pages on the disk that it has opened, not on the one that it found. That makes
no difference: all that a page takes from the disk is the bytes of its file.

## Main definitions

* `Site.IsPlanned`: a job is the plan for the pages of a project.
* `Site.IsRead`: a page is read from a file.
* `Site.FailsWith`: a page cannot be loaded or rendered.

## Main results

* `Site.prepare_eq_ok`: what is known of a job.
* `Site.renderPage_congr`: a page is rendered from the bytes of its file.
* `Site.renderAll_eq_ok`, `Site.renderAll_eq_error`: pages are rendered one by one, up to the first
  that fails.
-/

namespace Pageloom.Site

variable {d new : Disk} {l : Layout} {source root : Path} {asked : Option Path} {page : Page}
  {sources : List Path} {rendered : List (Page × Rendered)} {r : Page × Rendered} {job : Job}

/-! ### Preparing -/

theorem bind_eq_ok {ε α β : Type} {x : Except ε α} {f : α → Except ε β} {b : β} :
    x >>= f = .ok b ↔ ∃ a, x = .ok a ∧ f a = .ok b := by
  cases x <;> simp [bind, Except.bind]

theorem bind_of_ok {ε α β : Type} {x : Except ε α} {f : α → Except ε β} {a : α} (h : x = .ok a) :
    x >>= f = f a := by
  rw [h]
  rfl

theorem mapError_eq_ok {ε ε' α : Type} {x : Except ε α} {f : ε → ε'} {a : α} :
    x.mapError f = .ok a ↔ x = .ok a := by
  cases x <;> simp [Except.mapError]

theorem eq_ok_of_toOption {ε α : Type} {x : Except ε α} {a : α} (h : x.toOption = some a) :
    x = .ok a := by
  cases x with
  | error e => cases h
  | ok b => exact congrArg Except.ok (Option.some.inj h)

/-- A job is the plan for the pages of the content directory that is configured. -/
structure IsPlanned (d : Disk) (root : Path) (asked : Option Path) (c : Config) (content : Path)
    (job : Job) : Prop where
  config : Config.load d root = .ok c
  directory : settingPath root c "content_dir" "content" = .ok content
  present : d.exists? content = .ok true
  listed : longPath? d content = none
  output : outputPath root c asked = .ok job.output
  layout : job.layout = Config.layout? c
  sources : job.pages = pages d content
  targets : plan content job.output job.pages = .ok job.targets

theorem prepare_eq_ok (h : prepare d root asked = .ok job) :
    ∃ c content, IsPlanned d root asked c content job := by
  simp only [prepare, bind_eq_ok, mapError_eq_ok] at h
  obtain ⟨c, hconfig, content, hcontent, present, hpresent, h⟩ := h
  cases present with
  | false => cases h
  | true =>
    obtain ⟨output, houtput, h⟩ := bind_eq_ok.mp h
    obtain ⟨sources, hsources, h⟩ := bind_eq_ok.mp h
    obtain ⟨hlisted, rfl⟩ := listing_eq_ok_iff.mp (mapError_eq_ok.mp hsources)
    cases hplan : plan content output (pages d content) with
    | ok targets =>
      simp only [hplan] at h
      cases h
      exact ⟨c, content, ⟨hconfig, hcontent, hpresent, hlisted, houtput, rfl, rfl, hplan⟩⟩
    | error fault =>
      simp only [hplan] at h
      cases fault <;> cases h

/-- So a job is known by its parts. -/
theorem prepare_of_isPlanned {c : Config} {content : Path}
    (h : IsPlanned d root asked c content job) :
    prepare d root asked = .ok job := by
  have hlisting : listing d content = .ok job.pages := listing_eq_ok_iff.mpr ⟨h.listed, h.sources⟩
  simp only [prepare, h.config, h.directory, h.present, h.output, hlisting, h.targets,
    ← h.layout, Except.mapError, bind, Except.bind, Bool.not_true, Bool.false_eq_true, if_false]

/-- The content directory of a project, if there is a configuration and it names one. -/
def contentPath? (d : Disk) (root : Path) : Option Path :=
  (Config.load d root).toOption.bind fun c =>
    (settingPath root c "content_dir" "content").toOption

theorem contentPath?_eq_some {content : Path} (h : contentPath? d root = some content) :
    ∃ c, Config.load d root = .ok c ∧
      settingPath root c "content_dir" "content" = .ok content := by
  obtain ⟨c, hload, hcontent⟩ := Option.bind_eq_some_iff.mp h
  exact ⟨c, eq_ok_of_toOption hload, eq_ok_of_toOption hcontent⟩

theorem IsPlanned.contentPath?_eq {c : Config} {content : Path}
    (h : IsPlanned d root asked c content job) : contentPath? d root = some content := by
  rw [contentPath?, h.config]
  simp only [Except.toOption, Option.bind_some, h.directory]

/-! ### Reading a page -/

theorem read_of_source {e : Encoding} {t : Text} (h : Source.read e d source = .ok t) :
    ∃ bytes, d.read source = .ok bytes := by
  cases hread : d.read source with
  | ok bytes => exact ⟨bytes, rfl⟩
  | error f => simp [Source.read, hread] at h

/-- A page that was read from a file, with the name that it has on a site. -/
structure IsRead (d : Disk) (source : Path) (page : Page) : Prop where
  loaded : page.loaded = true
  extracted : page.extracted = true
  split : ∃ text, Source.read .utf8Marked d source = .ok text ∧
    FrontMatter.split text = .ok (page.frontMatter, page.body)
  name : page.name = some ((page.frontMatter.get? "name").getD (Name.title source.name))

theorem isRead_of_readPage (h : readPage d source = .ok page) : IsRead d source page := by
  obtain ⟨made, hfile, h⟩ := bind_eq_ok.mp h
  obtain ⟨extracted, hextract, h⟩ := bind_eq_ok.mp h
  rw [Page.ofFile, Page.load] at hfile
  cases hread : Source.read .utf8Marked d source with
  | error fault => simp [hread] at hfile
  | ok text =>
    simp only [hread] at hfile
    cases hfile
    rw [Page.extract, if_neg Bool.false_ne_true] at hextract
    dsimp only at hextract
    cases hsplit : FrontMatter.split text with
    | error fault => simp [hsplit] at hextract
    | ok result =>
      obtain ⟨entries, body⟩ := result
      simp only [hsplit] at hextract
      cases hextract
      -- The page has the name of its front matter, or it is given one.
      cases hname : entries.get? "name" with
      | none =>
        simp only [Page.name, hname] at h
        cases h
        refine ⟨rfl, rfl, ⟨text, hread, hsplit⟩, ?_⟩
        change _ = some (Option.getD (entries.get? "name") _)
        rw [hname]
        rfl
      | some name =>
        simp only [Page.name, hname] at h
        cases h
        exact ⟨rfl, rfl, ⟨text, hread, hsplit⟩, by simp only [Page.name, hname]; rfl⟩

theorem IsRead.load (h : IsRead d source page) (new : Disk) : page.load new = .ok page := by
  rw [Page.load, h.loaded]

theorem IsRead.extract (h : IsRead d source page) : page.extract = .ok page := by
  rw [Page.extract, if_pos h.extracted]

theorem exists_read_of_readPage (h : readPage d source = .ok page) :
    ∃ bytes, d.read source = .ok bytes := by
  obtain ⟨text, hread, -⟩ := (isRead_of_readPage h).split
  exact read_of_source hread

theorem readPage_congr (h : new.read source = d.read source) :
    readPage new source = readPage d source := by
  simp only [readPage, Page.ofFile, Page.load, Source.read, h]

/-! ### Rendering -/

/-- A page is rendered from the bytes of its file. -/
theorem renderPage_congr (h : new.read source = d.read source) :
    renderPage new l source = renderPage d l source := by
  rw [renderPage, renderPage, readPage_congr h]
  cases hpage : readPage d source with
  | error f => rfl
  | ok page =>
    simp only [Layout.render, (isRead_of_readPage hpage).load]

/-- A page that is rendered can be read. -/
theorem exists_read_of_renderPage (h : renderPage d l source = .ok r) :
    ∃ bytes, d.read source = .ok bytes := by
  rw [renderPage] at h
  cases hpage : readPage d source with
  | error f => simp [hpage] at h
  | ok page => exact exists_read_of_readPage hpage

theorem renderAll_eq_ok (h : renderAll d l sources = .ok rendered) :
    List.Forall₂ (fun source r => renderPage d l source = .ok r) sources rendered := by
  induction sources generalizing rendered with
  | nil =>
    cases h
    exact .nil
  | cons source sources ih =>
    rw [renderAll] at h
    cases hfirst : renderPage d l source with
    | error e => simp [hfirst] at h
    | ok r =>
      cases hrest : renderAll d l sources with
      | error e => simp [hfirst, hrest, Except.map] at h
      | ok rest =>
        simp only [hfirst, hrest, Except.map] at h
        cases h
        exact .cons hfirst (ih hrest)

theorem renderAll_congr {l : Layout}
    (h : ∀ source ∈ sources, new.read source = d.read source) :
    renderAll new l sources = renderAll d l sources := by
  induction sources with
  | nil => rfl
  | cons source sources ih =>
    obtain ⟨hfirst, hrest⟩ := List.forall_mem_cons.mp h
    rw [renderAll, renderAll, renderPage_congr hfirst, ih hrest]

theorem exists_read_of_renderAll {l : Layout}
    {rendered : List (Page × Rendered)} (h : renderAll d l sources = .ok rendered)
    {source : Path} (hsource : source ∈ sources) : ∃ bytes, d.read source = .ok bytes := by
  obtain ⟨n, hn, rfl⟩ := List.getElem_of_mem hsource
  have hall := renderAll_eq_ok h
  exact exists_read_of_renderPage (hall.get hn (hall.length_eq ▸ hn))

/-! ### Pages that fail -/

/-- A page cannot be loaded, or it is loaded and cannot be rendered. -/
def FailsWith (d : Disk) (l : Layout) (source : Path) (f : Failure) : Prop :=
  readPage d source = .error f ∨
    ∃ page, readPage d source = .ok page ∧ (l.render d page).result = .error f

theorem renderPage_eq_error_iff {e : PageError} :
    renderPage d l source = .error e ↔ ∃ f, e = ⟨source, .failed f⟩ ∧ FailsWith d l source f := by
  rw [renderPage]
  cases hread : readPage d source with
  | error f =>
    simp only [FailsWith, hread, Except.error.injEq, reduceCtorEq, false_and, exists_false,
      or_false]
    exact ⟨fun h => ⟨f, h.symm, rfl⟩, fun ⟨_, he, hf⟩ => hf ▸ he.symm⟩
  | ok page =>
    cases hresult : (l.render d page).result with
    | ok rendered => simp [FailsWith, hread, hresult]
    | error f =>
      simp only [FailsWith, hread, hresult, reduceCtorEq, false_or, Except.ok.injEq,
        exists_eq_left', Except.error.injEq]
      exact ⟨fun h => ⟨f, h.symm, rfl⟩, fun ⟨_, he, hf⟩ => hf ▸ he.symm⟩

/-- A page is rendered or it fails. -/
theorem renderPage_cases (d : Disk) (l : Layout) (source : Path) :
    (∃ r, renderPage d l source = .ok r) ∨
      ∃ f, FailsWith d l source f ∧ renderPage d l source = .error ⟨source, .failed f⟩ := by
  cases hrender : renderPage d l source with
  | ok r => exact .inl ⟨r, rfl⟩
  | error e =>
    obtain ⟨f, rfl, hf⟩ := renderPage_eq_error_iff.mp hrender
    exact .inr ⟨f, hf, rfl⟩

/-- If pages fail, it is the first of them that is reported. -/
theorem renderAll_eq_error {e : PageError} (h : renderAll d l sources = .error e) :
    ∃ before source after f, sources = before ++ source :: after ∧
      (∀ p ∈ before, ∃ r, renderPage d l p = .ok r) ∧ FailsWith d l source f ∧
      e = ⟨source, .failed f⟩ := by
  induction sources with
  | nil => cases h
  | cons source sources ih =>
    rw [renderAll] at h
    rcases renderPage_cases d l source with ⟨r, hr⟩ | ⟨f, hf, hfailed⟩
    · cases hrest : renderAll d l sources with
      | ok rest => simp [hr, hrest, Except.map] at h
      | error e' =>
        simp only [hr, hrest, Except.map] at h
        cases h
        obtain ⟨before, page, after, f, rfl, hbefore, hf, he⟩ := ih hrest
        exact ⟨source :: before, page, after, f, rfl,
          List.forall_mem_cons.mpr ⟨⟨r, hr⟩, hbefore⟩, hf, he⟩
    · simp only [hfailed] at h
      cases h
      exact ⟨[], source, sources, f, rfl, fun p hp => (nomatch hp), hf, rfl⟩

end Pageloom.Site
