import Mathlib.Data.List.Infix
import Pageloom.Desk

/-!
# Histories of a page

Whatever is done with a page and its disk, in whatever order, three things tell all about it: the
body that it was given last, the name that it was given last, and whether its front matter is out of
the body. What was done before the last body leaves no trace, and neither does a failure.

Rendering a page and asking for its front matter leave it the same way, since a page that is loaded
reads no file any more, and filters and helpers do not change it.

## Main definitions

* `Page.sourceText`: the text that a page starts with.
* `Page.IsOf`: a page with the given body and name, whose front matter is out of the body or not.
* `Desk.lastBody`, `Desk.lastName`: what a page was given last.

## Main results

* `Desk.isOf_step`, `Desk.isOf_run`: one step, and several.
* `Desk.history`: what holds of a page at any time.
-/

namespace Pageloom

variable {d : Disk} {p q : Page} {src : Text} {given : Option Text}

/-! ### Pages -/

namespace Page

/-- The text that a page from a source of the given kind starts with. -/
def sourceText (d : Disk) (source : Option Source) (kind : Option SourceKind) :
    Except Failure Text :=
  match kind.getD (Source.kind source), source with
  | .file, none => .error .noPath
  | .file, some s => (Source.read .utf8Marked d s.asPath).mapError .ofSource
  | .string, none => .ok []
  | .string, some s => .ok s.asText

/-- A page whose body was last set to `src` and whose name was last set to `given`. It is loaded,
and its front matter is either still in the body, or out of it as a whole. -/
structure IsOf (src : Text) (given : Option Text) (p : Page) : Prop where
  loaded : p.loaded = true
  body : p.extracted = false ∧ p.body = src ∧ p.frontMatter = [] ∨
    p.extracted = true ∧ FrontMatter.split src = .ok (p.frontMatter, p.body)
  name : p.explicitName = given

/-- The page after its front matter was asked for. -/
def settled (p : Page) : Page := p.extract.toOption.getD p

theorem exists_make (name : Option Text) {source : Option Source} {kind : Option SourceKind}
    (h : sourceText d source kind = .ok src) :
    ∃ p, make d source kind name = .ok p ∧ p.IsOf src name := by
  cases source with
  | none =>
    cases hkind : kind.getD (Source.kind none) <;> simp only [sourceText, hkind] at h <;> cases h
    exact ⟨ofText [] name, by simp only [make, hkind], rfl, Or.inl ⟨rfl, rfl, rfl⟩, rfl⟩
  | some s =>
    cases hkind : kind.getD (Source.kind (some s)) with
    | string =>
      simp only [sourceText, hkind] at h
      cases h
      exact ⟨ofText s.asText name, by simp only [make, hkind], rfl, Or.inl ⟨rfl, rfl, rfl⟩, rfl⟩
    | file =>
      simp only [sourceText, hkind] at h
      cases hread : Source.read .utf8Marked d s.asPath with
      | error fault => simp [hread, Except.mapError] at h
      | ok body =>
        simp only [hread, Except.mapError, Except.ok.injEq] at h
        subst h
        simp only [make, hkind, ofFile, load, hread]
        exact ⟨_, rfl, rfl, Or.inl ⟨rfl, rfl, rfl⟩, rfl⟩

theorem load_of_loaded (h : p.loaded = true) (d : Disk) : p.load d = .ok p := by
  rw [load, h]

theorem settled_of_extracted (h : p.extracted = true) : p.settled = p := by
  rw [settled, extract, if_pos h]
  rfl

theorem IsOf.settled (h : p.IsOf src given) : p.settled.IsOf src given := by
  obtain ⟨hloaded, ⟨hextracted, hbody, hentries⟩ | ⟨hextracted, hsplit⟩, hname⟩ := h
  · rw [Page.settled, extract, if_neg (by simp [hextracted]), hbody]
    cases hsplit : FrontMatter.split src with
    | error fault => exact ⟨hloaded, Or.inl ⟨hextracted, hbody, hentries⟩, hname⟩
    | ok r => exact ⟨hloaded, Or.inr ⟨rfl, hsplit⟩, hname⟩
  · rw [settled_of_extracted hextracted]
    exact ⟨hloaded, Or.inr ⟨hextracted, hsplit⟩, hname⟩

/-- Rendering changes a page only by asking for its front matter. -/
theorem page_render (h : p.loaded = true) (l : Layout) (d : Disk) :
    (l.render d p).page = p.settled := by
  simp only [Layout.render, load_of_loaded h, settled]
  cases hextract : p.extract <;> rfl

end Page

/-! ### Steps -/

namespace Desk

variable {s : Desk} {a : Step}

/-- The body that a step gives to the page. -/
def Step.body? : Step → Option Text
  | .setBody body => some body
  | _ => none

/-- The name that a step gives to the page, which may be none. -/
def Step.name? : Step → Option (Option Text)
  | .setName name => some name
  | _ => none

/-- The last body that steps give to a page, or else the one it has. -/
def lastBody (src : Text) (steps : List Step) : Text := (steps.filterMap Step.body?).getLastD src

/-- The last name that steps give to a page, or else the one it has. -/
def lastName (given : Option Text) (steps : List Step) : Option Text :=
  (steps.filterMap Step.name?).getLastD given

@[simp] theorem page_update (s : Desk) (page : Page) : (s.update page).page = page := by
  unfold update
  split <;> rfl

theorem update_self (s : Desk) : s.update s.page = s := by
  rw [update, if_neg (by simp)]

theorem frontMatters_update_isPrefix (s : Desk) (page : Page) :
    s.frontMatters <+: (s.update page).frontMatters := by
  unfold update
  split
  · exact List.prefix_append _ _
  · exact List.prefix_rfl

theorem step_extract_snd (s : Desk) : (s.step .extract).2 = s.update s.page.settled := by
  rw [step, Page.settled]
  cases s.page.extract with
  | ok page => rfl
  | error f => exact (update_self s).symm

theorem step_render_snd (h : s.page.loaded = true) (l : Layout) :
    (s.step (.render l)).2 = s.update s.page.settled := by
  rw [step, Page.page_render h]

theorem step_load (h : s.page.loaded = true) : s.step .load = (.done, s) := by
  simp only [step, Page.load_of_loaded h, update_self]

/-- One step keeps what the page is, but for the body or the name that it gives. -/
theorem isOf_step (h : s.page.IsOf src given) (a : Step) :
    (s.step a).2.page.IsOf (a.body?.getD src) (a.name?.getD given) := by
  cases a with
  | setName name => exact ⟨h.loaded, h.body, rfl⟩
  | setBody body => exact ⟨rfl, Or.inl ⟨rfl, rfl, rfl⟩, h.name⟩
  | load =>
    rw [step_load h.loaded]
    exact h
  | extract =>
    rw [step_extract_snd, page_update]
    exact h.settled
  | render l =>
    rw [step_render_snd h.loaded, page_update]
    exact h.settled
  | view => exact h
  | read view => exact h
  | assign view name value => exact h
  | changeDisk disk => exact h

/-- The entries of the page are the last ones. -/
def IsCurrent (s : Desk) : Prop := s.frontMatters.getLast? = some s.page.frontMatter

theorem IsCurrent.update (h : s.IsCurrent) : (s.update s.page.settled).IsCurrent := by
  by_cases hextracted : s.page.extracted = true
  · rwa [Page.settled_of_extracted hextracted, update_self]
  · cases hsplit : s.page.extract with
    | error f =>
      have hsettled : s.page.settled = s.page := by rw [Page.settled, hsplit]; rfl
      rwa [hsettled, update_self]
    | ok page =>
      have hpage : page.extracted = true := by
        rw [Page.extract, if_neg hextracted] at hsplit
        split at hsplit
        · cases hsplit
          rfl
        · cases hsplit
      have hsettled : s.page.settled = page := by rw [Page.settled, hsplit]; rfl
      rw [hsettled, Desk.update, if_pos (by simp [hpage, hextracted]), IsCurrent]
      exact List.getLast?_concat

theorem isCurrent_step (hloaded : s.page.loaded = true) (h : s.IsCurrent) (a : Step) :
    (s.step a).2.IsCurrent := by
  cases a with
  | setName name => exact h
  | setBody body => exact List.getLast?_concat
  | load =>
    rw [step_load hloaded]
    exact h
  | extract =>
    rw [step_extract_snd]
    exact h.update
  | render l =>
    rw [step_render_snd hloaded]
    exact h.update
  | view => exact h
  | read view => exact h
  | assign view name value => exact h
  | changeDisk disk => exact h

/-- No step changes entries that the page has had. -/
theorem frontMatters_step_isPrefix (s : Desk) (a : Step) :
    s.frontMatters <+: (s.step a).2.frontMatters := by
  cases a with
  | setBody body => exact List.prefix_append _ _
  | load =>
    rw [step]
    split
    · exact frontMatters_update_isPrefix s _
    · exact List.prefix_rfl
  | extract =>
    rw [step_extract_snd]
    exact frontMatters_update_isPrefix s _
  | render l => exact frontMatters_update_isPrefix s _
  | setName name => exact List.prefix_rfl
  | view => exact List.prefix_rfl
  | read view => exact List.prefix_rfl
  | assign view name value => exact List.prefix_rfl
  | changeDisk disk => exact List.prefix_rfl

/-- A view is that of the newest entries at the time when it is handed out. -/
theorem eq_newest_of_handedOut {view : ℕ} (h : (s.step a).1 = .handedOut view) :
    view = (s.step a).2.newest := by
  cases a with
  | view => exact (Answer.handedOut.inj h).symm
  | extract =>
    simp only [step] at h ⊢
    split at h
    · exact (Answer.handedOut.inj h).symm
    · cases h
  | load =>
    simp only [step] at h
    split at h <;> cases h
  | setName name => cases h
  | setBody body => cases h
  | render l => cases h
  | read view => cases h
  | assign view name value => cases h
  | changeDisk disk => cases h

theorem IsCurrent.getElem?_newest (h : s.IsCurrent) :
    s.frontMatters[s.newest]? = some s.page.frontMatter := by
  rw [newest, ← List.getLast?_eq_getElem?]
  exact h

/-! ### Runs -/

@[simp] theorem run_cons (s : Desk) (a : Step) (steps : List Step) :
    s.run (a :: steps) = (s.step a).2.run steps := rfl

theorem lastBody_cons (src : Text) (a : Step) (steps : List Step) :
    lastBody src (a :: steps) = lastBody (a.body?.getD src) steps := by
  rw [lastBody, List.filterMap_cons]
  cases a.body? with
  | none => rfl
  | some body => exact List.getLastD_cons ..

theorem lastName_cons (given : Option Text) (a : Step) (steps : List Step) :
    lastName given (a :: steps) = lastName (a.name?.getD given) steps := by
  rw [lastName, List.filterMap_cons]
  cases a.name? with
  | none => rfl
  | some name => exact List.getLastD_cons ..

/-- After any steps, a page is told by the last body and the last name that it was given. -/
theorem isOf_run (h : s.page.IsOf src given) (steps : List Step) :
    (s.run steps).page.IsOf (lastBody src steps) (lastName given steps) := by
  induction steps generalizing s src given with
  | nil => exact h
  | cons a steps ih =>
    rw [run_cons, lastBody_cons, lastName_cons]
    exact ih (isOf_step h a)

theorem isCurrent_run (hof : s.page.IsOf src given) (h : s.IsCurrent) (steps : List Step) :
    (s.run steps).IsCurrent := by
  induction steps generalizing s src given with
  | nil => exact h
  | cons a steps ih => exact ih (isOf_step hof a) (isCurrent_step hof.loaded h a)

theorem frontMatters_run_isPrefix (s : Desk) (steps : List Step) :
    s.frontMatters <+: (s.run steps).frontMatters := by
  induction steps generalizing s with
  | nil => exact List.prefix_rfl
  | cons a steps ih => exact (frontMatters_step_isPrefix s a).trans (ih (s.step a).2)

/-- A view that is handed out goes on showing the entries that the page had then. -/
theorem read_of_handedOut (hof : s.page.IsOf src given) (h : s.IsCurrent) {view : ℕ}
    (hview : (s.step a).1 = .handedOut view) (more : List Step) :
    (((s.step a).2.run more).step (.read view)).1 =
      .shown (some (s.step a).2.page.frontMatter) := by
  have hthen : (s.step a).2.frontMatters[view]? = some (s.step a).2.page.frontMatter := by
    rw [eq_newest_of_handedOut hview]
    exact (isCurrent_step hof.loaded h a).getElem?_newest
  obtain ⟨later, hlater⟩ := frontMatters_run_isPrefix (s.step a).2 more
  have hlt := (List.getElem?_eq_some_iff.mp hthen).1
  rw [step, ← hlater, List.getElem?_append_left hlt, hthen]

/-- **What holds of a page at any time.** A page can be made from a text, and from a file that can
be read. After any steps it is told by its last body and its last name. Its name is the one it was
given, if any, and else that of its front matter. Asking for the front matter in vain changes
nothing, rendering changes what asking for the front matter does, whether it succeeds or not, and a
view goes on showing what it showed when it was handed out. -/
theorem history {source : Option Source} {kind : Option SourceKind} (name : Option Text)
    (hsource : Page.sourceText d source kind = .ok src) :
    ∃ p, Page.make d source kind name = .ok p ∧ ∀ steps,
      let s := (ofPage d p).run steps
      s.page.IsOf (lastBody src steps) (lastName name steps) ∧
        s.page.name = (lastName name steps).or (s.page.frontMatter.get? "name") ∧
        (∀ f, (s.step .extract).1 = .failed f → (s.step .extract).2 = s) ∧
        (∀ l, (s.step (.render l)).2 = (s.step .extract).2) ∧
        ∀ a view, (s.step a).1 = .handedOut view → ∀ more,
          (((s.step a).2.run more).step (.read view)).1 =
            .shown (some (s.step a).2.page.frontMatter) := by
  obtain ⟨p, hmake, hp⟩ := Page.exists_make name hsource
  refine ⟨p, hmake, fun steps => ?_⟩
  intro s
  have hof : s.page.IsOf (lastBody src steps) (lastName name steps) := isOf_run hp steps
  have hcurrent : s.IsCurrent := isCurrent_run (s := ofPage d p) hp rfl steps
  refine ⟨hof, ?_, fun f hf => ?_, fun l => ?_, fun a view hview more => ?_⟩
  · rw [Page.name, hof.name]
    cases lastName name steps <;> rfl
  · cases hextract : s.page.extract with
    | ok page => simp [step, hextract] at hf
    | error f' => simp only [step, hextract]
  · rw [step_render_snd hof.loaded, step_extract_snd]
  · exact read_of_handedOut hof hcurrent hview more

/-- A page from a file that is gone when it is rendered. Its second body opens with a header as
well, and the view of the first header does not change with that. -/
theorem history_of_file :
    let d : Disk := ⟨[], [(["a.md"], .file (Utf8.encode "---\nk: v\n---\ntext"))]⟩
    let p : Page := ⟨.file, some "a.md", none, "---\nk: v\n---\ntext", [], true, false⟩
    let steps : List Step := [.changeDisk ⟨[], []⟩, .setName (some "A")]
    let more : List Step := [.setBody "---\nk: w\n---\n", .render .empty]
    Page.sourceText d (some (.path "a.md")) none = .ok "---\nk: v\n---\ntext" ∧
      Page.make d (some (.path "a.md")) none none = .ok p ∧
      ((ofPage d p).run steps).page.IsOf "---\nk: v\n---\ntext" (some "A") ∧
      (((((ofPage d p).run steps).step .extract).2.run more).step (.read 1)).1 =
        .shown (some [("k", "v")]) := by
  intro d p steps more
  have hsource : Page.sourceText d (some (.path "a.md")) none = .ok "---\nk: v\n---\ntext" := by
    decide
  obtain ⟨p', hmake, hall⟩ := history none hsource
  have hp : Page.make d (some (.path "a.md")) none none = .ok p := by decide
  obtain rfl : p' = p := Except.ok.inj (hmake.symm.trans hp)
  obtain ⟨hof, -, -, -, hview⟩ := hall steps
  exact ⟨hsource, hmake, hof, hview .extract 1 rfl more⟩

end Desk

end Pageloom
