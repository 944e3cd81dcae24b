import Pageloom.Proofs.Desk.History
import Pageloom.Proofs.Layout.Rendering
import Pageloom.Proofs.Source.Reading

/-!
# A page from a file and the same page from a text

A rendering sees of a page its name, its body and its front matter, unless a filter or a helper from
outside asks for more. Where the page was made from is not among them. So a file and the text in it
are rendered the same way, and the pages are left the same way.

## Main definitions

* `Page.ShowsSame`: pages with the same name, body and front matter.
* `Filter.AsksContent`, `Helper.AsksContent`, `Layout.AsksContent`: nothing else of a page matters.
* `Page.IsTwin`: loaded pages that differ in their source only.

## Main results

* `Layout.renderBody_fst_congr`: the same content gives the same result.
* `Page.IsTwin.render`: a rendering of one of two such pages and of the other.
* `Layout.render_ofFile`: pages from a file and from the text in it.
-/

namespace Pageloom

variable {d d' : Disk} {p q : Page} {l l' : Layout} {t : Text} {bytes : List UInt8}

/-! ### Content -/

/-- The pages show the same name, body and front matter. -/
structure Page.ShowsSame (p q : Page) : Prop where
  name : p.name = q.name
  body : p.body = q.body
  frontMatter : p.frontMatter = q.frontMatter

/-- What the filter makes of a body depends on nothing of the page but its content. -/
def Filter.AsksContent (f : Filter) : Prop :=
  ∀ body p q, Page.ShowsSame p q → (f.apply body p).1 = (f.apply body q).1

/-- What the helper answers depends on nothing of the page but its content. -/
def Helper.AsksContent (h : Helper) : Prop :=
  ∀ token p q, Page.ShowsSame p q → (h.resolve token p).1 = (h.resolve token q).1

/-- No filter and no helper of the layout asks for more of a page than its content. -/
structure Layout.AsksContent (l : Layout) : Prop where
  filter : ∀ f ∈ l.filters, f.AsksContent
  helper : ∀ h ∈ l.helpers, h.AsksContent

theorem Helper.asksContent_name : Helper.name.AsksContent := by
  intro token p q h
  rw [resolve, resolve, h.name]

theorem Filter.applyAll_fst_congr {fs : List Filter} (hfs : ∀ f ∈ fs, f.AsksContent)
    (h : p.ShowsSame q) (body : Option Text) : (applyAll fs body p).1 = (applyAll fs body q).1 := by
  induction fs generalizing body with
  | nil => rfl
  | cons f fs ih =>
    obtain ⟨hf, hrest⟩ := List.forall_mem_cons.mp hfs
    have hfirst := hf body p q h
    rcases hp : f.apply body p with ⟨result, f₁⟩
    rcases hq : f.apply body q with ⟨result', f₂⟩
    rw [hp, hq] at hfirst
    subst hfirst
    cases result with
    | error e => simp only [applyAll, hp, hq]
    | ok body' => simp only [applyAll, hp, hq, ih hrest]

theorem Helper.findSome?_reply?_congr {hs : List Helper} (hhs : ∀ h ∈ hs, h.AsksContent)
    (h : p.ShowsSame q) (token : Text) :
    hs.findSome? (reply? token p) = hs.findSome? (reply? token q) := by
  induction hs with
  | nil => rfl
  | cons g hs ih =>
    obtain ⟨hg, hrest⟩ := List.forall_mem_cons.mp hhs
    have hreply : g.reply? token p = g.reply? token q := by
      rw [reply?, reply?, hg token p q h]
    rw [List.findSome?_cons, List.findSome?_cons, hreply, ih hrest]

theorem Template.answer_congr {hs : List Helper} (hhs : ∀ h ∈ hs, h.AsksContent)
    (h : p.ShowsSame q) (token : Text) : answer p hs token = answer q hs token := by
  have hall : ∀ g ∈ hs ++ [Helper.name], g.AsksContent := by
    simpa [or_imp, forall_and] using ⟨hhs, Helper.asksContent_name⟩
  rw [answer, answer, Helper.findSome?_reply?_congr hall h]

/-- **The same content gives the same result.** -/
theorem Layout.renderBody_fst_congr (hstateless : l.IsStateless) (hl : l.AsksContent)
    (h : p.ShowsSame q) : (l.renderBody p).1 = (l.renderBody q).1 := by
  refine renderBody_fst_of_eq h.name h.frontMatter ?_ fun t => ?_
  · rw [h.body]
    exact Filter.applyAll_fst_congr hl.filter h (some q.body)
  · exact Template.fillPieces_fst_congr (fun token _ => Template.answer_congr hl.helper h token)
      (Helper.recalls_refl l.helpers) (Helper.recalls_refl l.helpers) hstateless.helper
      hstateless.helper

/-! ### Twins -/

/-- Loaded pages that were made from different sources and are the same in all else. -/
structure Page.IsTwin (p q : Page) : Prop where
  loaded : p.loaded = true ∧ q.loaded = true
  name : p.explicitName = q.explicitName
  body : p.body = q.body
  frontMatter : p.frontMatter = q.frontMatter
  extracted : p.extracted = q.extracted

namespace Page.IsTwin

theorem showsSame (h : p.IsTwin q) : p.ShowsSame q where
  name := by rw [Page.name, Page.name, h.name, h.frontMatter]
  body := h.body
  frontMatter := h.frontMatter

/-- Twins give up their front matter together, and are twins afterwards. -/
theorem extract (h : p.IsTwin q) :
    (∃ e, p.extract = .error e ∧ q.extract = .error e) ∨
      ∃ p' q', p.extract = .ok p' ∧ q.extract = .ok q' ∧ p'.IsTwin q' := by
  rw [Page.extract, Page.extract, h.extracted, h.body]
  by_cases hq : q.extracted = true
  · exact .inr ⟨p, q, if_pos hq, if_pos hq, h⟩
  · rw [if_neg hq, if_neg hq]
    cases FrontMatter.split q.body with
    | error fault => exact .inl ⟨_, rfl, rfl⟩
    | ok r => exact .inr ⟨_, _, rfl, rfl, h.loaded, h.name, rfl, rfl, rfl⟩

/-- **Twins are rendered the same way**, and are twins afterwards. -/
theorem render (h : p.IsTwin q) (hkeeps : l.Keeps l') (hstateless : l.IsStateless)
    (hl : l.AsksContent) (d d' : Disk) :
    (l'.render d' p).result = (l.render d q).result ∧
      (l'.render d' p).page.IsTwin (l.render d q).page := by
  have hfreeze : l.freeze.Keeps l'.freeze := ⟨hkeeps.filters, hkeeps.helpers⟩
  have hstateless : l.freeze.IsStateless := ⟨hstateless.filter, hstateless.helper⟩
  have hl : l.freeze.AsksContent := ⟨hl.filter, hl.helper⟩
  simp only [Layout.render, load_of_loaded h.loaded.1, load_of_loaded h.loaded.2]
  obtain ⟨e, hp, hq⟩ | ⟨p', q', hp, hq, htwin⟩ := h.extract
  · simp only [hp, hq]
    exact ⟨trivial, h⟩
  · simp only [hp, hq]
    refine ⟨?_, htwin⟩
    calc (l'.freeze.renderBody p').1
        = (l.freeze.renderBody p').1 := hfreeze.renderBody_fst hstateless p'
      _ = (l.freeze.renderBody q').1 := Layout.renderBody_fst_congr hstateless hl htwin.showsSame

end Page.IsTwin

/-! ### Files -/

/-- Only a text that begins with a byte order mark is encoded to bytes that do. -/
theorem Encoding.head?_of_mark_isPrefix (h : mark <+: Utf8.encode t) :
    t.head? = some '\uFEFF' := by
  obtain ⟨rest, hrest⟩ := h
  cases t with
  | nil => cases hrest
  | cons c t =>
    obtain ⟨b, tail, hc⟩ := List.exists_cons_of_ne_nil (String.utf8EncodeChar_ne_nil (c := c))
    have hread := Utf8.readChar_of_encodeChar hc (Utf8.encode t)
    rw [Utf8.encode_cons, hc] at hrest
    obtain ⟨rfl, htail⟩ : 0xEF = b ∧ 0xBB :: 0xBF :: rest = tail ++ Utf8.encode t :=
      List.cons.inj hrest
    rw [← htail] at hread
    have hmark : Utf8.readChar 0xEF (0xBB :: 0xBF :: rest) = .ok ('\uFEFF', 2) := rfl
    have hc := congrArg Prod.fst (Except.ok.inj (hmark.symm.trans hread))
    exact congrArg some hc.symm

/-- A text without carriage returns that does not begin with a mark is read as it is, whether the
file begins with one or not. -/
theorem Source.read_encode (hreturn : '\r' ∉ t) (hhead : t.head? ≠ some '\uFEFF') {path : Path}
    (hread : d.read path = .ok bytes)
    (hbytes : bytes = Utf8.encode t ∨ bytes = Encoding.mark ++ Utf8.encode t) :
    Source.read .utf8Marked d path = .ok t := by
  have hspells : Encoding.Spells bytes t := by
    rcases hbytes with rfl | rfl
    · exact .plain fun h => hhead (Encoding.head?_of_mark_isPrefix h)
    · exact .marked t
  exact (read_eq_ok_iff hread).mpr
    ⟨t, hspells, Text.unifies_iff.mpr (Text.unifyBreaks_of_notMem hreturn).symm⟩

theorem Page.exists_isTwin_ofText {path : Path} (h : Source.read .utf8Marked d path = .ok t)
    (name : Option Text) : ∃ p, ofFile d path name = .ok p ∧ p.IsTwin (ofText t name) := by
  simp only [ofFile, load, h]
  exact ⟨_, rfl, ⟨rfl, rfl⟩, rfl, rfl, rfl, rfl⟩

/-- **A file is rendered like the text in it.** The file holds a text without carriage returns that
does not begin with a mark, and may begin with a mark itself. Then there is a page from the file,
and it is rendered like the page from the text: with the same result or the same failure, whatever
the disks are by then and whatever the layout was used for between the two. Both pages are left
with the same body, front matter and name, and with their front matter taken out or not. -/
theorem Layout.render_ofFile (hreturn : '\r' ∉ t) (hhead : t.head? ≠ some '\uFEFF') {path : Path}
    (hread : d.read path = .ok bytes)
    (hbytes : bytes = Utf8.encode t ∨ bytes = Encoding.mark ++ Utf8.encode t)
    (hstateless : l.IsStateless) (hl : l.AsksContent) (hkeeps : l.Keeps l') (name : Option Text)
    (d₁ d₂ : Disk) :
    ∃ page, Page.ofFile d path name = .ok page ∧
      let ofFile := l'.render d₂ page
      let ofText := l.render d₁ (.ofText t name)
      ofFile.result = ofText.result ∧ ofFile.page.body = ofText.page.body ∧
        ofFile.page.frontMatter = ofText.page.frontMatter ∧
        ofFile.page.name = ofText.page.name ∧ ofFile.page.extracted = ofText.page.extracted := by
  obtain ⟨page, hpage, htwin⟩ :=
    Page.exists_isTwin_ofText (Source.read_encode hreturn hhead hread hbytes) name
  obtain ⟨hresult, hafter⟩ := htwin.render hkeeps hstateless hl d₁ d₂
  exact ⟨page, hpage, hresult, hafter.body, hafter.frontMatter, hafter.showsSame.name,
    hafter.extracted⟩

/-- A file with a mark and front matter. The layout was used before, and its helper from outside has
heard of that. -/
theorem Layout.render_ofFile_behind_mark :
    let t : Text := "---\nname: N\n---\n<p> \x7bNAME\x7d, \x7bX\x7d </p>"
    let d : Disk := ⟨[], [(["a.md"], .file (Encoding.mark ++ Utf8.encode t))]⟩
    let body : Helper := .custom (fun _ token => .ok (token = "X".toList))
      (fun _ _ page => .ok (some page.body)) []
    let l : Layout := ⟨[.minify], [body], false⟩
    let l' := (l.render d (.ofText "\x7bX\x7d" none)).layout
    let page : Page := ⟨.file, some "a.md", none, t, [], true, false⟩
    Page.ofFile d "a.md" none = .ok page ∧
      (l'.render d page).result = (l.render d (.ofText t none)).result := by
  intro t d body l l' page
  have hbody : ∀ h ∈ l.helpers, h.IsStateless ∧ h.AsksContent := by
    rintro h hmem
    obtain rfl := List.mem_singleton.mp hmem
    refine ⟨⟨fun _ _ => rfl, fun _ _ _ => rfl⟩, fun token p q hpq => ?_⟩
    exact congrArg (fun text => Except.ok (some text)) hpq.body
  have hminify : ∀ f ∈ l.filters, f.IsStateless ∧ f.AsksContent := by
    rintro f hmem
    obtain rfl := List.mem_singleton.mp hmem
    exact ⟨fun _ _ _ => rfl, fun body _ _ _ => by cases body <;> rfl⟩
  have hread : d.read "a.md" = .ok (Encoding.mark ++ Utf8.encode t) := by decide
  have hkeeps : l.Keeps l' := (keeps_render l d _).2
  obtain ⟨p, hp, hresult, -⟩ := Layout.render_ofFile (by decide) (by decide) hread (.inr rfl)
    ⟨fun f hf => (hminify f hf).1, fun h hh => (hbody h hh).1⟩
    ⟨fun f hf => (hminify f hf).2, fun h hh => (hbody h hh).2⟩ hkeeps none d d
  have hpage : Page.ofFile d "a.md" none = .ok page := by decide
  obtain rfl : p = page := Except.ok.inj (hp.symm.trans hpage)
  exact ⟨hpage, hresult⟩

end Pageloom
