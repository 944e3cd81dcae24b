import Pageloom.Proofs.Entries
import Pageloom.Proofs.Layout.Rendering
import Pageloom.Proofs.Site.Rendering
import Pageloom.Proofs.Template.Fill

/-!
# Tokens on the pages of a site

What stands for a token on a page of a site is decided by the settings of the site, the front matter
of the page, and the name of its file. Front matter goes before the site's data, and both before the
base address. The name of the page is not taken from front matter like other tokens: the site's data
goes before it, and it is the title of the file if front matter has none.

The layout of a site asks its helpers for all this, one after the other. Here it is said without
them: `Site.tokenText?` is a function of the settings and the page.

## Main definitions

* `Site.tokenText?`: the text for a token on a page of a site.

## Main results

* `Site.baseUrl_eq_iff`: the base address of a site, by its setting.
* `Site.answer_helpers`: the helpers of a site answer with it.
* `Site.renderPage_fills_tokens`: a page of a site, with its placeholders filled.
-/

namespace Pageloom.Site

open Helper Template

variable {d new : Disk} {root source : Path} {asked : Option Path} {c : Config} {job : Job}
  {l : Layout} {page : Page} {rendered : Rendered} {fileName token : Text} {entries : Entries}

/-- The text of the last of the site's data whose name in upper case is the token. -/
def dataText? (data : Option Value) (token : Text) : Option Text :=
  match data with
  | some (.map values) =>
    (values.reverse.find? fun (k, _) => Text.upper k.toText = token).map fun (_, v) => v.toText
  | _ => none

/-- The text for a token on a page with a front matter and a file name. -/
def tokenText? (c : Config) (entries : Entries) (fileName token : Text) : Option Text :=
  (if token = nameToken then none else inFrontMatter token entries).or <|
  (dataText? (Config.setting "data" c) token).or <|
  (if token = linkToken then some (Html.trimBase (Config.baseUrl c)) else none).or <|
  if token = nameToken then some ((entries.get? "name").getD (Name.title fileName)) else none

/-! ### The base address -/

/-- **The base address** is the text of the setting if it counts as set, and empty otherwise. -/
theorem baseUrl_eq_iff {base : Text} : Config.baseUrl c = base ↔
    (∃ v, Config.setting "base_url" c = some v ∧ v.isTrue ∧ v.toText = base) ∨
      base = [] ∧ ∀ v, Config.setting "base_url" c = some v → v.isTrue = false := by
  rw [Config.baseUrl]
  cases Config.setting "base_url" c with
  | none => simp
  | some v => cases hv : v.isTrue <;> simp [hv]

/-! ### The helpers of a site -/

/-- Of values whose names agree in upper case, the last counts. -/
theorem get?_foldl_put (values : List (Value × Value)) (token : Text) :
    Entries.get? token
        (values.foldl (fun es (k, v) => Entries.put (Text.upper k.toText) v.toText es) []) =
      (values.reverse.find? fun (k, _) => Text.upper k.toText = token).map
        fun (_, v) => v.toText := by
  induction values using List.reverseRecOn with
  | nil => rfl
  | append_singleton values value ih =>
    rw [List.foldl_append, List.foldl_cons, List.foldl_nil, Entries.get?_put, ih,
      List.reverse_append, List.reverse_singleton, List.singleton_append, List.find?_cons]
    by_cases htoken : token = Text.upper value.1.toText
    · simp [htoken]
    · simp [htoken, Ne.symm htoken]

theorem reply?_ofValues (values : List (Value × Value)) :
    (ofValues values).reply? token page =
      ((values.reverse.find? fun (k, _) => Text.upper k.toText = token).map
        fun (_, v) => v.toText).map .ok := by
  rw [← get?_foldl_put, ofValues, reply?, claims, resolve]
  generalize Entries.get? token _ = value
  cases value <;> rfl

theorem reply?_ofBaseUrl (base : Text) : (ofBaseUrl base).reply? token page =
    (if token = linkToken then some (Html.trimBase base) else none).map .ok := by
  by_cases htoken : token = linkToken <;> simp [reply?, ofBaseUrl, claims, resolve, htoken]

/-- The helper for the data of a site, if there is any. -/
def dataHelpers : Option Value → List Helper
  | some (.map (e :: es)) => [ofValues (e :: es)]
  | _ => []

theorem helpers_eq (c : Config) : Config.helpers c =
    [Helper.frontMatter] ++ dataHelpers (Config.setting "data" c) ++
      [ofBaseUrl (Config.baseUrl c)] := rfl

theorem findSome?_dataHelpers (data : Option Value) :
    (dataHelpers data).findSome? (reply? token page) = (dataText? data token).map .ok := by
  cases data with
  | none => rfl
  | some v =>
    cases v with
    | map values =>
      cases values with
      | nil => rfl
      | cons e es => rw [dataHelpers, List.findSome?_singleton, reply?_ofValues, dataText?]
    | _ => rfl

/-- **The helpers of a site** answer with the text for a token, or leave the placeholder. -/
theorem answer_helpers (hname : page.name = some ((page.frontMatter.get? "name").getD
      (Name.title fileName))) (c : Config) (token : Text) :
    answer page (Config.helpers c) token =
      .ok ((tokenText? c page.frontMatter fileName token).getD (placeholder token)) := by
  rw [answer, helpers_eq, tokenText?, List.findSome?_append, List.findSome?_append,
    List.findSome?_append, findSome?_dataHelpers, List.findSome?_singleton,
    List.findSome?_singleton, List.findSome?_singleton, reply?_frontMatter, reply?_ofBaseUrl,
    reply?_name, hname]
  rw [← Option.map_or, ← Option.map_or, ← Option.map_or, Option.getD_map, Option.or_assoc,
    Option.or_assoc]

theorem exists_of_mem_dataHelpers {data : Option Value} {h : Helper} (hh : h ∈ dataHelpers data) :
    ∃ values, h = ofValues values := by
  rw [dataHelpers.eq_def] at hh
  split at hh
  · exact ⟨_, List.mem_singleton.mp hh⟩
  · cases hh

theorem isStateless_of_mem_helpers {h : Helper} (hh : h ∈ Config.helpers c) : h.IsStateless := by
  simp only [helpers_eq, List.mem_append, List.mem_singleton] at hh
  rcases hh with (rfl | hh) | rfl
  · exact .of_recalling fun _ => rfl
  · obtain ⟨values, rfl⟩ := exists_of_mem_dataHelpers hh
    exact .of_recalling fun _ => rfl
  · exact .of_recalling fun _ => rfl

theorem eq_layout_of_layout? (h : Config.layout? c = .ok l) : l = Config.layout c := by
  rw [Config.layout?] at h
  split at h <;> cases h
  rfl

/-! ### Pages of a site -/

theorem renderBody_eq_ok (h : (l.renderBody page).1 = .ok rendered) :
    ∃ filtered filters,
      Filter.applyAll l.filters (some page.body) page = (.ok (some filtered), filters) ∧
        (fill filtered page l.helpers).1 = .ok rendered.html := by
  obtain ⟨filtered, hfiltered, hfill⟩ := Layout.exists_fill_of_renderBody h
  exact ⟨filtered, _, Prod.ext hfiltered rfl, congrArg Prod.fst hfill⟩

/-- A page is rendered by applying the filters to its body and filling the placeholders of what
comes of it. -/
theorem renderPage_eq_ok (h : renderPage d l source = .ok (page, rendered)) :
    IsRead d source page ∧ ∃ filtered filters,
      Filter.applyAll l.filters (some page.body) page = (.ok (some filtered), filters) ∧
        (fill filtered page l.helpers).1 = .ok rendered.html := by
  rw [renderPage] at h
  cases hpage : readPage d source with
  | error f => simp [hpage] at h
  | ok loaded =>
    have hread := isRead_of_readPage hpage
    simp only [hpage, Layout.render, hread.load, hread.extract] at h
    cases hresult : (l.freeze.renderBody loaded).1 with
    | error f => simp [hresult] at h
    | ok r =>
      simp only [hresult] at h
      obtain ⟨rfl, rfl⟩ := Prod.mk.inj (Except.ok.inj h)
      exact ⟨hread, renderBody_eq_ok (l := l.freeze) hresult⟩

/-! ### The placeholders of a page -/

theorem isSome_tokenText? (c : Config) (entries : Entries) (fileName : Text)
    (htoken : token = nameToken ∨ token = linkToken) :
    (tokenText? c entries fileName token).isSome := by
  rcases htoken with rfl | rfl
  · simp [tokenText?]
  · simp [tokenText?]

/-- **The placeholders of a page.** A page of a site is read and filtered, on whatever disk the
build has opened, and each placeholder of what comes of it is filled with the text for its token, to
the letter, or stays if there is none. There always is one for the name of the page and for the base
address. -/
theorem renderPage_fills_tokens (hjob : prepare d root asked = .ok job)
    (hlayout : job.layout = .ok l) (hpage : renderPage new l source = .ok (page, rendered)) :
    ∃ c text body filtered filters, Config.load d root = .ok c ∧
      Source.read .utf8Marked new source = .ok text ∧
      FrontMatter.split text = .ok (page.frontMatter, body) ∧
      Filter.applyAll (Config.filters c) (some body) page = (.ok (some filtered), filters) ∧
      (∃! cut : Cut, cut.IsExact ∧ cut.print = filtered) ∧
      (∀ cut : Cut, cut.IsExact → cut.print = filtered →
        rendered.html = cut.before ++ cut.tokens.flatMap fun (token, behind) =>
          (tokenText? c page.frontMatter source.name token).getD (placeholder token) ++ behind) ∧
      ∀ token ∈ [nameToken, linkToken],
        (tokenText? c page.frontMatter source.name token).isSome := by
  obtain ⟨c, content, hplanned⟩ := prepare_eq_ok hjob
  have hl : l = Config.layout c := eq_layout_of_layout? (hplanned.layout.symm.trans hlayout)
  subst hl
  obtain ⟨hread, filtered, filters, hfilters, hfill⟩ := renderPage_eq_ok hpage
  obtain ⟨text, hsource, hsplit⟩ := hread.split
  refine ⟨c, text, page.body, filtered, filters, hplanned.config, hsource, hsplit, hfilters,
    existsUnique_cut filtered, ?_, fun token htoken => ?_⟩
  · rintro cut hcut rfl
    have hfilled := fill_of_answers hcut (fun h hh => isStateless_of_mem_helpers hh)
      (answer_helpers hread.name c)
    exact Except.ok.inj (hfill.symm.trans hfilled)
  · exact isSome_tokenText? c _ _ (List.mem_pair.mp htoken)

/-- A page with a token of each kind. Of the site's data the last entry counts, and there is no base
address, so its placeholder becomes empty. -/
theorem renderPage_of_each_token :
    let d : Disk := ⟨[], [(["project"], .directory), (["project", "content"], .directory),
      (["project", "content", "my-page.md"], .file (Utf8.encode
        "---\nx-y: f\n---\n\x7bX_Y\x7d \x7bV\x7d \x7bBASE_URL\x7d \x7bNAME\x7d \x7bZ\x7d".toList)),
      (["project", "folio.yaml"],
        .file (Utf8.encode "markdown: false\ndata:\n  v: 1\n  V: 2".toList))]⟩
    let source : Path := "project/content/my-page.md"
    ∃ job l page rendered, prepare d "project" none = .ok job ∧ job.layout = .ok l ∧
      renderPage d l source = .ok (page, rendered) ∧
      rendered.html = "f 2  My Page \x7bZ\x7d".toList := by
  intro d source
  let body : Text := "\x7bX_Y\x7d \x7bV\x7d \x7bBASE_URL\x7d \x7bNAME\x7d \x7bZ\x7d"
  let entries : Entries := [("x-y", "f")]
  let texts : List (Option Text) := [some "f", some "2", some [], some "My Page", none]
  let cut : Cut := ⟨[], [("X_Y", " "), ("V", " "), ("BASE_URL", " "), ("NAME", " "), ("Z", [])]⟩
  have hrendered : ((prepare d "project" none).toOption.bind fun job =>
      job.layout.toOption.bind fun l => (renderPage d l source).toOption.map fun _ => ()) =
      some () := by decide +kernel
  have hsplit : ((Source.read .utf8Marked d source).toOption.bind fun text =>
      (FrontMatter.split text).toOption) = some (entries, body) := by decide +kernel
  have hsite : ((Config.load d "project").toOption.map fun c =>
      ((Config.filters c).length, cut.tokens.map fun p =>
        tokenText? c entries source.name p.1)) = some (0, texts) := by decide +kernel
  have hcut : cut.IsExact := by decide +kernel
  rcases hjob : prepare d "project" none with f | job <;> rw [hjob] at hrendered
  · cases hrendered
  rcases hlayout : job.layout with f | l <;>
    simp only [Except.toOption, Option.bind_some, hlayout] at hrendered
  · cases hrendered
  rcases hpage : renderPage d l source with e | ⟨page, rendered⟩ <;> rw [hpage] at hrendered
  · cases hrendered
  refine ⟨job, l, page, rendered, rfl, hlayout, hpage, ?_⟩
  obtain ⟨c, text, body', filtered, filters, hload, hread, hparts, hfilters, -, hfilled, -⟩ :=
    renderPage_fills_tokens hjob hlayout hpage
  simp only [hread, hparts, Except.toOption, Option.bind_some, Option.some.injEq,
    Prod.mk.injEq] at hsplit
  simp only [hload, Except.toOption, Option.map_some, Option.some.injEq, Prod.mk.injEq] at hsite
  obtain ⟨hentries, rfl⟩ := hsplit
  obtain ⟨hnone, hvalues⟩ := hsite
  rw [List.length_eq_zero_iff.mp hnone] at hfilters
  obtain rfl : body = filtered := Option.some.inj (Except.ok.inj (Prod.mk.inj hfilters).1)
  rw [hfilled cut hcut (by decide), hentries]
  simp only [cut, texts, List.map_cons, List.cons.injEq] at hvalues
  obtain ⟨hx, hv, hbase, hname, hz, -⟩ := hvalues
  simp only [cut, List.flatMap_cons, List.flatMap_nil, hx, hv, hbase, hname, hz]
  decide

end Pageloom.Site
