import Pageloom.Proofs.FrontMatter.Header
import Pageloom.Proofs.Html.Rebased
import Pageloom.Proofs.Site.Tokens

/-!
# Links to the site

An address on the site can be written in two ways. A link with a root-relative address gets the
base address from a filter, which reads attributes and runs before any placeholder is filled. A link
with the token for the base address in front of the same path gets it from a helper, which knows
nothing of attributes and fills what the filters have left. Both trim the slashes at the end of the
base address, and for neither does it matter what is left of it.

So the two ways agree wherever each of them sees the link as it was written: the path holds no quote
that would end the address early, and nothing in it or in the base address opens a placeholder. That
the path has no slash in front matters to the filter alone, for which two slashes lead to another
host.

## Main definitions

* `Site.anchor`: the tag of a link.

## Main results

* `Site.absolutize_anchor`: what absolute URLs make of a link.
* `Site.fill_anchor_token`: what the helper for the base address makes of one.
* `Site.render_link_eq`: both ways give the same page.
-/

namespace Pageloom.Site

open Helper Html Template

variable {base address path : Text} {l : Layout} {d : Disk} {page : Page} {name : Option Text}

/-- The attribute of a link. -/
def hrefOf (address : Text) : UrlAttribute := ⟨"href", '"', address⟩

/-- The tag of a link. -/
def anchor (address : Text) : Text := ['<', 'a', ' '] ++ (hrefOf address).print ++ ['>']

theorem anchor_eq (address : Text) :
    anchor address = "<a href=\"".toList ++ address ++ "\">".toList := by
  simp [anchor, hrefOf, UrlAttribute.print]

theorem anchor_eq_tag (address : Text) :
    anchor address = '<' :: (['a'] ++ ([hrefOf address].flatMap (' ' :: ·.print) ++ ['>'])) := by
  simp [anchor]

theorem rebase_hrefOf (base address : Text) : (hrefOf address).rebase base =
    hrefOf (if isRootRelative address then base ++ address else address) := by
  have hurl : (hrefOf address).url = address := rfl
  rw [UrlAttribute.rebase, hurl]
  split <;> rfl

theorem notMem_anchor {c : Char} (hc : c ∉ anchor []) (haddress : c ∉ address) :
    c ∉ anchor address := by
  simp only [anchor_eq, List.append_nil, List.mem_append, not_or] at hc ⊢
  exact ⟨⟨hc.1, haddress⟩, hc.2⟩

/-! ### The filter -/

/-- **A link with absolute URLs**: the base is put in front of its address, if that is
root-relative. -/
theorem absolutize_anchor (hquote : '"' ∉ address) (base : Text) :
    absolutize (anchor address) base =
      anchor (if isRootRelative address then trimBase base ++ address else address) := by
  have hspells : Spells "href" "href" := by decide
  have hread : Html.IsRead (hrefOf address) :=
    ⟨⟨"href", List.mem_cons_self, hspells⟩, rfl, hquote⟩
  have hattribute : ∀ a ∈ [hrefOf address], ∀ t, markupFrom (some ' ') 0 (a.print ++ t) =
      [.attribute a] ++ markupFrom (some a.quote) 0 t := by
    intro a ha t
    obtain rfl := List.mem_singleton.mp ha
    exact hread.markupFrom_print (by decide) t
  have hname : ∀ c ∈ ['a'], isQuote c = false := List.forall_mem_singleton.mpr rfl
  have hmarkup := markupFrom_tag hname hattribute none []
  rw [List.append_nil, markupFrom, List.append_nil, ← anchor_eq_tag] at hmarkup
  have hprint : rebasedText base [.attribute (hrefOf address)] =
      ((hrefOf address).rebase (trimBase base)).print := List.append_nil _
  rw [absolutize_eq_rebasedText, markup, hmarkup, rebasedText_tag, anchor_eq_tag,
    List.flatMap_singleton, List.flatMap_singleton, hprint, rebase_hrefOf]

theorem isRootRelative_cons (hslash : path.head? ≠ some '/') : isRootRelative ('/' :: path) := by
  refine isRootRelative_iff.mpr ⟨List.prefix_append ['/'] path, fun htwo => hslash ?_⟩
  obtain ⟨rest, hrest⟩ := (List.cons_prefix_cons.mp htwo).2
  rw [← hrest]
  rfl

/-! ### The helper -/

/-- **A link with a token**: the base address takes the place of the token. -/
theorem fill_anchor_token (hbrace : '\x7b' ∉ path) (base : Text) (page : Page) :
    (fill (anchor (placeholder linkToken ++ path)) page [ofBaseUrl base]).1 =
      .ok (anchor (trimBase base ++ path)) := by
  let cut : Cut := ⟨"<a href=\"".toList, [(linkToken, path ++ "\">".toList)]⟩
  have hbefore : IsPlain "<a href=\"".toList := by decide
  have htoken : IsToken linkToken := by decide
  have hcut : cut.IsExact := by
    refine ⟨hbefore, fun p hp => ?_, fun p hp => ?_⟩ <;> obtain rfl := List.mem_singleton.mp hp
    · exact htoken
    · exact isPlain_of_notMem (by simpa using hbrace)
  have hprint : cut.print = anchor (placeholder linkToken ++ path) := by
    simp [cut, Cut.print, anchor_eq]
  have hvalues : List.Forall₂ (fun p v => answer page [ofBaseUrl base] p.1 = .ok v) cut.tokens
      [trimBase base] := by
    refine .cons ?_ .nil
    rw [answer, List.findSome?_append, List.findSome?_singleton, reply?_ofBaseUrl, if_pos rfl]
    rfl
  have hstateless : ∀ h ∈ [ofBaseUrl base], h.IsStateless := by
    rintro h hh
    obtain rfl := List.mem_singleton.mp hh
    exact .of_recalling fun _ => rfl
  rw [← hprint, fill_print_fst hcut,
    fillPieces_tokens_of_ok (recalls_refl _) hstateless hvalues]
  simp [cut, anchor_eq, Except.map]

/-! ### Pages -/

/-- A text without front matter is rendered by filtering it and filling what comes of it. -/
theorem result_render_ofText {body filtered html : Text}
    (hsplit : FrontMatter.split body = .ok ([], body))
    (hfilters : ∀ page, (Filter.applyAll l.filters (some body) page).1 = .ok (some filtered))
    (hfill : ∀ page, (fill filtered page l.helpers).1 = .ok html) (d : Disk)
    (name : Option Text) :
    (l.render d (.ofText body name)).result = .ok ⟨html, name, []⟩ := by
  let page : Page := { Page.ofText body name with extracted := true }
  have hload : (Page.ofText body name).load d = .ok (.ofText body name) := rfl
  have hextract : (Page.ofText body name).extract = .ok page := by
    simp [Page.extract, Page.ofText, hsplit, page]
  have hname : page.name = name := by cases name <;> rfl
  have hfiltered : (Filter.applyAll l.freeze.filters (some page.body) page).1 =
      .ok (some filtered) := hfilters page
  have hfilled : (fill filtered page l.freeze.helpers).1 = .ok html := hfill page
  rw [Layout.render_of_extract hload hextract, (Layout.renderBody_of_filtered hfiltered).1,
    hfilled, Except.map, hname]
  rfl

theorem split_anchor (address : Text) :
    FrontMatter.split (anchor address) = .ok ([], anchor address) :=
  FrontMatter.split_cons_of_ne (by decide) _

/-- **The two ways to a link to the site** give the same page, whatever the base address and the
path, as long as neither opens a placeholder and the path ends at the quote of the link. -/
theorem render_link_eq (hbase : '\x7b' ∉ base) (hquote : '"' ∉ path) (hbrace : '\x7b' ∉ path)
    (hslash : path.head? ≠ some '/') (d : Disk) (name : Option Text) (frozen frozen' : Bool) :
    let rendered : Rendered := ⟨"<a href=\"" ++ trimBase base ++ "/" ++ path ++ "\">", name, []⟩
    ((Layout.mk [.absolute base] [] frozen).render d
        (.ofText ("<a href=\"/" ++ path ++ "\">") name)).result = .ok rendered ∧
      ((Layout.mk [] [ofBaseUrl base] frozen').render d
        (.ofText ("<a href=\"\x7bBASE_URL\x7d/" ++ path ++ "\">") name)).result = .ok rendered := by
  have hrooted : "<a href=\"/".toList ++ path ++ "\">".toList = anchor ('/' :: path) := by
    simp [anchor_eq]
  have htoken : "<a href=\"\x7bBASE_URL\x7d/".toList ++ path ++ "\">".toList =
      anchor (placeholder linkToken ++ '/' :: path) := by
    have hstart : "<a href=\"\x7bBASE_URL\x7d/".toList =
        "<a href=\"".toList ++ placeholder linkToken ++ ['/'] := by decide
    rw [hstart, anchor_eq]
    simp only [List.append_assoc, List.cons_append, List.nil_append]
  have hhtml : "<a href=\"".toList ++ trimBase base ++ "/".toList ++ path ++ "\">".toList =
      anchor (trimBase base ++ '/' :: path) := by
    simp [anchor_eq]
  have habsolute : absolutize (anchor ('/' :: path)) base =
      anchor (trimBase base ++ '/' :: path) := by
    rw [absolutize_anchor (by simpa using hquote), if_pos (isRootRelative_cons hslash)]
  have hplain : IsPlain (anchor (trimBase base ++ '/' :: path)) := by
    refine isPlain_of_notMem (notMem_anchor (by decide) ?_)
    simpa [hbrace] using fun hmem => hbase (mem_of_mem_trimBase hmem)
  rw [hrooted, htoken, hhtml]
  constructor
  · have hfilters (page : Page) : (Filter.applyAll [.absolute base]
        (some (anchor ('/' :: path))) page).1 =
        .ok (some (anchor (trimBase base ++ '/' :: path))) := by
      rw [Filter.applyAll, Filter.apply, habsolute]
      rfl
    exact result_render_ofText (split_anchor _) hfilters
      (fun page => fill_of_isPlain hplain page []) d name
  · exact result_render_ofText (split_anchor _) (fun page => rfl)
      (fill_anchor_token (by simpa using hbrace) base) d name

/-- A path with blanks, a line break and what looks like another attribute, and a base address that
ends in two slashes. -/
theorem render_link_of_strange_path :
    let base : Text := "https://h.com//"
    let path : Text := "b c'd\n href='/x'"
    let rendered : Rendered := ⟨"<a href=\"https://h.com/b c'd\n href='/x'\">", some "N", []⟩
    ('\x7b' ∉ base ∧ '"' ∉ path ∧ '\x7b' ∉ path ∧ path.head? ≠ some '/') ∧
      ((Layout.mk [.absolute base] [] false).render ⟨[], []⟩
        (.ofText ("<a href=\"/" ++ path ++ "\">") (some "N"))).result = .ok rendered ∧
      ((Layout.mk [] [ofBaseUrl base] true).render ⟨[], []⟩
        (.ofText ("<a href=\"\x7bBASE_URL\x7d/" ++ path ++ "\">") (some "N"))).result =
          .ok rendered := by
  intro base path rendered
  have hbase : '\x7b' ∉ base := by decide
  have hquote : '"' ∉ path := by decide
  have hbrace : '\x7b' ∉ path := by decide
  have hslash : path.head? ≠ some '/' := by decide
  have hhtml : "<a href=\"".toList ++ trimBase base ++ "/".toList ++ path ++ "\">".toList =
      rendered.html := by decide
  refine ⟨⟨hbase, hquote, hbrace, hslash⟩, ?_⟩
  have hlink := render_link_eq hbase hquote hbrace hslash ⟨[], []⟩ (some "N") false true
  simp only [hhtml] at hlink
  exact hlink

end Pageloom.Site
