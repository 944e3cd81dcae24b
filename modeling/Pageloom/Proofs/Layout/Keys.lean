import Pageloom.Proofs.Entries
import Pageloom.Proofs.Layout.Rendering
import Pageloom.Proofs.Template.Fill
import Pageloom.Proofs.Text.Case

/-!
# Front matter by token

The token for an entry of front matter is its key in upper case, with underscores for its dashes.
The entry is not found that way, though: the key and the token are compared in lower case. For keys
in ASCII that is the same. Beyond ASCII there are letters whose upper case is in ASCII, like that of
`ß`, and no way leads back from there, so no entry with such a key is found.

The token for the name is apart. It is not for the helper for front matter, and the name of a page
without one of its own is the entry with the key `name` as it is, not in any other case.

## Main definitions

* `Helper.tokenOf`: the token for an entry.
* `Helper.IsReached`: the keys whose entries are found by their tokens.

## Main results

* `Helper.comparable_eq_lower_iff`: when a key and its token agree.
* `Layout.result_render_key`: a page that consists of the token for its only entry.
-/

namespace Pageloom

namespace Helper

open Template

variable {key token value : Text} {page : Page} {c : Char}

/-- The token for an entry of front matter. -/
def tokenOf (key : Text) : Text := Text.replaceChar '-' '_' (Text.upper key)

/-- The key is in ASCII, and it is `name` if its token is the one for the name. -/
def IsReached (key : Text) : Prop :=
  (∀ c ∈ key, c.toNat < 128) ∧ (tokenOf key = nameToken → key = "name")

instance (key : Text) : Decidable (IsReached key) :=
  decidable_of_iff ((key.all fun c => c.toNat < 128) ∧
    (tokenOf key = nameToken → key = "name".toList)) (by rw [IsReached, List.all_iff_forall_prop])

/-! ### Keys and tokens -/

/-- A character of a key in ASCII, in lower case directly and by way of the token. -/
theorem comparable_char (hc : c.toNat < 128) :
    (if c.toLower = '-' then '_' else c.toLower).toNat < 128 ∧
      (if c.toUpper = '-' then '_' else c.toUpper).toLower =
        if c.toLower = '-' then '_' else c.toLower :=
  forall_ascii (P := fun c => (if c.toLower = '-' then '_' else c.toLower).toNat < 128 ∧
    (if c.toUpper = '-' then '_' else c.toUpper).toLower =
      if c.toLower = '-' then '_' else c.toLower) (by decide) hc

/-- A key in ASCII agrees with its token in lower case. -/
theorem comparable_of_ascii (h : ∀ c ∈ key, c.toNat < 128) :
    comparable key = Text.lower (tokenOf key) := by
  have htoken : (tokenOf key).map Char.toLower =
      key.map fun c => if c.toLower = '-' then '_' else c.toLower := by
    rw [tokenOf, Text.upper_of_ascii h, Text.replaceChar, List.map_map, List.map_map]
    exact List.map_congr_left fun c hc => (comparable_char (h c hc)).2
  rw [Text.lower_of_ascii, htoken, comparable, Text.lower_of_ascii (Text.toLower_of_ascii h),
    Text.replaceChar, List.map_map]
  · rfl
  · rw [htoken]
    exact List.forall_mem_map.mpr fun c hc => (comparable_char (h c hc)).1

/-- The lower case of a token is in ASCII. -/
theorem toNat_lt_of_mem_lower (htoken : IsToken token) :
    ∀ c ∈ Text.lower token, c.toNat < 128 := by
  have hascii := Text.toLower_of_ascii fun c hc => toNat_lt_of_isTokenChar (htoken.2 c hc)
  rwa [Text.lower_of_ascii hascii]

/-- **A key agrees with its token** exactly if it is in ASCII. -/
theorem comparable_eq_lower_iff (htoken : IsToken (tokenOf key)) :
    comparable key = Text.lower (tokenOf key) ↔ ∀ c ∈ key, c.toNat < 128 := by
  refine ⟨fun h c hc => ?_, comparable_of_ascii⟩
  have hlower : ∀ d ∈ Text.lower key, d.toNat < 128 := fun d hd => by
    have hascii := toNat_lt_of_mem_lower htoken (if d = '-' then '_' else d)
      (h ▸ List.mem_map_of_mem hd)
    split at hascii
    · next hdash =>
      rw [hdash]
      decide
    · exact hascii
  refine (Text.lt_of_mem_of_lower_lt hlower c hc).resolve_right fun hkelvin => ?_
  -- the Kelvin sign is its own upper case, and stands in no token
  have hupper : upperFull c = [c] := by
    rw [← Char.ofNat_toNat c, hkelvin]
    decide
  have hmem : c ∈ Text.upper key := by
    rw [Text.upper, List.mem_flatten]
    exact ⟨[c], hupper ▸ List.mem_map_of_mem hc, List.mem_singleton_self c⟩
  have hdash : (if c = '-' then '_' else c) = c := if_neg fun hdash => by
    rw [hdash] at hkelvin
    cases hkelvin
  have htokenChar := htoken.2 _ (List.mem_map_of_mem hmem)
  rw [hdash] at htokenChar
  have hlt := toNat_lt_of_isTokenChar htokenChar
  omega

/-! ### Answers -/

/-- With the helper for front matter alone, the name of the page is the name, and another token
stands for its entry. -/
theorem answer_frontMatter (page : Page) (token : Text) :
    answer page [frontMatter] token =
      .ok ((if token = nameToken then page.name
        else inFrontMatter token page.frontMatter).getD (placeholder token)) := by
  rw [answer, List.findSome?_append, List.findSome?_singleton, List.findSome?_singleton,
    reply?_frontMatter, reply?_name]
  split
  · cases page.name <;> rfl
  · cases inFrontMatter token page.frontMatter <;> rfl

/-- The name of a page without one of its own, whose front matter has one entry. -/
theorem name_of_entry (hname : page.explicitName = none)
    (hentries : page.frontMatter = [(key, value)]) :
    page.name = if key = "name".toList then some value else none := by
  rw [Page.name, hname, hentries, Entries.get?_cons]
  exact if_congr eq_comm rfl rfl

/-- The only entry of a page stands for its token if it is reached. -/
theorem answer_tokenOf (htoken : IsToken (tokenOf key)) (hname : page.explicitName = none)
    (hentries : page.frontMatter = [(key, value)]) :
    answer page [frontMatter] (tokenOf key) =
      .ok (if IsReached key then value else placeholder (tokenOf key)) := by
  rw [answer_frontMatter, hentries]
  by_cases htarget : tokenOf key = nameToken
  · have hreached : IsReached key ↔ key = "name".toList :=
      ⟨fun h => h.2 htarget, by rintro rfl; decide⟩
    rw [if_pos htarget, name_of_entry hname hentries]
    by_cases hkey : key = "name".toList
    · rw [if_pos hkey, if_pos (hreached.mpr hkey), Option.getD_some]
    · rw [if_neg hkey, if_neg (hreached.not.mpr hkey), Option.getD_none]
  · have hreached : IsReached key ↔ comparable key = Text.lower (tokenOf key) := by
      rw [comparable_eq_lower_iff htoken, IsReached]
      exact and_iff_left fun h => absurd h htarget
    rw [if_neg htarget, inFrontMatter, List.find?_singleton]
    by_cases hkey : comparable key = Text.lower (tokenOf key)
    · rw [if_pos (hreached.mpr hkey)]
      simp [hkey]
    · rw [if_neg (hreached.not.mpr hkey)]
      simp [hkey]

end Helper

/-! ### Pages -/

namespace Page

variable {d : Disk} {p q : Page}

theorem explicitName_of_load (h : p.load d = .ok q) : q.explicitName = p.explicitName := by
  rw [load] at h
  split at h
  · split at h <;> cases h
    rfl
  · cases h
    rfl

theorem explicitName_of_extract (h : p.extract = .ok q) : q.explicitName = p.explicitName := by
  rw [extract] at h
  split at h
  · cases h
    rfl
  · split at h <;> cases h
    rfl

end Page

namespace Layout

open Helper Template

variable {d : Disk} {page loaded opened : Page} {key value : Text}

/-- **An entry by its token.** A page without a name of its own, whose front matter has one entry
and whose body is the token for it, is rendered as the value of the entry if the key is reached.
Otherwise the placeholder stays. -/
theorem result_render_key (hname : page.explicitName = none) (hload : page.load d = .ok loaded)
    (hextract : loaded.extract = .ok opened) (hentries : opened.frontMatter = [(key, value)])
    (htoken : IsToken (tokenOf key)) (hbody : opened.body = placeholder (tokenOf key))
    (frozen : Bool) :
    ((Layout.mk [] [frontMatter] frozen).render d page).result =
      .ok ⟨if IsReached key then value else placeholder (tokenOf key),
        if key = "name".toList then some value else none, [(key, value)]⟩ := by
  have hopened : opened.explicitName = none := by
    rw [Page.explicitName_of_extract hextract, Page.explicitName_of_load hload, hname]
  have hstateless : ∀ h ∈ [frontMatter], h.IsStateless := by
    rintro h hh
    obtain rfl := List.mem_singleton.mp hh
    exact .of_recalling fun _ => rfl
  have hfill := fill_placeholder htoken hstateless (answer_tokenOf htoken hopened hentries)
  have hfiltered : (Filter.applyAll [] (some opened.body) opened).1 =
      .ok (some (placeholder (tokenOf key))) := congrArg (Except.ok ∘ some) hbody
  rw [render_of_extract hload hextract, (renderBody_of_filtered hfiltered).1]
  show ((fill (placeholder (tokenOf key)) opened [frontMatter]).1.map _) = _
  rw [hfill, Except.map, name_of_entry hopened hentries, hentries]

/-- A key with a dash. -/
theorem result_render_published_at :
    let text : Text := "---\npublished-at: x\n---\n\x7bPUBLISHED_AT\x7d"
    FrontMatter.split text = .ok ([("published-at", "x")], placeholder (tokenOf "published-at")) ∧
      IsToken (tokenOf "published-at") ∧ IsReached "published-at" ∧
      ((Layout.mk [] [frontMatter] false).render ⟨[], []⟩ (.ofText text none)).result =
        .ok ⟨"x", none, [("published-at", "x")]⟩ := by
  intro text
  have hsplit : FrontMatter.split text =
      .ok ([("published-at", "x")], placeholder (tokenOf "published-at")) := by decide +kernel
  have htoken : IsToken (tokenOf "published-at") := by decide
  have hreached : IsReached "published-at" := by decide
  have hextract : (Page.ofText text none).extract =
      .ok { Page.ofText text none with
        frontMatter := [("published-at", "x")], body := placeholder (tokenOf "published-at"),
        extracted := true } := by
    simp only [Page.extract, Page.ofText, hsplit, Bool.false_eq_true, if_false]
  have hload : (Page.ofText text none).load ⟨[], []⟩ = .ok (.ofText text none) := rfl
  have hresult := result_render_key rfl hload hextract rfl htoken rfl false
  rw [if_pos hreached, if_neg (by decide)] at hresult
  exact ⟨hsplit, htoken, hreached, hresult⟩

/-- Two keys with tokens that do not reach them: the placeholder stays, for the name in another case
than that of its key, and for a letter whose upper case leads into ASCII. -/
theorem result_render_unreached :
    let html (text : Text) : Option Text := ((Layout.mk [] [frontMatter] false).render ⟨[], []⟩
      (.ofText text none)).result.toOption.map Rendered.html
    let named : Text := "---\nName: x\n---\n\x7bNAME\x7d"
    let sharp : Text := "---\nß: x\n---\n\x7bSS\x7d"
    (FrontMatter.split named = .ok ([("Name", "x")], placeholder (tokenOf "Name")) ∧
        IsToken (tokenOf "Name") ∧
        html named = some (placeholder "NAME") ∧ html named ≠ some "x".toList) ∧
      FrontMatter.split sharp = .ok ([("ß", "x")], placeholder (tokenOf "ß")) ∧
        IsToken (tokenOf "ß") ∧
        html sharp = some (placeholder "SS") ∧ html sharp ≠ some "x".toList := by
  decide +kernel

end Layout

end Pageloom
