import Pageloom.Filter
import Pageloom.Proofs.Html.Rebase
import Pageloom.Proofs.Markdown.CodeMarkup

/-!
# Absolute URLs in code

Absolute URLs are a matter of the attributes of a page, and a code block is text. But the base is
put in wherever the spelling of an attribute stands, and code that is not highlighted is written
with its quotes as they are. So code that shows a link is changed like the link itself.

What is shown then is the code with the base put in, at as many places as there are in what is
written for it. The references in it are not in the way, as none of them holds a slash, and the tags
that a highlighter writes are not either, as long as no slash follows a quote in them. So the code
is shown as it is if no root-relative URL begins in it, and only then. A highlighter that writes
quotes as references is safe, and so is code without an equals sign, a quote and a slash in a row.

The code of a block also has its part in where attributes are read that begin before it, so the
condition is about the whole page and cannot be read off the code alone.

## Main definitions

* `MarksUp`: what is written for code, be it highlighted or not.
* `ShowsAt`: what is written is shown with the base put in.

## Main results

* `MarksUp.exists_showsAt`: written code with the base put in, as it is shown.
* `shown_imageOf_iff`: when written code is shown as it is once URLs are absolute.
* `CodeBlock.not_beginsRootUrl`: a block that is safe.
* `Filter.shown_code_iff`: when a code block of a page is shown as it is.
-/

namespace Pageloom.Markdown

open Pageloom.Html (absolutize BeginsRootUrl imageOf insertAt rootPlaces trimBase)
open Pageloom.Markdown.Html (IsInsideTag shown)
open Reference (decode escape escapeChar)

/-! ### What is written for code -/

/-- No slash follows a quote. -/
def IsUnquoted (inside : Text) : Prop := ∀ quote ∈ ['"', '\''], ¬ [quote, '/'] <:+: inside

/-- What is written for code: pieces that are read as one character each, with tags between them. A
slash is written as it is, and in no tag does one follow a quote. -/
inductive MarksUp : (content code : Text) → Prop
  | nil : MarksUp [] []
  | char {piece content code : Text} {d : Char} (hmark : '<' ∉ piece)
      (hslash : '/' ∈ piece → piece = ['/'])
      (hread : ∀ rest, decode (piece ++ rest) = d :: decode rest) (hrest : MarksUp content code) :
      MarksUp (piece ++ content) (d :: code)
  | tag {inside content code : Text} (hinside : IsInsideTag inside) (hslash : IsUnquoted inside)
      (hrest : MarksUp content code) : MarksUp ('<' :: (inside ++ '>' :: content)) code

variable {base code content piece before behind inside : Text} {places more : List ℕ}
  {m n k : ℕ} {d : Char}

theorem eq_of_slash_mem_escapeChar (h : '/' ∈ escapeChar d) : escapeChar d = ['/'] := by
  rcases Reference.escapeChar_cases d with ⟨heq, -⟩ | ⟨-, hchars⟩
  · rw [heq] at h ⊢
    rw [List.mem_singleton.mp h]
  · exact absurd (hchars h) (by decide)

/-- Code with its markup characters as references is one way to write it. -/
theorem marksUp_escape (code : Text) : MarksUp (escape code) code := by
  induction code with
  | nil => exact .nil
  | cons d code ih =>
    have hmark : '<' ∉ escapeChar d := by simpa [escape] using Reference.mark_notMem_escape [d]
    exact .char hmark eq_of_slash_mem_escapeChar (Reference.decode_escapeChar_append d) ih

/-! ### Written code with the base put in -/

/-- No place lies in a text, which begins at place `n`. -/
def IsFreeAt (places : List ℕ) (n : ℕ) (t : Text) : Prop :=
  ∀ m ∈ places, n ≤ m → n + t.length ≤ m

theorem isFreeAt_append_iff (hpiece : IsFreeAt places n piece) :
    IsFreeAt places (n + piece.length) content ↔ IsFreeAt places n (piece ++ content) := by
  rw [IsFreeAt, IsFreeAt, List.length_append, ← Nat.add_assoc]
  exact ⟨fun hall m hm hle => hall m hm (hpiece m hm hle),
    fun hall m hm hle => hall m hm (by omega)⟩

/-- Each place in a text, which begins at place `n`, is that of a slash, and the slash is the first
character of the text or follows a quote in it. -/
def AtSlashes (places : List ℕ) (n : ℕ) (t : Text) : Prop :=
  ∀ m ∈ places, n ≤ m → m < n + t.length →
    ∃ u v, t = u ++ '/' :: v ∧ m = n + u.length ∧ ∀ d ∈ u.getLast?, d ∈ ['"', '\'']

namespace AtSlashes

theorem tail (h : AtSlashes places n (piece ++ content)) :
    AtSlashes places (n + piece.length) content := by
  intro m hm hle hlt
  obtain ⟨u, v, ht, rfl, hquote⟩ := h m hm (by omega) (by rw [List.length_append]; omega)
  rcases List.append_eq_append_iff.mp ht with ⟨u, rfl, hcontent⟩ | ⟨w, rfl, hw⟩
  · refine ⟨u, v, hcontent, by rw [List.length_append, Nat.add_assoc], fun d hd => ?_⟩
    exact hquote d (List.mem_getLast?_append_of_mem_getLast? hd)
  · obtain rfl : w = [] := List.eq_nil_of_length_eq_zero (by
      rw [List.length_append] at hle
      omega)
    exact ⟨[], v, hw.symm, by simp, by simp⟩

theorem head (h : AtSlashes places n (piece ++ content)) : AtSlashes places n piece := by
  intro m hm hle hlt
  obtain ⟨u, v, ht, rfl, hquote⟩ := h m hm hle (by rw [List.length_append]; omega)
  rcases List.append_eq_append_iff.mp ht with ⟨w, rfl, -⟩ | ⟨w, rfl, hw⟩
  · rw [List.length_append] at hlt
    omega
  · cases w with
    | nil =>
      rw [List.append_nil] at hlt
      omega
    | cons d w =>
      obtain rfl := (List.cons.inj hw).1
      exact ⟨u, w, rfl, rfl, hquote⟩

/-- There is no place in a tag in which no slash follows a quote. -/
theorem isFreeAt_tag (h : AtSlashes places n ('<' :: (inside ++ ['>'])))
    (hslash : IsUnquoted inside) : IsFreeAt places n ('<' :: (inside ++ ['>'])) := by
  refine fun m hm hle => Nat.le_of_not_lt fun hlt => ?_
  obtain ⟨u, v, ht, -, hquote⟩ := h m hm hle hlt
  rcases List.eq_nil_or_concat u with rfl | ⟨u, quote, rfl⟩
  · exact absurd (List.cons.inj ht).1 (by decide)
  have hmem : quote ∈ ['"', '\''] := hquote quote (by simp)
  have hinfix : [quote, '/'] <:+: '<' :: (inside ++ ['>']) := ⟨u, v, by rw [ht]; simp⟩
  rcases List.infix_cons_iff.mp hinfix with hstart | hinfix
  · obtain rfl := (List.cons_prefix_cons.mp hstart).1
    exact absurd hmem (by decide)
  · rcases List.infix_concat_iff.mp hinfix with hend | hinfix
    · obtain ⟨w, hw⟩ := hend
      have hlast := congrArg List.getLast? hw
      simp at hlast
    · exact hslash quote hmem hinfix

end AtSlashes

/-- A word put in front of the first character, and at some places behind it. -/
theorem insertAt_cons_places (word : Text) (places : List ℕ) (k : ℕ) (d : Char) (t : Text) :
    insertAt word (k :: places) k (d :: t) = word ++ d :: insertAt word places (k + 1) t := by
  have hrest : insertAt word (k :: places) (k + 1) t = insertAt word places (k + 1) t :=
    Html.insertAt_congr fun m hm _ => by
      rw [List.mem_cons, or_iff_right]
      omega
  rw [insertAt, if_pos List.mem_cons_self, hrest, List.append_assoc, List.singleton_append]

/-- A word put in at some places behind the first character. -/
theorem insertAt_cons_of_lt (h : ∀ m ∈ places, k < m) (word : Text) (d : Char) (t : Text) :
    insertAt word places k (d :: t) = d :: insertAt word places (k + 1) t := by
  have hk : k ∉ places := fun hk => absurd (h k hk) (Nat.lt_irrefl k)
  rw [insertAt, if_neg hk, List.singleton_append]

/-- What is written, with the base put in at places, is shown as the code with the base put in at
other places. There are none of these only if there was none of the first ones. -/
structure ShowsAt (base : Text) (places : List ℕ) (n : ℕ) (content : Text) (more : List ℕ) (k : ℕ)
    (code : Text) : Prop where
  within : ∀ m ∈ more, k ≤ m ∧ m < k + code.length
  same : shown (insertAt base places n content) = insertAt base more k code
  nil_iff : more = [] ↔ IsFreeAt places n content

namespace ShowsAt

/-- A tag is not shown. -/
theorem tag (h : ShowsAt base places (n + ('<' :: (inside ++ ['>'])).length) content more k code)
    (hinside : IsInsideTag inside) (hfree : IsFreeAt places n ('<' :: (inside ++ ['>']))) :
    ShowsAt base places n ('<' :: (inside ++ ['>']) ++ content) more k code where
  within := h.within
  same := by
    rw [Html.insertAt_append, Html.insertAt_of_free hfree, ← h.same]
    simp [shown, Html.stripTagsFrom_tag hinside.1 hinside.2]
  nil_iff := h.nil_iff.trans (isFreeAt_append_iff hfree)

/-- A piece without a place in it is shown as its character. -/
theorem char (h : ShowsAt base places (n + piece.length) content more (k + 1) code)
    (hmark : '<' ∉ piece) (hread : ∀ rest, decode (piece ++ rest) = d :: decode rest)
    (hfree : IsFreeAt places n piece) :
    ShowsAt base places n (piece ++ content) more k (d :: code) where
  within m hm := by
    have := h.within m hm
    rw [List.length_cons]
    omega
  same := by
    rw [Html.insertAt_append, Html.insertAt_of_free hfree,
      insertAt_cons_of_lt fun m hm => (h.within m hm).1, ← h.same, shown,
      Html.stripTagsFrom_append_of_notMem hmark, hread, shown]
  nil_iff := h.nil_iff.trans (isFreeAt_append_iff hfree)

/-- A slash at a place is shown behind the base. -/
theorem slash (h : ShowsAt base places (n + 1) content more (k + 1) code) (hn : n ∈ places)
    (hmark : '<' ∉ base) (hamp : '&' ∉ base) :
    ShowsAt base places n (['/'] ++ content) (k :: more) k ('/' :: code) where
  within := by
    rw [List.length_cons]
    refine List.forall_mem_cons.mpr ⟨by omega, fun m hm => ?_⟩
    have := h.within m hm
    omega
  same := by
    have hhead : insertAt base places n ['/'] = base ++ ['/'] := by simp [insertAt, hn]
    have hmark : '<' ∉ base ++ ['/'] := by simp [hmark]
    have hamp : '&' ∉ base ++ ['/'] := by simp [hamp]
    rw [Html.insertAt_append, hhead, insertAt_cons_places, ← h.same, shown,
      Html.stripTagsFrom_append_of_notMem hmark, Reference.decode_append_of_notMem hamp, shown,
      List.append_assoc, List.singleton_append, List.length_singleton]
  nil_iff := by
    refine iff_of_false (List.cons_ne_nil k more) fun hall => ?_
    have := hall n hn le_rfl
    simp only [List.length_append, List.length_singleton] at this
    omega

end ShowsAt

/-- **Written code with the base put in is shown as the code with the base put in.** The induction
is on what is written, piece by piece. -/
theorem MarksUp.exists_showsAt (h : MarksUp content code) (hmark : '<' ∉ base) (hamp : '&' ∉ base)
    (hplaces : AtSlashes places n content) (k : ℕ) :
    ∃ more, ShowsAt base places n content more k code := by
  induction h generalizing n k with
  | nil => exact ⟨[], nofun, rfl, by simp [IsFreeAt]⟩
  | @tag inside content code hinside hslash hrest ih =>
    have hcut : '<' :: (inside ++ '>' :: content) = '<' :: (inside ++ ['>']) ++ content := by simp
    rw [hcut] at hplaces ⊢
    obtain ⟨more, hmore⟩ := ih hplaces.tail k
    exact ⟨more, hmore.tag hinside (hplaces.head.isFreeAt_tag hslash)⟩
  | @char piece content code d hmarks hslash hread hrest ih =>
    obtain ⟨more, hmore⟩ := ih hplaces.tail (k + 1)
    by_cases hfree : IsFreeAt places n piece
    · exact ⟨more, hmore.char hmarks hread hfree⟩
    · rw [IsFreeAt] at hfree
      push Not at hfree
      obtain ⟨m, hm, hle, hlt⟩ := hfree
      -- a place in the piece is that of its only character, a slash
      obtain rfl : piece = ['/'] := by
        obtain ⟨u, v, hpiece, -, -⟩ := hplaces.head m hm hle hlt
        exact hslash (by simp [hpiece])
      obtain rfl : d = '/' := (List.cons.inj (hread [])).1.symm
      obtain rfl : m = n := by
        rw [List.length_singleton] at hlt
        omega
      exact ⟨k :: more, hmore.slash hm hmark hamp⟩

/-- Without tags and with the references read, the code is there again. -/
theorem MarksUp.shown_eq (h : MarksUp content code) : shown content = code := by
  have hnone : AtSlashes [] 0 content := fun m hm => absurd hm List.not_mem_nil
  obtain ⟨more, hmore⟩ :=
    h.exists_showsAt (List.not_mem_nil (a := '<')) (List.not_mem_nil (a := '&')) hnone 0
  have hshown := hmore.same
  rwa [Html.insertAt_nil_places, hmore.nil_iff.mpr (by simp [IsFreeAt]),
    Html.insertAt_nil_places] at hshown

/-! ### What is shown -/

/-- The closing tags of code stay, whatever stands around them. -/
theorem CodeBlock.imageOf_closing [Highlighter] (base before behind : Text) (highlight : Bool)
    (c : CodeBlock) :
    imageOf base before (c.closing highlight) behind = c.closing highlight := by
  obtain ⟨hdouble, hsingle, hfirst⟩ : '"' ∉ c.closing highlight ∧ '\'' ∉ c.closing highlight ∧
      (c.closing highlight).head? ≠ some '/' := by
    unfold CodeBlock.closing
    split <;> decide
  exact Html.imageOf_of_not_beginsRootUrl
    (Html.not_beginsRootUrl_of_notMem hdouble hsingle hfirst) base

/-- The places of a page are at slashes in every part of it. -/
theorem atSlashes_rootPlaces (before content behind : Text) :
    AtSlashes (rootPlaces (before ++ (content ++ behind))) before.length content := by
  intro m hm hle hlt
  obtain ⟨u, v, start, quote, hcontent, rfl, hu, hquote⟩ := Html.exists_of_mem_part hm hle hlt
  refine ⟨u, v, hcontent, rfl, fun d hd => ?_⟩
  obtain ⟨u, rfl⟩ := List.getLast?_eq_some_iff.mp hd
  obtain rfl : d = quote := by
    have hlast := congrArg List.getLast? hu
    simpa using hlast
  simpa using hquote

/-- **Written code is shown as it is** if no root-relative URL begins in it, and only then, unless
there is no base. -/
theorem shown_imageOf_iff (h : MarksUp content code) (hmark : '<' ∉ base) (hamp : '&' ∉ base)
    (before behind : Text) :
    shown (imageOf base before content behind) = code ↔
      (trimBase base ≠ [] → ¬ BeginsRootUrl before content behind) := by
  obtain ⟨more, hmore⟩ :=
    h.exists_showsAt (fun h => hmark (Html.mem_of_mem_trimBase h))
      (fun h => hamp (Html.mem_of_mem_trimBase h)) (atSlashes_rootPlaces before content behind) 0
  have hnone : more = [] ↔ ¬ BeginsRootUrl before content behind := by
    rw [hmore.nil_iff, IsFreeAt, BeginsRootUrl]
    push Not
    rfl
  rw [imageOf, hmore.same, ← hnone]
  rcases eq_or_ne (trimBase base) [] with hbase | hbase
  · exact iff_of_true (by rw [hbase, Html.insertAt_nil]) fun h => absurd hbase h
  · rw [Html.insertAt_eq_self_iff hbase, forall_prop_of_true hbase]
    constructor
    · intro h
      refine List.eq_nil_iff_forall_not_mem.mpr fun m hm => ?_
      have := hmore.within m hm
      have := h m hm (Nat.zero_le m)
      omega
    · rintro rfl m hm
      cases hm

/-- **A block that is safe.** No root-relative URL begins in what is written for code if it does not
hold an equals sign, a quote and a slash in a row: the three characters stand in it together, since
the opening tag before it ends otherwise. -/
theorem CodeBlock.not_beginsRootUrl [Highlighter] {c : CodeBlock} {highlight : Bool}
    (hfree : ∀ quote ∈ ['"', '\''], ¬ ['=', quote, '/'] <:+: c.content highlight)
    (before behind : Text) :
    ¬ BeginsRootUrl (before ++ c.opening highlight) (c.content highlight) behind := by
  rintro ⟨m, hm, hle, hlt⟩
  obtain ⟨u, v, start, quote, hcontent, -, hu, hquote⟩ := Html.exists_of_mem_part hm hle hlt
  obtain ⟨opened, hopening⟩ := c.exists_opening_eq highlight
  have hmem : quote ∈ ['"', '\''] := by simpa using hquote
  obtain ⟨u, rfl⟩ : ∃ u', u = u' ++ ['=', quote] := by
    rw [hopening, ← List.append_assoc, List.append_assoc _ ['>']] at hu
    rcases List.append_eq_append_iff.mp hu with ⟨x, -, hx⟩ | ⟨x, -, hx⟩
    · cases x with
      | nil => cases hx
      | cons d x => exact ⟨x, (List.cons.inj hx).2⟩
    · rcases x with _ | ⟨d, _ | ⟨e, x⟩⟩
      · cases hx
      · obtain rfl : quote = '>' := (List.cons.inj (List.cons.inj hx).2).1
        exact absurd hmem (by decide)
      · simp at hx
  exact hfree quote hmem ⟨u, v, by rw [hcontent]; simp⟩

/-- Code that is not highlighted is safe if the code itself does not hold the three characters. -/
theorem CodeBlock.not_beginsRootUrl_of_text [Highlighter] {c : CodeBlock} {highlight : Bool}
    (hplain : c.isHighlighted highlight = false)
    (hfree : ∀ quote ∈ ['"', '\''], ¬ ['=', quote, '/'] <:+: c.text) (before behind : Text) :
    ¬ BeginsRootUrl (before ++ c.opening highlight) (c.content highlight) behind := by
  refine c.not_beginsRootUrl (fun quote hquote hinfix => ?_) before behind
  have hchars : ∀ d ∈ ['=', quote, '/'], d ∉ Reference.referenceChars := by
    simp only [List.forall_mem_cons]
    refine ⟨by decide, ?_, by decide, by simp⟩
    rcases List.mem_pair.mp hquote with rfl | rfl <;> decide
  rw [content_of_not_isHighlighted hplain] at hinfix
  exact hfree quote hquote (Reference.infix_of_infix_escape hchars (List.cons_ne_nil _ _) hinfix)

end Pageloom.Markdown

namespace Pageloom.Filter

open Pageloom.Html (absolutize BeginsRootUrl imageOf trimBase)
open Pageloom.Markdown (CodeBlock codeBlocks MarksUp toHtml)
open Pageloom.Markdown.Html (shown)

section

variable [Markdown.Highlighter] {plugins : List Text} {ext : Markdown.Extensions}

/-- **When code is shown as it is on a page with absolute URLs.** All code blocks of a text stand in
its HTML. Wherever one stands, absolute URLs leave its closing tags where they are. They leave what
is written for its code as it is if no root-relative URL begins in it; otherwise the code that is
shown changes with every base that holds no markup, unless it is empty up to slashes. This holds for
every block that is not highlighted, and for one that is if a highlighter marks up its code. -/
theorem shown_code_iff (hplugins : Markdown.Extensions.ofPlugins plugins = .ok ext)
    (highlightCode headingIds : Bool) (base t : Text) (page : Page) :
    let html := toHtml ⟨ext, highlightCode, headingIds⟩ t
    (applyAll [.markdown plugins highlightCode headingIds] (some t) page).1 = .ok (some html) ∧
    (applyAll [.markdown plugins highlightCode headingIds, .absolute base] (some t) page).1 =
      .ok (some (absolutize html base)) ∧
    Text.InOrder ((codeBlocks ⟨ext, highlightCode, headingIds⟩ t).map
      (CodeBlock.element highlightCode)) html ∧
    ∀ (c : CodeBlock) before behind, html = before ++ (c.element highlightCode ++ behind) →
      let start := before ++ c.opening highlightCode
      let finish := c.closing highlightCode ++ behind
      let image := imageOf base start (c.content highlightCode) finish
      absolutize html base = imageOf base [] start (c.content highlightCode ++ finish) ++
        (image ++ (c.closing highlightCode ++
          imageOf base (start ++ c.content highlightCode ++ c.closing highlightCode) behind [])) ∧
      (¬ BeginsRootUrl start (c.content highlightCode) finish → image = c.content highlightCode) ∧
      (c.isHighlighted highlightCode = false → MarksUp (c.content highlightCode) c.text) ∧
      ∀ code, MarksUp (c.content highlightCode) code → shown (c.content highlightCode) = code ∧
        ('<' ∉ base → '&' ∉ base → (shown image = code ↔
          (trimBase base ≠ [] →
            ¬ BeginsRootUrl start (c.content highlightCode) finish))) := by
  have hmarkdown (body : Option Text) :
      apply (.markdown plugins highlightCode headingIds) body page =
        (.ok (some (toHtml ⟨ext, highlightCode, headingIds⟩ (body.getD []))),
          .markdown plugins highlightCode headingIds) := by
    rw [apply, hplugins]
  refine ⟨by rw [applyAll, hmarkdown]; rfl, by rw [applyAll, hmarkdown]; rfl,
    Markdown.inOrder_toHtml ⟨ext, highlightCode, headingIds⟩ t, fun c before behind hhtml => ?_⟩
  refine ⟨?_, fun hnone => Html.imageOf_of_not_beginsRootUrl hnone base, fun hplain => ?_,
    fun code hcode => ⟨hcode.shown_eq,
      fun hmark hamp => Markdown.shown_imageOf_iff hcode hmark hamp _ _⟩⟩
  · have hpage : toHtml ⟨ext, highlightCode, headingIds⟩ t =
        before ++ c.opening highlightCode ++
          (c.content highlightCode ++ (c.closing highlightCode ++ behind)) := by
      rw [hhtml, CodeBlock.element]
      simp only [List.append_assoc]
    rw [hpage, Html.absolutize_append, Html.imageOf_append base _ (c.closing highlightCode) behind,
      CodeBlock.imageOf_closing]
  · rw [CodeBlock.content_of_not_isHighlighted hplain]
    exact Markdown.marksUp_escape c.text

end

/-- Code that shows a link is changed like a link. -/
theorem shown_code_of_link :
    let c : CodeBlock := ⟨"<a href=\"/x\">", []⟩
    Markdown.Extensions.ofPlugins [] = .ok ⟨false, false, false, false⟩ ∧
    toHtml ⟨⟨false, false, false, false⟩, true, false⟩ "    <a href=\"/x\">\n" =
      c.element true ++ ['\n'] ∧
    shown (c.content true) = c.text ∧
    shown (imageOf "https://h.com" (c.opening true) (c.content true) (c.closing true ++ ['\n'])) ≠
      c.text := by
  intro c
  have hplugins : Markdown.Extensions.ofPlugins [] = .ok ⟨false, false, false, false⟩ := rfl
  have hhtml : toHtml ⟨⟨false, false, false, false⟩, true, false⟩ "    <a href=\"/x\">\n" =
      c.element true ++ ['\n'] := by decide +kernel
  obtain ⟨-, -, -, hcode⟩ := shown_code_iff hplugins true false "https://h.com"
    "    <a href=\"/x\">\n" (.ofText [] none)
  obtain ⟨-, -, hmarks, hiff⟩ := hcode c [] ['\n'] hhtml
  obtain ⟨hsame, hchange⟩ := hiff c.text (hmarks rfl)
  refine ⟨hplugins, hhtml, hsame, fun hshown => ?_⟩
  have hnone := (hchange (by decide) (by decide)).mp hshown (by decide)
  exact hnone (by decide +kernel)

end Pageloom.Filter
