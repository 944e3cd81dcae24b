import Mathlib.Data.List.FinRange
import Pageloom.Proofs.Layout.Rendering

/-!
# Helpers in another order

The first helper that has something to say about a token settles it, so the order of the helpers
matters. It matters only among helpers that compete: two that both have something to say about one
token. A helper that does not claim a token, or claims it and passes, leaves no trace, wherever it
stands.

So take the helpers in any other order that leaves competing helpers as they were to each other. The
replies to a token are then the same replies in the same order, and the first of them is the same
one. No exchange of neighbours is needed to see this: those that reply to the token are in order
before and after, and there is one way to put them in order.

What the helpers remember is different in the two renderings, since they are asked in different
rounds. This is why they have to be stateless.

## Main definitions

* `Helper.Compete`: two helpers that both have something to say about one token.
* `Helper.IsReordering`: another order of some helpers, the same among those that compete.

## Main results

* `Helper.IsReordering.filterMap_reply?`: the replies to a token do not change.
* `Layout.render_reordered`: neither does the rendering.
-/

namespace Pageloom

variable {d : Disk} {page : Page} {token : Text}

/-! ### Replies -/

namespace Helper

variable {g h : Helper} {hs : List Helper} {order : List (Fin hs.length)}

/-- The helpers both have something to say about one token: a text, or a failure. -/
def Compete (page : Page) (g h : Helper) : Prop :=
  ∃ token, Template.IsToken token ∧
    (g.reply? token page).isSome ∧ (h.reply? token page).isSome

/-- The places of some helpers in another order. Each place occurs once, and of two helpers that
compete the one that came first still does. -/
structure IsReordering (page : Page) (hs : List Helper) (order : List (Fin hs.length)) : Prop where
  perm : order.Perm (List.finRange hs.length)
  keeps : order.Pairwise fun i j => Compete page (hs.get i) (hs.get j) → i < j

/-- Those that reply to a token stand as they did. -/
theorem IsReordering.filter_replies (h : IsReordering page hs order)
    (htoken : Template.IsToken token) :
    order.filter (fun i => ((hs.get i).reply? token page).isSome) =
      (List.finRange hs.length).filter fun i => ((hs.get i).reply? token page).isSome := by
  refine List.Perm.eq_of_pairwise (fun i j _ _ hij hji => absurd hji hij.asymm) ?_
    ((List.pairwise_lt_finRange _).filter _) (h.perm.filter _)
  exact List.pairwise_filter.mpr (h.keeps.imp fun hkeeps hi hj => hkeeps ⟨token, htoken, hi, hj⟩)

/-- **The replies to a token** are the same ones in the same order. -/
theorem IsReordering.filterMap_reply? (h : IsReordering page hs order)
    (htoken : Template.IsToken token) :
    (order.map hs.get).filterMap (reply? token page) = hs.filterMap (reply? token page) := by
  have hreplying : ∀ is : List (Fin hs.length), (is.map hs.get).filterMap (reply? token page) =
      (is.filter fun i => ((hs.get i).reply? token page).isSome).filterMap
        fun i => (hs.get i).reply? token page := by
    intro is
    rw [List.filterMap_map, List.filterMap_filter]
    refine List.filterMap_congr fun i _ => ?_
    rw [Function.comp_apply]
    cases (hs.get i).reply? token page <;> rfl
  calc (order.map hs.get).filterMap (reply? token page)
      = ((List.finRange hs.length).map hs.get).filterMap (reply? token page) := by
        rw [hreplying, hreplying, h.filter_replies htoken]
    _ = hs.filterMap (reply? token page) := by rw [List.map_get_finRange]

end Helper

/-! ### Answers -/

namespace Template

variable {t : Text} {hs : List Helper} {order : List (Fin hs.length)}

theorem answer_reordered (h : Helper.IsReordering page hs order) (htoken : IsToken token) :
    answer page (order.map hs.get) token = answer page hs token := by
  have hfirst : (order.map hs.get).findSome? (Helper.reply? token page) =
      hs.findSome? (Helper.reply? token page) := by
    rw [← List.head?_filterMap, ← List.head?_filterMap, h.filterMap_reply? htoken]
  rw [answer, answer, List.findSome?_append, List.findSome?_append, hfirst]

/-- What stands between the braces of a placeholder is a token. -/
theorem isToken_of_mem_pieces (h : .token token ∈ pieces t) : IsToken token := by
  obtain ⟨c, hc, rfl⟩ := exists_cut t
  rw [pieces_print hc, Cut.pieces] at h
  simp only [List.mem_append, List.mem_map, List.mem_flatMap, List.mem_cons] at h
  obtain ⟨_, -, hchar⟩ | ⟨p, hp, htoken | ⟨_, -, hchar⟩⟩ := h
  · cases hchar
  · cases htoken
    exact hc.token p hp
  · cases hchar

theorem fill_reordered (h : Helper.IsReordering page hs order)
    (hstateless : ∀ h ∈ hs, h.IsStateless) (t : Text) :
    (fill t page (order.map hs.get)).1 = (fill t page hs).1 := by
  refine fillPieces_fst_congr (fun token hmem => answer_reordered h (isToken_of_mem_pieces hmem))
    (Helper.recalls_refl _) (Helper.recalls_refl _) (fun g hg => ?_) hstateless
  obtain ⟨i, -, rfl⟩ := List.mem_map.mp hg
  exact hstateless _ (hs.get_mem i)

end Template

/-! ### Renderings -/

namespace Layout

variable {l : Layout} {order : List (Fin l.helpers.length)}

/-- **The order of helpers that do not compete** makes no difference. The helpers of a layout are
stateless, and are put in another order in which those that compete on the page, as it is when it is
rendered, are to each other as they were. Then the page is rendered with the same result, or fails
in the same way. -/
theorem render_reordered (hstateless : ∀ h ∈ l.helpers, h.IsStateless)
    (horder : Helper.IsReordering (l.render d page).page l.helpers order) :
    ({ l with helpers := order.map l.helpers.get }.render d page).result =
      (l.render d page).result := by
  refine result_render_congr (renderBody_fst_of_eq rfl rfl rfl fun t => ?_)
  exact Template.fill_reordered horder hstateless t

/-- Three helpers, the last of which comes first in the new order. The other two both answer to the
token `A` and stay as they are. The one for the front matter also claims the token of the last one,
and passes. -/
theorem render_reordered_of_link_first :
    let d : Disk := ⟨[], []⟩
    let page : Page := .ofText "---\na: y\nb: z\n---\n\x7bA\x7d\x7bB\x7d\x7bBASE_URL\x7d" none
    let l : Layout := ⟨[], [.data [("A", "x")], .frontMatter, .link "h.com"], false⟩
    let order : List (Fin 3) := [2, 0, 1]
    (∀ h ∈ l.helpers, h.IsStateless) ∧
      Helper.IsReordering (l.render d page).page l.helpers order ∧
      ({ l with helpers := order.map l.helpers.get }.render d page).result =
        .ok ⟨"xzh.com", none, [("a", "y"), ("b", "z")]⟩ := by
  intro d page l order
  have hstateless : ∀ h ∈ l.helpers, h.IsStateless := by
    intro h hmem
    simp only [l, List.mem_cons, List.not_mem_nil, or_false] at hmem
    obtain rfl | rfl | rfl := hmem <;> exact .of_recalling fun _ => rfl
  have hlink : ∀ h, (h.reply? "BASE_URL" (l.render d page).page).isSome = false →
      ¬ Helper.Compete (l.render d page).page (.link "h.com") h := by
    rintro h hpasses ⟨token, -, hlink, hother⟩
    by_cases htoken : token = "BASE_URL".toList
    · rw [htoken, hpasses] at hother
      cases hother
    · have hclaims : (Helper.link "h.com").claims token = .ok false :=
        congrArg Except.ok (decide_eq_false htoken)
      rw [Helper.reply?, hclaims] at hlink
      cases hlink
  have hdata : ¬ Helper.Compete (l.render d page).page (.link "h.com") (.data [("A", "x")]) :=
    hlink _ (by decide)
  have hentries : ¬ Helper.Compete (l.render d page).page (.link "h.com") .frontMatter :=
    hlink _ (by decide)
  have horder : Helper.IsReordering (l.render d page).page l.helpers order := by
    refine ⟨show order.Perm (List.finRange 3) by decide, List.pairwise_cons.mpr
      ⟨fun j hj => ?_, List.pairwise_pair.mpr fun _ => by decide⟩⟩
    obtain rfl | rfl := List.mem_pair.mp hj
    · exact fun hcompete => absurd hcompete hdata
    · exact fun hcompete => absurd hcompete hentries
  exact ⟨hstateless, horder, (render_reordered hstateless horder).trans (by decide)⟩

end Layout

end Pageloom
