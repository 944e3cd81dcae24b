import Pageloom.Proofs.Layout.Rendering
import Pageloom.Proofs.Template.Questions

/-!
# Renderings that share a helper

Layouts may have a helper in common. What it remembers then goes from one rendering to the next, and
a helper that numbers its calls numbers what it is asked for through all of them.

If the helper is the first of each layout and claims one token, it is asked at each placeholder of
this token and nowhere else: no helper before it can answer instead, and for other tokens it is
passed over. So the numbers follow the placeholders, in the order of the renderings and, within each
of them, from left to right in the filtered body.

## Main definitions

* `Helper.CountsFrom`: a helper that claims one token and numbers its calls.
* `Layout.renderSeries`: renderings one after the other that share a helper.
* `Filling`, `Filling.IsShown`: a text with values for its placeholders, and the filling that a
  rendering shows.

## Main results

* `Layout.exists_fillings`: the values that a helper gives in a series of renderings.
* `Layout.helpers_asked_in_turn`: this, and in which order helpers are asked.
-/

namespace Pageloom

open Helper Template

variable {page : Page} {token behind text : Text} {g h : Helper} {hs hs' : List Helper} {n : ℕ}
  {ps : List Piece} {tokens : List (Text × Text)} {l : Layout} {d : Disk} {rendered : Rendered}

/-! ### A helper that counts -/

namespace Helper

/-- The answer to the call of a number. -/
def numbered (token : Text) (n : ℕ) : Text := token ++ '#' :: Text.ofNat n

/-- The helper claims the token and no other, and answers with the number of the call. It has been
asked `n` times, always for the token. -/
structure CountsFrom (token : Text) (n : ℕ) (h : Helper) : Prop where
  claims : ∀ calls t, (∀ c ∈ calls, c.token = token) →
    (h.recalling calls).claims t = .ok (t = token)
  numbers : ∀ calls page, (∀ c ∈ calls, c.token = token) →
    ((h.recalling calls).resolve token page).1 = .ok (some (numbered token (calls.length + 1)))
  called : ∃ calls, h = h.recalling calls ∧ calls.length = n ∧ ∀ c ∈ calls, c.token = token

/-- A helper that is asked remembers this call in front of the others. -/
theorem resolve_recalling_snd (h : Helper) (calls : List Call) (token : Text) (page : Page) :
    ((h.recalling calls).resolve token page).2 = h.recalling (⟨token, page⟩ :: calls) := by
  cases h with
  | data values => simp only [recalling, resolve]; split <;> rfl
  | _ => rfl

/-- By now, the helper still claims the token and no other. -/
theorem CountsFrom.claims_eq (h : g.CountsFrom token n) (t : Text) :
    g.claims t = .ok (t = token) := by
  obtain ⟨calls, hcalls, -, htokens⟩ := h.called
  rw [hcalls]
  exact h.claims calls t htokens

/-- **One more call** is answered with the next number, and the helper goes on counting. -/
theorem CountsFrom.resolve (h : g.CountsFrom token n) (page : Page) :
    (g.resolve token page).1 = .ok (some (numbered token (n + 1))) ∧
      (g.resolve token page).2.CountsFrom token (n + 1) := by
  obtain ⟨calls, hcalls, rfl, htokens⟩ := h.called
  have hsnd : (g.resolve token page).2 = g.recalling (⟨token, page⟩ :: calls) := by
    rw [hcalls, resolve_recalling_snd, ← hcalls]
  have hmore : ∀ c ∈ Call.mk token page :: calls, c.token = token :=
    List.forall_mem_cons.mpr ⟨rfl, htokens⟩
  refine ⟨?_, ?_⟩
  · rw [hcalls]
    exact h.numbers calls page htokens
  · rw [hsnd]
    exact
      { claims := fun calls' t hcalls' => by
          rw [recalling_recalling, h.claims calls' t hcalls']
        numbers := fun calls' page' hcalls' => by
          rw [recalling_recalling, h.numbers calls' page' hcalls']
        called := ⟨_, (recalling_recalling ..).symm, rfl, hmore⟩ }

end Helper

namespace Template

/-! ### The first helper of a chain -/

theorem value_cons_of_not_claims (hc : h.claims token = .ok false) :
    value token page (h :: hs) = ((value token page hs).1, h :: (value token page hs).2) := by
  have hq : h.question? page token 0 = none := question?_eq_none_iff.mpr hc
  rw [value, ask_cons_of_not_asked hq, value]
  rcases ask token page hs with ⟨_ | _ | text, hs'⟩ <;> rfl

theorem value_cons_of_text (hc : h.claims token = .ok true)
    (htext : (h.resolve token page).1 = .ok (some text)) :
    value token page (h :: hs) = (.ok text, (h.resolve token page).2 :: hs) := by
  have hq := question?_of_claims hc page 0
  rw [htext] at hq
  rw [value, ask_cons_of_settles hq rfl]
  rfl

/-! ### Inverting the run -/

theorem fillPieces_map_char_eq_ok {t : Text}
    (h : fillPieces page (t.map .char ++ ps) hs = (.ok text, hs')) :
    ∃ rest, fillPieces page ps hs = (.ok rest, hs') ∧ text = t ++ rest := by
  induction t generalizing text with
  | nil => exact ⟨text, h, rfl⟩
  | cons c t ih =>
    rw [List.map_cons, List.cons_append, fillPieces] at h
    rcases hres : fillPieces page (t.map .char ++ ps) hs with ⟨e | text', hs''⟩ <;>
      rw [hres] at h <;> obtain ⟨htext, rfl⟩ := Prod.mk.inj h
    · cases htext
    · obtain ⟨rest, hrest, rfl⟩ := ih hres
      exact ⟨rest, hrest, (Except.ok.inj htext).symm⟩

theorem fillPieces_token_eq_ok
    (h : fillPieces page (.token token :: behind.map .char ++ ps) hs = (.ok text, hs')) :
    ∃ value' rest, (value token page hs).1 = .ok value' ∧
      fillPieces page ps (value token page hs).2 = (.ok rest, hs') ∧
      text = value' ++ behind ++ rest := by
  rw [List.cons_append, fillPieces] at h
  rcases hvalue : value token page hs with ⟨e | filled, hs''⟩ <;> rw [hvalue] at h
  · cases h
  · simp only at h
    rcases hres : fillPieces page (behind.map .char ++ ps) hs'' with ⟨e | text', hs₃⟩ <;>
      rw [hres] at h <;> obtain ⟨htext, rfl⟩ := Prod.mk.inj h
    · cases htext
    · obtain ⟨rest, hrest, rfl⟩ := fillPieces_map_char_eq_ok hres
      refine ⟨filled, rest, rfl, hrest, ?_⟩
      rw [List.append_assoc]
      exact (Except.ok.inj htext).symm

end Template

/-! ### Fillings -/

/-- A text with values for its placeholders, from left to right. -/
structure Filling where
  cut : Cut
  values : List Text

namespace Filling

/-- The text with the values in the places of the placeholders. -/
def print (f : Filling) : Text :=
  f.cut.before ++ (List.zipWith (fun v p => v ++ p.2) f.values f.cut.tokens).flatten

/-- The values for the placeholders with a token. -/
def valuesOf (token : Text) (f : Filling) : List Text :=
  ((f.cut.tokens.zip f.values).filter fun p => p.1.1 = token).map Prod.snd

@[simp] theorem valuesOf_cons (token before token' behind v : Text) (tokens : List (Text × Text))
    (values : List Text) :
    valuesOf token ⟨⟨before, (token', behind) :: tokens⟩, v :: values⟩ =
      (if token' = token then [v] else []) ++ valuesOf token ⟨⟨before, tokens⟩, values⟩ := by
  by_cases htoken : token' = token <;> simp [valuesOf, htoken]

/-- What a rendering with a layout shows: the filtered body, with the values filled in. -/
structure IsShown (f : Filling) (l : Layout) (r : Rendering) : Prop where
  isExact : f.cut.IsExact
  filtered : (Filter.applyAll l.filters (some r.page.body) r.page).1 = .ok (some f.cut.print)
  values : f.values.length = f.cut.tokens.length
  html : ∃ rendered, r.result = .ok rendered ∧ rendered.html = f.print

end Filling

/-- The numbers go on: the values are those of the calls behind the first `n`. -/
def NumberedFrom (token : Text) (n : ℕ) (values : List Text) : Prop :=
  values = (List.range' (n + 1) values.length).map (numbered token)

theorem NumberedFrom.cons {values : List Text} (h : NumberedFrom token (n + 1) values) :
    NumberedFrom token n (numbered token (n + 1) :: values) := by
  rw [NumberedFrom, List.length_cons, List.range'_succ, List.map_cons, ← h]

theorem NumberedFrom.append {values more : List Text} (h : NumberedFrom token n values)
    (hmore : NumberedFrom token (n + values.length) more) :
    NumberedFrom token n (values ++ more) := by
  rw [NumberedFrom, List.length_append, ← List.range'_append_1, List.map_append, ← h,
    Nat.add_right_comm, ← hmore]

/-- **The values for placeholders**, if the first helper counts: those for its token are numbered,
and it has been asked for them and nothing else. -/
theorem exists_values (hg : g.CountsFrom token n)
    (hfill : fillPieces page (tokenPieces tokens) (g :: hs) = (.ok text, hs')) :
    ∃ values g' hs₁, values.length = tokens.length ∧
      text = (List.zipWith (fun v p => v ++ p.2) values tokens).flatten ∧
      NumberedFrom token n (Filling.valuesOf token ⟨⟨[], tokens⟩, values⟩) ∧
      hs' = g' :: hs₁ ∧
      g'.CountsFrom token (n + (Filling.valuesOf token ⟨⟨[], tokens⟩, values⟩).length) := by
  induction tokens generalizing g hs n text with
  | nil =>
    obtain ⟨htext, rfl⟩ := Prod.mk.inj hfill
    exact ⟨[], g, hs, rfl, (Except.ok.inj htext).symm, rfl, rfl, hg⟩
  | cons p tokens ih =>
    obtain ⟨token', behind⟩ := p
    rw [tokenPieces, List.flatMap_cons] at hfill
    obtain ⟨v, rest, hv, hrest, rfl⟩ := fillPieces_token_eq_ok hfill
    by_cases htoken : token' = token
    · subst htoken
      obtain ⟨hanswer, hnext⟩ := hg.resolve page
      have hvalue : value token' page (g :: hs) =
          (.ok (numbered token' (n + 1)), (g.resolve token' page).2 :: hs) :=
        value_cons_of_text (by simp [hg.claims_eq]) hanswer
      rw [hvalue] at hv hrest
      obtain rfl := Except.ok.inj hv
      obtain ⟨values, g', hs₁, hlength, rfl, hnumbered, rfl, hg'⟩ := ih hnext hrest
      refine ⟨_ :: values, g', hs₁, by simpa using hlength, rfl, ?_, rfl, ?_⟩
      · simpa using hnumbered.cons
      · simpa [Nat.add_assoc, Nat.add_comm 1] using hg'
    · have hpassed : g.claims token' = .ok false := by
        rw [hg.claims_eq, decide_eq_false htoken]
      rw [value_cons_of_not_claims hpassed] at hv hrest
      obtain ⟨values, g', hs₁, hlength, rfl, hnumbered, rfl, hg'⟩ := ih hg hrest
      refine ⟨v :: values, g', hs₁, by simpa using hlength, rfl, ?_, rfl, ?_⟩
      · simpa [htoken] using hnumbered
      · simpa [htoken] using hg'

namespace Layout

/-! ### One rendering -/

/-- A page is rendered by filling what the filters make of its body. -/
theorem exists_fill_of_render (h : (l.render d page).result = .ok rendered) :
    ∃ filtered, (Filter.applyAll l.filters (some (l.render d page).page.body)
        (l.render d page).page).1 = .ok (some filtered) ∧
      fill filtered (l.render d page).page l.helpers =
        (.ok rendered.html, (l.render d page).layout.helpers) := by
  obtain ⟨loaded, page', hload, hextract⟩ := exists_extract_of_render h
  rw [render_of_extract hload hextract] at h ⊢
  exact exists_fill_of_renderBody (l := l.freeze) h

/-- **One rendering** with a helper in front that counts. -/
theorem exists_filling (hg : g.CountsFrom token n)
    (hresult : (render { l with helpers := g :: l.helpers } d page).result = .ok rendered) :
    let l' := { l with helpers := g :: l.helpers }
    ∃ f : Filling, f.IsShown l' (l'.render d page) ∧ NumberedFrom token n (f.valuesOf token) ∧
      ((l'.render d page).layout.helpers.headD g).CountsFrom token
        (n + (f.valuesOf token).length) := by
  intro l'
  obtain ⟨filtered, hfilters, hfill⟩ := exists_fill_of_render hresult
  obtain ⟨c, hc, rfl⟩ := exists_cut filtered
  rw [fill, pieces_print hc, Cut.pieces] at hfill
  obtain ⟨rest, hrest, hhtml⟩ := fillPieces_map_char_eq_ok hfill
  obtain ⟨values, g', hs₁, hlength, rfl, hnumbered, hhelpers, hg'⟩ := exists_values hg hrest
  refine ⟨⟨c, values⟩, ⟨hc, hfilters, hlength, rendered, hresult, hhtml⟩, hnumbered, ?_⟩
  rw [hhelpers]
  exact hg'

/-! ### Several renderings -/

/-- Renderings one after the other, each with a layout that has the same helper in front, and with
this layout. What the helper remembers goes from one rendering to the next. -/
def renderSeries (shared : Helper) : List (Layout × Disk × Page) → List (Layout × Rendering)
  | [] => []
  | (l, d, page) :: rest =>
    let l := { l with helpers := shared :: l.helpers }
    let r := l.render d page
    (l, r) :: renderSeries (r.layout.helpers.headD shared) rest

/-- **A series of renderings** with a helper in front that counts. -/
theorem exists_fillings {jobs : List (Layout × Disk × Page)} (hg : g.CountsFrom token n)
    (hresults : ∀ p ∈ renderSeries g jobs, ∃ rendered, p.2.result = .ok rendered) :
    ∃ fillings, List.Forall₂ (fun p f => f.IsShown p.1 p.2) (renderSeries g jobs) fillings ∧
      NumberedFrom token n (fillings.flatMap (Filling.valuesOf token)) := by
  induction jobs generalizing g n with
  | nil => exact ⟨[], .nil, rfl⟩
  | cons job jobs ih =>
    obtain ⟨l, d, page⟩ := job
    obtain ⟨⟨rendered, hresult⟩, hresults⟩ := List.forall_mem_cons.mp hresults
    obtain ⟨f, hshown, hnumbered, hnext⟩ := exists_filling hg hresult
    obtain ⟨fillings, hall, hmore⟩ := ih hnext hresults
    exact ⟨f :: fillings, .cons hshown hall, hnumbered.append hmore⟩

/-- **Helpers are asked in turn.** When a text is filled, its placeholders come one after the other,
and for each of them the helpers that claim its token, up to the first that does not pass; nothing
is asked after a failure. So if successful renderings share a helper in front of all others that
claims one token and numbers its calls, the placeholders of this token in the filtered bodies are
numbered in their order. -/
theorem helpers_asked_in_turn :
    (∀ page t hs, AsksInTurn page t hs) ∧
      ∀ token shared jobs, CountsFrom token 0 shared →
        (∀ p ∈ renderSeries shared jobs, ∃ rendered, p.2.result = .ok rendered) →
        ∃ fillings,
          List.Forall₂ (fun p f => f.IsShown p.1 p.2) (renderSeries shared jobs) fillings ∧
            NumberedFrom token 0 (fillings.flatMap (Filling.valuesOf token)) :=
  ⟨asksInTurn, fun _ _ _ => exists_fillings⟩

/-- Two pages with a helper in common: one with another token between two placeholders of the
helper, and one whose filter puts something before the placeholder. -/
theorem numbered_on_two_pages :
    let shared : Helper := .custom (fun _ token => .ok (token = "N".toList))
      (fun earlier _ _ => .ok (some (numbered "N" (earlier.length + 1)))) []
    let jobs : List (Layout × Disk × Page) :=
      [(⟨[], [.data [("A", "x")]], false⟩, ⟨[], []⟩, .ofText "\x7bN\x7d\x7bA\x7d\x7bN\x7d" none),
        (⟨[.absolute "h.com"], [], true⟩, ⟨[], []⟩, .ofText "<a href=\"/\x7bN\x7d\">" none)]
    AsksInTurn (.ofText [] none) "\x7bN\x7d\x7bNAME\x7d" [shared] ∧
      CountsFrom "N" 0 shared ∧
      (∀ p ∈ renderSeries shared jobs, ∃ rendered, p.2.result = .ok rendered) ∧
      ∃ fillings, List.Forall₂ (fun p f => f.IsShown p.1 p.2) (renderSeries shared jobs) fillings ∧
        NumberedFrom "N" 0 (fillings.flatMap (Filling.valuesOf "N")) := by
  intro shared jobs
  have hcounts : CountsFrom "N" 0 shared :=
    { claims := fun _ _ _ => rfl
      numbers := fun calls page _ => rfl
      called := ⟨[], rfl, rfl, nofun⟩ }
  have hresults : ∀ p ∈ renderSeries shared jobs, ∃ rendered, p.2.result = .ok rendered := by
    intro p hp
    rcases List.mem_pair.mp hp with rfl | rfl
    · exact ⟨⟨"N#1xN#2", none, []⟩, by decide +kernel⟩
    · exact ⟨⟨"<a href=\"h.com/N#3\">", none, []⟩, by decide +kernel⟩
  obtain ⟨hasks, hseries⟩ := helpers_asked_in_turn
  exact ⟨hasks _ _ _, hcounts, hresults, hseries "N" shared jobs hcounts hresults⟩

end Layout

end Pageloom
