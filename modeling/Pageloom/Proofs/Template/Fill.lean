import Pageloom.Proofs.Helper.Stateless
import Pageloom.Proofs.Template.Cut

/-!
# Filling the placeholders of a text

What `Template.fill` makes of a text, said with the exact cut of the text: the plain parts stay as
they are, and each token is replaced by what the helpers answer. What is filled in is not cut
again, since the cut is that of the text before anything was filled in.

While a text is filled the helpers change in what they remember. The run is described with the
helpers of the start all the same: up to earlier calls they are the same helpers, and stateless ones
give the same answers.

## Main definitions

* `Template.answer`: the first reply of a helper to a token, or else the placeholder.

## Main results

* `Template.fill_of_cut`: the text with all placeholders filled, or the first failure.
-/

namespace Pageloom.Template

open Helper

variable {page : Page} {hs hs' : List Helper} {token behind : Text} {ps : List Piece}

/-- What stands for a token: the first reply of one of the helpers, with the one for the page's name
behind all others, or else the placeholder. -/
def answer (page : Page) (hs : List Helper) (token : Text) : Except Failure Text :=
  ((hs ++ [Helper.name]).findSome? (reply? token page)).getD (.ok (placeholder token))

theorem value_fst (token : Text) (page : Page) (hs : List Helper) :
    (value token page hs).1 = answer page hs token := by
  have hask := ask_fst token page hs
  rw [answer, List.findSome?_append]
  generalize hs.findSome? (reply? token page) = first at hask ⊢
  rcases hres : ask token page hs with ⟨result, hs'⟩
  rw [hres] at hask
  subst hask
  cases first with
  | none =>
    by_cases htoken : token = nameToken
    · subst htoken
      cases hname : page.name <;> simp [value, hres, reply?_name, hname]
    · simp [value, hres, htoken, reply?_name]
  | some reply => cases reply <;> simp [value, hres]

/-- Without helpers only the page's name is filled in. -/
theorem answer_nil (page : Page) (token : Text) :
    answer page [] token =
      .ok (if token = nameToken then page.name.getD (placeholder token)
        else placeholder token) := by
  by_cases htoken : token = nameToken
  · cases hname : page.name <;> simp [answer, reply?_name, htoken, hname]
  · simp [answer, reply?_name, htoken]

theorem recalls_value (token : Text) (page : Page) (hs : List Helper) :
    Recalls hs (value token page hs).2 := by
  have hask := recalls_ask token page hs
  rcases hres : ask token page hs with ⟨_ | _ | text, hs'⟩ <;> rw [hres] at hask <;>
    simpa [value, hres] using hask

theorem answer_recalls (hr : Recalls hs hs') (hstateless : ∀ h ∈ hs, h.IsStateless)
    (token : Text) : answer page hs' token = answer page hs token := by
  rw [answer, answer, List.findSome?_append, List.findSome?_append,
    hr.findSome?_reply? hstateless]

/-! ### The run over the pieces -/

theorem recalls_fillPieces (page : Page) (ps : List Piece) (hs : List Helper) :
    Recalls hs (fillPieces page ps hs).2 := by
  induction ps generalizing hs with
  | nil => exact recalls_refl hs
  | cons p ps ih =>
    cases p with
    | char c => exact ih hs
    | token token =>
      have hvalue := recalls_value token page hs
      rcases hres : value token page hs with ⟨e | filled, hs'⟩ <;> rw [hres] at hvalue <;>
        simp only [fillPieces, hres]
      · exact hvalue
      · exact hvalue.trans (ih hs')

/-- Stateless helpers fill the pieces the same way after any calls. So do others, and for another
page, if they give the same answers to the tokens there are. -/
theorem fillPieces_fst_congr {page' : Page} {gs hs₁ gs₁ : List Helper}
    (hanswer : ∀ token, .token token ∈ ps → answer page hs token = answer page' gs token)
    (h₁ : Recalls hs hs₁) (h₂ : Recalls gs gs₁) (hhs : ∀ h ∈ hs, h.IsStateless)
    (hgs : ∀ g ∈ gs, g.IsStateless) : (fillPieces page ps hs₁).1 = (fillPieces page' ps gs₁).1 := by
  induction ps generalizing hs₁ gs₁ with
  | nil => rfl
  | cons p ps ih =>
    have hrest : ∀ token, .token token ∈ ps → answer page hs token = answer page' gs token :=
      fun token hmem => hanswer token (.tail p hmem)
    cases p with
    | char c => simp only [fillPieces, ih hrest h₁ h₂]
    | token token =>
      have hvalue : (value token page hs₁).1 = (value token page' gs₁).1 := by
        rw [value_fst, value_fst, answer_recalls h₁ hhs, answer_recalls h₂ hgs,
          hanswer token (.head ps)]
      have hr₁ := h₁.trans (recalls_value token page hs₁)
      have hr₂ := h₂.trans (recalls_value token page' gs₁)
      rcases hres₁ : value token page hs₁ with ⟨result, hs₁'⟩
      rcases hres₂ : value token page' gs₁ with ⟨result', gs₁'⟩
      rw [hres₁, hres₂] at hvalue
      rw [hres₁] at hr₁
      rw [hres₂] at hr₂
      subst hvalue
      cases result with
      | error e => simp only [fillPieces, hres₁, hres₂]
      | ok filled => simp only [fillPieces, hres₁, hres₂, ih hrest hr₁ hr₂]

theorem fillPieces_map_char (text : Text) (ps : List Piece) (hs : List Helper) :
    (fillPieces page (text.map .char ++ ps) hs).1 = (fillPieces page ps hs).1.map (text ++ ·) := by
  induction text with
  | nil => cases h : (fillPieces page ps hs).1 <;> simp [h, Except.map]
  | cons c text ih =>
    have hstep : (fillPieces page (.char c :: (text.map .char ++ ps)) hs).1 =
        (fillPieces page (text.map .char ++ ps) hs).1.map (c :: ·) := rfl
    rw [List.map_cons, List.cons_append, hstep, ih]
    cases (fillPieces page ps hs).1 <;> rfl

/-- One token with the part behind it. The helpers have been asked before, and are asked again for
the rest. -/
theorem exists_fillPieces_token (page : Page) (hr : Recalls hs hs')
    (hstateless : ∀ h ∈ hs, h.IsStateless) (token behind : Text) (ps : List Piece) :
    ∃ hs'', Recalls hs hs'' ∧
      (fillPieces page (.token token :: behind.map .char ++ ps) hs').1 =
        (answer page hs token).bind fun filled =>
          (fillPieces page ps hs'').1.map (filled ++ behind ++ ·) := by
  refine ⟨(value token page hs').2, hr.trans (recalls_value token page hs'), ?_⟩
  have hvalue : (value token page hs').1 = answer page hs token := by
    rw [value_fst, answer_recalls hr hstateless]
  rcases hres : value token page hs' with ⟨e | filled, hs''⟩ <;> rw [hres] at hvalue <;>
    rw [← hvalue, List.cons_append, fillPieces, hres]
  · rfl
  · simp only [fillPieces_map_char, Except.bind]
    cases (fillPieces page ps hs'').1 <;> simp [Except.map]

/-- The pieces of tokens with the parts behind them. -/
abbrev tokenPieces (tokens : List (Text × Text)) : List Piece :=
  tokens.flatMap fun (token, behind) => .token token :: behind.map .char

theorem fillPieces_tokens_of_ok {tokens : List (Text × Text)} {values : List Text}
    (hr : Recalls hs hs') (hstateless : ∀ h ∈ hs, h.IsStateless)
    (hvalues : List.Forall₂ (fun p v => answer page hs p.1 = .ok v) tokens values) :
    (fillPieces page (tokenPieces tokens) hs').1 =
      .ok (List.zipWith (fun v p => v ++ p.2) values tokens).flatten := by
  induction hvalues generalizing hs' with
  | nil => rfl
  | @cons p v tokens values hv _ ih =>
    obtain ⟨hs'', hr', hstep⟩ :=
      exists_fillPieces_token page hr hstateless p.1 p.2 (tokenPieces tokens)
    rw [tokenPieces, List.flatMap_cons, hstep, hv, Except.bind, ih hr']
    simp [Except.map]

theorem fillPieces_tokens_of_error {first rest : List (Text × Text)} {e : Failure}
    (hr : Recalls hs hs') (hstateless : ∀ h ∈ hs, h.IsStateless)
    (hfirst : ∀ p ∈ first, ∃ v, answer page hs p.1 = .ok v)
    (he : answer page hs token = .error e) :
    (fillPieces page (tokenPieces (first ++ (token, behind) :: rest)) hs').1 = .error e := by
  induction first generalizing hs' with
  | nil =>
    obtain ⟨_, -, hstep⟩ :=
      exists_fillPieces_token page hr hstateless token behind (tokenPieces rest)
    rw [List.nil_append, tokenPieces, List.flatMap_cons, hstep, he, Except.bind]
  | cons p first ih =>
    obtain ⟨v, hv⟩ := hfirst p List.mem_cons_self
    obtain ⟨hs'', hr', hstep⟩ := exists_fillPieces_token page hr hstateless p.1 p.2
      (tokenPieces (first ++ (token, behind) :: rest))
    rw [List.cons_append, tokenPieces, List.flatMap_cons, hstep, hv, Except.bind,
      ih hr' fun q hq => hfirst q (List.mem_cons_of_mem p hq), Except.map]

/-! ### The text -/

theorem fill_print_fst {c : Cut} (hc : c.IsExact) :
    (fill c.print page hs).1 =
      (fillPieces page (tokenPieces c.tokens) hs).1.map (c.before ++ ·) := by
  rw [fill, pieces_print hc, Cut.pieces, fillPieces_map_char]

/-- If there is a text for each token of a text, this is what filling it gives. -/
theorem fill_of_answers {cut : Cut} {hs : List Helper} {f : Text → Text} (hcut : cut.IsExact)
    (hstateless : ∀ h ∈ hs, h.IsStateless)
    (hanswer : ∀ token, answer page hs token = .ok (f token)) :
    (fill cut.print page hs).1 =
      .ok (cut.before ++ cut.tokens.flatMap fun (token, behind) => f token ++ behind) := by
  have hvalues : List.Forall₂ (fun p v => answer page hs p.1 = .ok v) cut.tokens
      (cut.tokens.map fun p => f p.1) :=
    List.forall₂_map_right_iff.mpr (List.forall₂_same.mpr fun p _ => hanswer p.1)
  rw [fill_print_fst hcut, fillPieces_tokens_of_ok (recalls_refl hs) hstateless hvalues,
    List.zipWith_map_left, List.zipWith_self, List.flatMap_def]
  rfl

/-- A placeholder alone becomes the answer to its token. -/
theorem fill_placeholder {html : Text} (htoken : IsToken token)
    (hstateless : ∀ h ∈ hs, h.IsStateless) (hanswer : answer page hs token = .ok html) :
    (fill (placeholder token) page hs).1 = .ok html := by
  let cut : Cut := ⟨[], [(token, [])]⟩
  have hcut : cut.IsExact := ⟨isPlain_of_notMem List.not_mem_nil,
    List.forall_mem_singleton.mpr htoken,
    List.forall_mem_singleton.mpr (isPlain_of_notMem List.not_mem_nil)⟩
  have hprint : cut.print = placeholder token := by simp [cut, Cut.print]
  rw [← hprint, fill_print_fst hcut,
    fillPieces_tokens_of_ok (recalls_refl hs) hstateless (.cons hanswer .nil)]
  simp [cut, Except.map]

/-- A text without placeholders stays as it is. -/
theorem fill_of_isPlain {t : Text} (ht : IsPlain t) (page : Page) (hs : List Helper) :
    (fill t page hs).1 = .ok t := by
  have hcut : (Cut.mk t []).IsExact := ⟨ht, nofun, nofun⟩
  have hfill : (fill (Cut.mk t []).print page hs).1 = _ := fill_print_fst hcut
  simpa [Cut.print, tokenPieces, fillPieces, Except.map] using hfill

/-- **Filling is exact.** A text has one exact cut. If the helpers have an answer to each of its
tokens, the result is the text with the answers in the places of the placeholders, to the letter.
Otherwise it is the failure of the leftmost token whose answer is one. -/
theorem fill_of_cut (t : Text) (page : Page) (hs : List Helper)
    (hstateless : ∀ h ∈ hs, h.IsStateless) :
    (∃! c : Cut, c.IsExact ∧ c.print = t) ∧
      ∀ c : Cut, c.IsExact → c.print = t →
        (∀ values, List.Forall₂ (fun p v => answer page hs p.1 = .ok v) c.tokens values →
          (fill t page hs).1 =
            .ok (c.before ++ (List.zipWith (fun v p => v ++ p.2) values c.tokens).flatten)) ∧
        ∀ first token behind rest e, c.tokens = first ++ (token, behind) :: rest →
          (∀ p ∈ first, ∃ v, answer page hs p.1 = .ok v) → answer page hs token = .error e →
          (fill t page hs).1 = .error e := by
  refine ⟨existsUnique_cut t, ?_⟩
  rintro c hc rfl
  refine ⟨fun values hvalues => ?_, fun first token behind rest e htokens hfirst he => ?_⟩
  · rw [fill_print_fst hc, fillPieces_tokens_of_ok (recalls_refl hs) hstateless hvalues, Except.map]
  · rw [fill_print_fst hc, htokens,
      fillPieces_tokens_of_error (recalls_refl hs) hstateless hfirst he, Except.map]

/-- A brace that opens no placeholder does not hide the next one, and a placeholder that is filled
in stays. -/
theorem fill_nested_braces :
    (∀ h ∈ [Helper.data [("X", "\x7bNAME\x7d")]], h.IsStateless) ∧
      (fill "\x7bA\x7bNAME\x7d \x7bX\x7d\x7bNAME1\x7d" (.ofText [] (some "N"))
        [.data [("X", "\x7bNAME\x7d")]]).1 = .ok "\x7bAN \x7bNAME\x7d\x7bNAME1\x7d" := by
  have hstateless : ∀ h ∈ [Helper.data [("X", "\x7bNAME\x7d")]], h.IsStateless := by
    rintro h hmem
    obtain rfl := List.mem_singleton.mp hmem
    exact .of_recalling fun _ => rfl
  refine ⟨hstateless, ?_⟩
  refine ((fill_of_cut _ _ _ hstateless).2
    ⟨"\x7bA", [("NAME", " "), ("X", "\x7bNAME1\x7d")]⟩ ?_ ?_).1 ["N", "\x7bNAME\x7d"] ?_
  · decide
  · decide
  · exact .cons (by rfl) (.cons (by rfl) .nil)

end Pageloom.Template
