import Pageloom.Proofs.Template.Fill

/-!
# The questions that helpers are asked

A helper that remembers what it was asked may answer the same question differently the next time. So
it matters which helpers are asked, and in which order. A run that keeps a log of its questions
tells this. It is the run that fills the text, with the helper for the page's name at the end of the
chain of helpers, so that it is a helper like the others.

The log can be told from the text and the helpers. It has a round for each placeholder, from left to
right. In a round, the helpers that claim the token are asked in their order up to the first that
does not pass, each in the state in which the questions before have left it. A failure ends its
round and the log. A helper may also fail before it is asked for a text, when it has to say whether
it claims the token. This failure is in the log as well, and marked as one of this kind.

That the log is complete shows in the helpers: putting its questions again, one after the other,
leaves them as the run has left them.

## Main definitions

* `Question`, `Round`: a question that was put to a helper, and those for one placeholder.
* `Question.IsPut`: a question is that of its helper, as the helper is when it is asked.
* `Template.fillLogged`, `Template.log`: the run with its log.
* `Template.roundsFor`: the log that there has to be.
* `Template.InRound`: the place of a question in such a log.
* `Template.AsksInTurn`: what the log says of the run.

## Main results

* `Template.fillLogged_fst`: the run with a log is the run.
* `Template.fillLogged_snd`: its log is the one that there has to be.
* `Template.asksInTurn`: both, with what follows from them.
-/

namespace Pageloom

/-- A question that was put to a helper: the place of the helper in the chain, the token, whether it
got as far as being asked for a text, and the answer. -/
structure Question where
  place : ℕ
  token : Text
  asked : Bool
  answer : Except Failure (Option Text)

/-- The questions for one placeholder. -/
structure Round where
  token : Text
  questions : List Question

open Helper

variable {page : Page} {token : Text} {h : Helper} {hs chain : List Helper} {place : ℕ}
  {q : Question} {r : Round} {ps : List Piece} {tokens : List Text}

/-! ### Asking -/

namespace Helper

/-- No other helper is asked after this answer: a text or a failure. -/
def settles (answer : Except Failure (Option Text)) : Bool :=
  match answer with
  | .ok none => false
  | _ => true

/-- Asks the helpers, the first of which is at a place in the chain, and keeps a log. -/
def askLogged (token : Text) (page : Page) : (place : ℕ) → List Helper →
    (Except Failure (Option Text) × List Helper) × List Question
  | _, [] => ((.ok none, []), [])
  | place, h :: hs =>
    match h.claims token with
    | .error e => ((.error e, h :: hs), [⟨place, token, false, .error e⟩])
    | .ok false =>
      let ((answer, hs), log) := askLogged token page (place + 1) hs
      ((answer, h :: hs), log)
    | .ok true =>
      match h.resolve token page with
      | (.ok none, h) =>
        let ((answer, hs), log) := askLogged token page (place + 1) hs
        ((answer, h :: hs), ⟨place, token, true, .ok none⟩ :: log)
      | (answer, h) => ((answer, h :: hs), [⟨place, token, true, answer⟩])

/-- The question to a helper when it is its turn, with what it answers: none if it does not claim
the token. -/
def question? (page : Page) (token : Text) (place : ℕ) (h : Helper) : Option Question :=
  match h.claims token with
  | .error e => some ⟨place, token, false, .error e⟩
  | .ok false => none
  | .ok true => some ⟨place, token, true, (h.resolve token page).1⟩

/-- The helper after a question: only one for a text leaves a trace. -/
def after (page : Page) (q : Question) (h : Helper) : Helper :=
  if q.asked then (h.resolve q.token page).2 else h

theorem question?_eq_none_iff :
    h.question? page token place = none ↔ h.claims token = .ok false := by
  rcases hc : h.claims token with e | _ | _ <;> simp [question?, hc]

theorem place_token_of_question? (hq : h.question? page token place = some q) :
    q.place = place ∧ q.token = token := by
  rcases hc : h.claims token with e | _ | _ <;> rw [question?, hc] at hq <;> cases hq
  · exact ⟨rfl, rfl⟩
  · exact ⟨rfl, rfl⟩

theorem question?_of_claims (hc : h.claims token = .ok true) (page : Page) (place : ℕ) :
    h.question? page token place = some ⟨place, token, true, (h.resolve token page).1⟩ := by
  rw [question?, hc]

/-- A helper is not asked, or passes, or settles the question. -/
theorem asked_cases (h : Helper) (page : Page) (token : Text) (place : ℕ) :
    h.question? page token place = none ∨
      ∃ q, h.question? page token place = some q ∧
        (q.answer = .ok none ∨ settles q.answer = true) := by
  rcases hq : h.question? page token place with _ | q
  · exact .inl rfl
  · refine .inr ⟨q, rfl, ?_⟩
    rcases q.answer with _ | _ | text
    · exact .inr rfl
    · exact .inl rfl
    · exact .inr rfl

theorem ask_cons_of_not_asked (hq : h.question? page token place = none) :
    ask token page (h :: hs) = ((ask token page hs).1, h :: (ask token page hs).2) := by
  simp [ask, question?_eq_none_iff.mp hq]

theorem ask_cons_of_passes (hq : h.question? page token place = some q)
    (hpass : q.answer = .ok none) :
    ask token page (h :: hs) =
      ((ask token page hs).1, h.after page q :: (ask token page hs).2) := by
  rcases hc : h.claims token with e | _ | _ <;> rw [question?, hc] at hq <;> cases hq
  · cases hpass
  · rcases hr : h.resolve token page with ⟨answer, h'⟩
    obtain rfl : answer = .ok none := by rw [← hpass, hr]
    simp [ask, after, hc, hr]

theorem ask_cons_of_settles (hq : h.question? page token place = some q)
    (hsettles : settles q.answer = true) :
    ask token page (h :: hs) = (q.answer, h.after page q :: hs) := by
  rcases hc : h.claims token with e | _ | _ <;> rw [question?, hc] at hq <;> cases hq
  · simp [ask, after, hc]
  · rcases hr : h.resolve token page with ⟨_ | _ | text, h'⟩
    · simp [ask, after, hc, hr]
    · rw [hr] at hsettles
      cases hsettles
    · simp [ask, after, hc, hr]

theorem ask_append (token : Text) (page : Page) (hs gs : List Helper) :
    ask token page (hs ++ gs) =
      if (ask token page hs).1.toOption = some none then
        ((ask token page gs).1, (ask token page hs).2 ++ (ask token page gs).2)
      else ((ask token page hs).1, (ask token page hs).2 ++ gs) := by
  induction hs with
  | nil => rfl
  | cons h hs ih =>
    rcases asked_cases h page token 0 with hq | ⟨q, hq, hpass | hsettles⟩
    · rw [List.cons_append, ask_cons_of_not_asked hq, ask_cons_of_not_asked hq, ih]
      split <;> rfl
    · rw [List.cons_append, ask_cons_of_passes hq hpass, ask_cons_of_passes hq hpass, ih]
      split <;> rfl
    · rw [List.cons_append, ask_cons_of_settles hq hsettles, ask_cons_of_settles hq hsettles]
      rcases hanswer : q.answer with _ | _ | text
      · rfl
      · rw [hanswer] at hsettles
        cases hsettles
      · rfl

end Helper

/-- The question is put to a helper of the chain, as it is by then. The helper claims the token and
is asked for a text, or it fails to say whether it claims the token and is not asked for one. -/
def Question.IsPut (page : Page) (chain : List Helper) (q : Question) : Prop :=
  ∃ h, chain[q.place]? = some h ∧
    if q.asked then h.claims q.token = .ok true ∧ q.answer = (h.resolve q.token page).1
    else ∃ e, h.claims q.token = .error e ∧ q.answer = .error e

namespace Template

/-! ### The log that there has to be -/

/-- The questions to all the helpers that claim a token, with what they would answer. -/
def claimants (page : Page) (token : Text) (place : ℕ) (hs : List Helper) : List Question :=
  (hs.zipIdx place).filterMap fun (h, n) => h.question? page token n

/-- The questions for a token: to the helpers that claim it, up to the first that does not pass. -/
def questionsFor (page : Page) (token : Text) (place : ℕ) (hs : List Helper) : List Question :=
  let asked := claimants page token place hs
  asked.take (asked.findIdx (fun q => settles q.answer) + 1)

/-- The chain after a question is put to one of its helpers. -/
def put (page : Page) (chain : List Helper) (q : Question) : List Helper :=
  chain.modify q.place (Helper.after page q)

/-- The chain after several questions, one after the other. -/
def putAll (page : Page) (chain : List Helper) (qs : List Question) : List Helper :=
  qs.foldl (put page) chain

/-- The rounds for tokens: the chain is asked for each of them in the state in which the rounds
before have left it, up to the first failure. -/
def roundsFor (page : Page) : List Text → List Helper → List Round
  | [], _ => []
  | token :: tokens, chain =>
    let questions := questionsFor page token 0 chain
    ⟨token, questions⟩ ::
      if questions.any fun q => !q.answer.isOk then []
      else roundsFor page tokens (putAll page chain questions)

/-! ### One round -/

theorem questionsFor_cons_of_not_asked (hq : h.question? page token place = none) :
    questionsFor page token place (h :: hs) = questionsFor page token (place + 1) hs := by
  simp [questionsFor, claimants, List.zipIdx_cons, hq]

theorem questionsFor_cons_of_passes (hq : h.question? page token place = some q)
    (hpass : q.answer = .ok none) :
    questionsFor page token place (h :: hs) = q :: questionsFor page token (place + 1) hs := by
  simp [questionsFor, claimants, List.zipIdx_cons, List.findIdx_cons, hq, hpass, settles]

theorem questionsFor_cons_of_settles (hq : h.question? page token place = some q)
    (hsettles : settles q.answer = true) :
    questionsFor page token place (h :: hs) = [q] := by
  simp [questionsFor, claimants, List.zipIdx_cons, List.findIdx_cons, hq, hsettles]

/-- **Asking with a log** is asking, and the log is the one that there has to be. -/
theorem askLogged_eq (token : Text) (page : Page) (place : ℕ) (hs : List Helper) :
    askLogged token page place hs = (ask token page hs, questionsFor page token place hs) := by
  induction hs generalizing place with
  | nil => rfl
  | cons h hs ih =>
    rcases hc : h.claims token with e | _ | _
    · have hq : h.question? page token place = some ⟨place, token, false, .error e⟩ := by
        rw [question?, hc]
      rw [questionsFor_cons_of_settles hq rfl]
      simp [askLogged, ask, hc]
    · rw [questionsFor_cons_of_not_asked (question?_eq_none_iff.mpr hc)]
      simp [askLogged, ask, hc, ih]
    · have hq := question?_of_claims hc page place
      rcases hr : h.resolve token page with ⟨_ | _ | text, h'⟩ <;> rw [hr] at hq
      · rw [questionsFor_cons_of_settles hq rfl]
        simp [askLogged, ask, hc, hr]
      · rw [questionsFor_cons_of_passes hq rfl]
        simp [askLogged, ask, hc, hr, ih]
      · rw [questionsFor_cons_of_settles hq rfl]
        simp [askLogged, ask, hc, hr]

/-- A round has a failure in it if it ends in one. -/
theorem any_questionsFor (token : Text) (page : Page) (place : ℕ) (hs : List Helper) :
    ((questionsFor page token place hs).any fun q => !q.answer.isOk) =
      !(ask token page hs).1.isOk := by
  induction hs generalizing place with
  | nil => rfl
  | cons h hs ih =>
    rcases asked_cases h page token place with hq | ⟨q, hq, hpass | hsettles⟩
    · rw [questionsFor_cons_of_not_asked hq, ask_cons_of_not_asked hq, ih]
    · rw [questionsFor_cons_of_passes hq hpass, ask_cons_of_passes hq hpass, List.any_cons, ih,
        hpass]
      rfl
    · rw [questionsFor_cons_of_settles hq hsettles, ask_cons_of_settles hq hsettles, List.any_cons,
        List.any_nil, Bool.or_false]

theorem putAll_cons (page : Page) (chain : List Helper) (q : Question) (qs : List Question) :
    putAll page chain (q :: qs) = putAll page (put page chain q) qs := rfl

theorem putAll_append (page : Page) (chain : List Helper) (qs qs' : List Question) :
    putAll page chain (qs ++ qs') = putAll page (putAll page chain qs) qs' := List.foldl_append

/-- A question to the first helper behind some others. -/
theorem put_append_cons (before hs : List Helper)
    (hq : h.question? page token before.length = some q) :
    put page (before ++ h :: hs) q = before ++ h.after page q :: hs := by
  obtain ⟨hplace, -⟩ := place_token_of_question? hq
  rw [put, hplace, List.modify_eq_take_cons_drop (by simp)]
  simp

/-- Putting the questions of a round again leaves the helpers as the round has left them. The
helpers before those that are asked only shift the places. -/
theorem putAll_questionsFor (token : Text) (page : Page) (before hs : List Helper) :
    putAll page (before ++ hs) (questionsFor page token before.length hs) =
      before ++ (ask token page hs).2 := by
  induction hs generalizing before with
  | nil => rfl
  | cons h hs ih =>
    have hnext (g : Helper) : putAll page (before ++ g :: hs)
        (questionsFor page token (before.length + 1) hs) =
          before ++ g :: (ask token page hs).2 := by
      simpa using ih (before ++ [g])
    rcases asked_cases h page token before.length with hq | ⟨q, hq, hpass | hsettles⟩
    · rw [questionsFor_cons_of_not_asked hq, ask_cons_of_not_asked hq, hnext]
    · rw [questionsFor_cons_of_passes hq hpass, ask_cons_of_passes hq hpass, putAll_cons,
        put_append_cons before hs hq, hnext]
    · rw [questionsFor_cons_of_settles hq hsettles, ask_cons_of_settles hq hsettles, putAll_cons,
        put_append_cons before hs hq]
      rfl

theorem putAll_round (token : Text) (page : Page) (chain : List Helper) :
    putAll page chain (questionsFor page token 0 chain) = (ask token page chain).2 :=
  putAll_questionsFor token page [] chain

/-! ### The run -/

/-- The token of a piece. -/
def Piece.token? : Piece → Option Text
  | .char _ => none
  | .token token => some token

/-- Fills pieces with the answers of a chain of helpers, and keeps a log. -/
def fillLogged (page : Page) : List Piece → List Helper →
    (Except Failure Text × List Helper) × List Round
  | [], chain => ((.ok [], chain), [])
  | .char c :: ps, chain =>
    let ((text, chain), rounds) := fillLogged page ps chain
    ((text.map (c :: ·), chain), rounds)
  | .token token :: ps, chain =>
    match askLogged token page 0 chain with
    | ((.error e, chain), questions) => ((.error e, chain), [⟨token, questions⟩])
    | ((.ok answer, chain), questions) =>
      let ((text, chain), rounds) := fillLogged page ps chain
      ((text.map (answer.getD (placeholder token) ++ ·), chain), ⟨token, questions⟩ :: rounds)

theorem fillLogged_token_of_error {e : Failure} (he : (ask token page chain).1 = .error e) :
    fillLogged page (.token token :: ps) chain =
      ((.error e, (ask token page chain).2), [⟨token, questionsFor page token 0 chain⟩]) := by
  rw [fillLogged, askLogged_eq]
  rcases hres : ask token page chain with ⟨answer, chain'⟩
  obtain rfl : answer = .error e := by rw [← he, hres]
  rfl

theorem fillLogged_token_of_ok {answer : Option Text}
    (hanswer : (ask token page chain).1 = .ok answer) :
    fillLogged page (.token token :: ps) chain =
      let run := fillLogged page ps (ask token page chain).2
      ((run.1.1.map (answer.getD (placeholder token) ++ ·), run.1.2),
        ⟨token, questionsFor page token 0 chain⟩ :: run.2) := by
  rw [fillLogged, askLogged_eq]
  rcases hres : ask token page chain with ⟨answer', chain'⟩
  obtain rfl : answer' = .ok answer := by rw [← hanswer, hres]
  rfl

/-- **The log of a run** is the one that there has to be. -/
theorem fillLogged_snd (page : Page) (ps : List Piece) (chain : List Helper) :
    (fillLogged page ps chain).2 = roundsFor page (ps.filterMap Piece.token?) chain := by
  induction ps generalizing chain with
  | nil => rfl
  | cons p ps ih =>
    cases p with
    | char c => exact ih chain
    | token token =>
      have htokens : (Piece.token token :: ps).filterMap Piece.token? =
          token :: ps.filterMap Piece.token? := rfl
      rw [htokens, roundsFor, any_questionsFor, putAll_round]
      cases hanswer : (ask token page chain).1 with
      | error e => rw [fillLogged_token_of_error hanswer]; rfl
      | ok answer =>
        simp only [fillLogged_token_of_ok hanswer, ih]
        rfl

/-- Putting the questions of a run again leaves the helpers as the run has left them. -/
theorem putAll_fillLogged (page : Page) (ps : List Piece) (chain : List Helper) :
    putAll page chain ((fillLogged page ps chain).2.flatMap Round.questions) =
      (fillLogged page ps chain).1.2 := by
  induction ps generalizing chain with
  | nil => rfl
  | cons p ps ih =>
    cases p with
    | char c => exact ih chain
    | token token =>
      cases hanswer : (ask token page chain).1 with
      | error e =>
        rw [fillLogged_token_of_error hanswer, List.flatMap_singleton]
        exact putAll_round token page chain
      | ok answer =>
        rw [fillLogged_token_of_ok hanswer, List.flatMap_cons, putAll_append, putAll_round]
        exact ih _

/-! ### The chain -/

/-- What stands for a token is the answer of the chain that ends in the helper for the name. -/
theorem value_eq_ask (token : Text) (page : Page) (hs : List Helper) :
    (value token page hs).1 =
        (ask token page (hs ++ [Helper.name])).1.map (·.getD (placeholder token)) ∧
      (value token page hs).2 ++ [Helper.name] = (ask token page (hs ++ [Helper.name])).2 := by
  rw [ask_append]
  rcases hres : ask token page hs with ⟨_ | _ | text, hs'⟩
  · simp [value, hres, Except.toOption, Except.map]
  · by_cases htoken : token = nameToken
    · subst htoken
      cases hname : page.name <;>
        simp [value, hres, ask, claims, resolve, hname, Except.toOption, Except.map]
    · simp [value, hres, ask, claims, htoken, Except.toOption, Except.map]
  · simp [value, hres, Except.toOption, Except.map]

/-- **The run with a log** is the run. -/
theorem fillLogged_fst (page : Page) (ps : List Piece) (hs : List Helper) :
    (fillLogged page ps (hs ++ [Helper.name])).1 =
      ((fillPieces page ps hs).1, (fillPieces page ps hs).2 ++ [Helper.name]) := by
  induction ps generalizing hs with
  | nil => rfl
  | cons p ps ih =>
    cases p with
    | char c => simp only [fillLogged, fillPieces, ih]
    | token token =>
      obtain ⟨hvalue, hchain⟩ := value_eq_ask token page hs
      rcases hres : value token page hs with ⟨result, hs'⟩
      rw [hres] at hvalue hchain
      cases hanswer : (ask token page (hs ++ [Helper.name])).1 with
      | error e =>
        obtain rfl : result = .error e := hvalue.trans (by rw [hanswer]; rfl)
        simp only [fillLogged_token_of_error hanswer, fillPieces, hres, ← hchain]
      | ok answer =>
        obtain rfl : result = .ok (answer.getD (placeholder token)) :=
          hvalue.trans (by rw [hanswer]; rfl)
        simp only [fillLogged_token_of_ok hanswer, fillPieces, hres, ← hchain, ih]

/-! ### What the log says -/

/-- Behind the first member that a list is taken up to, nothing is taken. -/
theorem eq_nil_of_take_findIdx {α : Type} {p : α → Bool} {l before behind : List α} {a : α}
    (h : l.take (l.findIdx p + 1) = before ++ a :: behind) (ha : p a = true) : behind = [] := by
  have hlength : before.length + (behind.length + 1) ≤ l.findIdx p + 1 := by
    simpa [h] using List.length_take_le (l.findIdx p + 1) l
  have hget : l[before.length]? = some a := by
    rw [← List.getElem?_take_of_lt (Nat.lt_of_lt_of_le (by omega) hlength), h]
    simp
  by_contra hne
  have hpos := List.length_pos_of_ne_nil hne
  obtain ⟨hlt, hget⟩ := List.getElem?_eq_some_iff.mp hget
  have hfirst : before.length < l.findIdx p := by omega
  have hnot := List.not_of_lt_findIdx hfirst
  rw [hget, ha] at hnot
  cases hnot

theorem eq_nil_of_settles {before behind : List Question}
    (h : questionsFor page token place hs = before ++ q :: behind)
    (hq : settles q.answer = true) :
    behind = [] :=
  eq_nil_of_take_findIdx h hq

/-- Helpers are asked in their order. -/
theorem pairwise_questionsFor (page : Page) (token : Text) (place : ℕ) (hs : List Helper) :
    (questionsFor page token place hs).Pairwise fun q q' => q.place < q'.place := by
  have hplaces : (hs.zipIdx place).Pairwise fun p p' => p.2 < p'.2 := by
    refine List.pairwise_map.mp ?_
    rw [List.zipIdx_map_snd]
    exact List.pairwise_lt_range'
  refine List.Pairwise.sublist (List.take_sublist _ _) (List.pairwise_filterMap.mpr ?_)
  refine hplaces.imp fun hlt q hq q' hq' => ?_
  rw [(place_token_of_question? hq).1, (place_token_of_question? hq').1]
  exact hlt

theorem token_of_mem_questionsFor (h : q ∈ questionsFor page token place hs) : q.token = token := by
  obtain ⟨⟨g, n⟩, -, hq⟩ := List.mem_filterMap.mp (List.mem_of_mem_take h)
  exact (place_token_of_question? hq).2

/-- Each round is asked of some helpers. -/
theorem exists_of_mem_roundsFor (h : r ∈ roundsFor page tokens chain) :
    ∃ chain', r.questions = questionsFor page r.token 0 chain' := by
  induction tokens generalizing chain with
  | nil => cases h
  | cons token tokens ih =>
    rcases List.mem_cons.mp h with rfl | h
    · exact ⟨chain, rfl⟩
    · split at h
      · cases h
      · exact ih h

/-- The place of a question in a log: its round is asked of the chain as the rounds before have left
it, and no round follows if the question fails. -/
def InRound (page : Page) (chain : List Helper) (before : List Question) (q : Question)
    (behind : List Question) : Prop :=
  ∃ earlier first token later rest, before = earlier ++ first ∧ behind = later ++ rest ∧
    questionsFor page token 0 (putAll page chain earlier) = first ++ q :: later ∧
    (q.answer.isOk = false → rest = [])

theorem InRound.append {round before behind : List Question}
    (h : InRound page (putAll page chain round) before q behind) :
    InRound page chain (round ++ before) q behind := by
  obtain ⟨earlier, first, token, later, rest, rfl, hbehind, hround, hstops⟩ := h
  rw [← putAll_append] at hround
  exact ⟨round ++ earlier, first, token, later, rest, (List.append_assoc ..).symm, hbehind, hround,
    hstops⟩

/-- Every question of a log stands in a round. -/
theorem inRound_of_split {before behind : List Question}
    (h : (roundsFor page tokens chain).flatMap Round.questions = before ++ q :: behind) :
    InRound page chain before q behind := by
  induction tokens generalizing chain before with
  | nil => simp [roundsFor] at h
  | cons token tokens ih =>
    rw [roundsFor, List.flatMap_cons] at h
    dsimp only at h
    generalize hround : questionsFor page token 0 chain = round at h
    have hlater (x : List Question) (hx : (if round.any fun q => !q.answer.isOk then []
        else roundsFor page tokens (putAll page chain round)).flatMap Round.questions =
          x ++ q :: behind) : InRound page chain (round ++ x) q behind := by
      split at hx
      · simp at hx
      · exact (ih hx).append
    rcases List.append_eq_append_iff.mp h with ⟨x, rfl, hx⟩ | ⟨_ | ⟨q', x⟩, hx, hrest⟩
    · exact hlater x hx
    · rw [List.append_nil] at hx
      subst hx
      simpa using hlater [] hrest.symm
    · obtain ⟨rfl, hbehind⟩ := List.cons.inj hrest
      refine ⟨[], before, token, x, _, rfl, hbehind, hround.trans hx, fun hfails => ?_⟩
      simp [hx, hfails]

/-- Nothing is asked after a failure. -/
theorem eq_nil_of_error {before behind : List Question} {e : Failure}
    (h : (roundsFor page tokens chain).flatMap Round.questions = before ++ q :: behind)
    (hq : q.answer = .error e) : behind = [] := by
  obtain ⟨earlier, first, token, later, rest, -, rfl, hround, hstops⟩ := inRound_of_split h
  rw [eq_nil_of_settles hround (by rw [hq]; rfl), hstops (by rw [hq]; rfl), List.append_nil]

/-- A question of a round is that of its helper as the questions before have left it. The helpers
before those that are asked only shift the places. -/
theorem exists_question?_of_split {before behind : List Question} (front : List Helper)
    (h : questionsFor page token front.length hs = before ++ q :: behind) :
    ∃ h, (putAll page (front ++ hs) before)[q.place]? = some h ∧
      h.question? page token q.place = some q := by
  induction hs generalizing front before with
  | nil => simp [questionsFor, claimants] at h
  | cons g hs ih =>
    have hnext (g : Helper) (before : List Question)
        (h : questionsFor page token (front.length + 1) hs = before ++ q :: behind) :
        ∃ h, (putAll page (front ++ g :: hs) before)[q.place]? = some h ∧
          h.question? page token q.place = some q := by
      simpa using ih (front ++ [g]) (by simpa using h)
    have hfirst (hq : g.question? page token front.length = some q) :
        ∃ h, (front ++ g :: hs)[q.place]? = some h ∧ h.question? page token q.place = some q := by
      obtain ⟨hplace, -⟩ := place_token_of_question? hq
      exact ⟨g, by simp [hplace], hplace ▸ hq⟩
    rcases asked_cases g page token front.length with hg | ⟨p, hg, hpass | hsettles⟩
    · rw [questionsFor_cons_of_not_asked hg] at h
      exact hnext g before h
    · rw [questionsFor_cons_of_passes hg hpass] at h
      rcases List.cons_eq_append_iff.mp h with ⟨rfl, hcons⟩ | ⟨before, rfl, hrest⟩
      · obtain ⟨rfl, -⟩ := List.cons.inj hcons
        exact hfirst hg
      · rw [putAll_cons, put_append_cons front hs hg]
        exact hnext (g.after page p) before hrest
    · rw [questionsFor_cons_of_settles hg hsettles] at h
      obtain ⟨rfl, hcons⟩ := (List.singleton_eq_append_iff.mp h).resolve_right (by simp)
      obtain ⟨rfl, -⟩ := List.cons.inj hcons
      exact hfirst hg

theorem isPut_of_split {before behind : List Question}
    (h : (roundsFor page tokens chain).flatMap Round.questions = before ++ q :: behind) :
    q.IsPut page (putAll page chain before) := by
  obtain ⟨earlier, first, token, later, rest, rfl, -, hround, -⟩ := inRound_of_split h
  obtain ⟨g, hg, hq⟩ := exists_question?_of_split [] hround
  refine ⟨g, by rw [putAll_append]; exact hg, ?_⟩
  obtain ⟨-, rfl⟩ := place_token_of_question? hq
  rcases hc : g.claims q.token with e | _ | _ <;> simp only [question?, hc] at hq
  · rw [← Option.some.inj hq]
    exact ⟨e, rfl, rfl⟩
  · cases hq
  · rw [← Option.some.inj hq]
    exact ⟨rfl, rfl⟩

/-- The log of the run that fills a text. The chain has the helper for the page's name behind the
others. -/
def log (page : Page) (t : Text) (hs : List Helper) : List Round :=
  (fillLogged page (pieces t) (hs ++ [Helper.name])).2

/-- **How the helpers are asked** when a text is filled. -/
structure AsksInTurn (page : Page) (t : Text) (hs : List Helper) : Prop where
  /-- The run with the log is the one that fills the text. -/
  same : fillLogged page (pieces t) (hs ++ [Helper.name]) =
    (((fill t page hs).1, (fill t page hs).2 ++ [Helper.name]), log page t hs)
  /-- The rounds are those for the placeholders of the text, from left to right. -/
  rounds : ∃ c : Cut, c.IsExact ∧ c.print = t ∧
    log page t hs = roundsFor page (c.tokens.map Prod.fst) (hs ++ [Helper.name])
  /-- No helper was asked anything else. -/
  kept : (fill t page hs).2 ++ [Helper.name] =
    putAll page (hs ++ [Helper.name]) ((log page t hs).flatMap Round.questions)
  /-- A round is about the token of its placeholder. -/
  tokens : ∀ r ∈ log page t hs, ∀ q ∈ r.questions, q.token = r.token
  /-- No helper is asked for a token that it does not claim. -/
  claimed : ∀ before q behind, (log page t hs).flatMap Round.questions = before ++ q :: behind →
    q.IsPut page (putAll page (hs ++ [Helper.name]) before)
  /-- No helper behind one that gave a text or failed is asked in the same round. -/
  settled : ∀ r ∈ log page t hs, ∀ q ∈ r.questions, settles q.answer →
    ∀ q' ∈ r.questions, q'.place ≤ q.place
  /-- Nothing is asked after a failure. -/
  stopped : ∀ before q behind e, (log page t hs).flatMap Round.questions = before ++ q :: behind →
    q.answer = .error e → behind = []

theorem filterMap_pieces (c : Cut) : c.pieces.filterMap Piece.token? = c.tokens.map Prod.fst := by
  have hchars (t : Text) : (t.map Piece.char).filterMap Piece.token? = [] := by
    simp [List.filterMap_map, Piece.token?, Function.comp_def]
  rw [Cut.pieces, List.filterMap_append, hchars, List.filterMap_flatMap, List.map_eq_flatMap]
  simp [hchars, Piece.token?]

/-- **The helpers are asked in turn**, whatever the text and the page, and whatever the helpers
remember. -/
theorem asksInTurn (page : Page) (t : Text) (hs : List Helper) : AsksInTurn page t hs where
  same := by
    rw [fill, ← fillLogged_fst, log]
  rounds := by
    obtain ⟨c, hc, rfl⟩ := exists_cut t
    exact ⟨c, hc, rfl, by rw [log, fillLogged_snd, pieces_print hc, filterMap_pieces]⟩
  kept := by
    rw [log, putAll_fillLogged, fillLogged_fst, fill]
  tokens := by
    intro r hr q hq
    rw [log, fillLogged_snd] at hr
    obtain ⟨chain, hquestions⟩ := exists_of_mem_roundsFor hr
    exact token_of_mem_questionsFor (hquestions ▸ hq)
  claimed := by
    intro before q behind hlog
    rw [log, fillLogged_snd] at hlog
    exact isPut_of_split hlog
  settled := by
    intro r hr q hq hsettles q' hq'
    rw [log, fillLogged_snd] at hr
    obtain ⟨chain, hquestions⟩ := exists_of_mem_roundsFor hr
    have hplaces := pairwise_questionsFor page r.token 0 chain
    rw [hquestions] at hq hq'
    obtain ⟨before, behind, hround⟩ := List.append_of_mem hq
    obtain rfl := eq_nil_of_settles hround hsettles
    rw [hround] at hplaces hq'
    rcases List.mem_append.mp hq' with hbefore | hlast
    · exact ((List.pairwise_append.mp hplaces).2.2 q' hbefore q List.mem_cons_self).le
    · rw [List.mem_singleton.mp hlast]
  stopped := by
    intro before q behind e hlog hanswer
    rw [log, fillLogged_snd] at hlog
    exact eq_nil_of_error hlog hanswer

-- One helper passes, and one fails before the last placeholder, when it has to say whether it
-- claims the token.
example :
    let passing : Helper := .custom (fun _ _ => .ok true) (fun _ _ _ => .ok none) []
    let failing : Helper := .custom (fun _ token => if token = "B".toList then
      .error (.missing token) else .ok false) (fun _ _ _ => .ok none) []
    (log (.ofText [] none) "\x7bA\x7d\x7bNAME\x7d\x7bB\x7d\x7bA\x7d"
      [passing, .data [("A", "x")], failing]).map
        (fun r => r.questions.map fun q => (q.place, q.asked)) =
      [[(0, true), (1, true)], [(0, true), (3, true)], [(0, true), (2, false)]] := by
  decide +kernel

end Template

end Pageloom
