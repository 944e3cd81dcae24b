import Pageloom.Proofs.Yaml.Token

/-!
# The scalar that a text opens with

A text that begins with a quote need not be one scalar between quotes. The scalar ends at the first
quote that closes it, and what follows is read like the rest of any document.

The first step of reading tokens reads that scalar. A token that was read stays where it is, up to
the tokens that a later colon puts in front of a key. So the tokens lead to the scalar: before it
stand only marks of keys and of blocks. If nothing follows the scalar, it is the only token.

## Main definitions

* `Yaml.Opens`: the scalar between quotes that a text begins with, and what follows it.
* `Yaml.Leads`: tokens that lead to a scalar or to a fault.

## Main results

* `Token.ofText_of_opens_nil`: the tokens of a text that is one scalar between quotes.
* `Token.leads_ofText`: the tokens of a text that begins with a quote.
-/

namespace Pageloom.Yaml

variable {q : Char} {rest t u : Text} {ts : List Token} {f : Fault}

/-- The text begins with a scalar between quotes: its text is `u`, and `rest` follows it. -/
def Opens (t u rest : Text) : Prop :=
  ∃ q c, (q = '"' ∨ q = '\'') ∧ t.head? = some q ∧ Scalar.quoted q { rest := t } = .ok (u, c) ∧
    c.rest = rest

theorem Opens.unique {u' rest' : Text} (h : Opens t u rest) (h' : Opens t u' rest') :
    u = u' ∧ rest = rest' := by
  obtain ⟨q, c, -, hhead, hquoted, rfl⟩ := h
  obtain ⟨q', c', -, hhead', hquoted', rfl⟩ := h'
  cases hhead.symm.trans hhead'
  cases hquoted.symm.trans hquoted'
  exact ⟨rfl, rfl⟩

/-- The tokens lead to the scalar between quotes with the text, or to a fault. -/
inductive Leads (u : Text) : List Token → Prop where
  | scalar (more : List Token) : Leads u (.scalar false u :: more)
  | fault (f : Fault) (more : List Token) : Leads u (.fault f :: more)
  | opening {k : Token} {ts : List Token} (hk : k.IsOpening) (h : Leads u ts) : Leads u (k :: ts)

/-! ### Reading the first token -/

namespace Lexing

/-- The state before anything is read. -/
def start (t : Text) : Lexing := { cursor := { rest := t } }

/-- The state when the scalar at the start is read, with the mark of a key that it may still turn
out to be. -/
def behindScalar (u : Text) (c : Cursor) (k : Option KeyMark) : Lexing :=
  { cursor := c, tokens := [.scalar false u], count := 1, keys := [k], allowKey := false }

/-- The mark of a key at the start of a text. -/
def firstKey : KeyMark := ⟨0, false, 0, 0, 0⟩

theorem skip_start (hq : q = '"' ∨ q = '\'') (rest : Text) :
    (start (q :: rest)).skip = start (q :: rest) := by
  rcases hq with rfl | rfl <;> rfl

theorem dispatch_start (hq : q = '"' ∨ q = '\'') (rest : Text) :
    dispatch q (start (q :: rest)) =
      (start (q :: rest)).node fun c =>
        (Scalar.quoted q c).map fun (u, c) => (.scalar false u, c) := by
  rcases hq with rfl | rfl <;> simp [dispatch, Cursor.atMarks, start, inFlow]

/-- The first step reads the scalar. -/
theorem step_start (hq : q = '"' ∨ q = '\'') (rest : Text) :
    (start (q :: rest)).step =
      (Scalar.quoted q { rest := q :: rest }).map fun r =>
        .inl (behindScalar r.1 r.2 (some firstKey)) := by
  have hstale : (start (q :: rest)).dropStale = .ok (start (q :: rest)) := rfl
  have hunwind : (start (q :: rest)).unwind 0 = start (q :: rest) := rfl
  have hmark : (start (q :: rest)).markKey =
      .ok { start (q :: rest) with keys := [some firstKey] } := rfl
  have hdispatch : (dispatch q ((start (q :: rest)).unwind 0)).map Sum.inl =
      (Scalar.quoted q { rest := q :: rest }).map fun r =>
        (.inl (behindScalar r.1 r.2 (some firstKey)) : Lexing ⊕ List Token) := by
    rw [hunwind, dispatch_start hq, node, hmark]
    change ((Scalar.quoted q { rest := q :: rest }).map _ |>.bind _).map Sum.inl = _
    cases Scalar.quoted q { rest := q :: rest } <;> rfl
  rw [step, skip_start hq, hstale]
  exact hdispatch

theorem run_start (hq : q = '"' ∨ q = '\'') (rest : Text) (n : ℕ) :
    run (n + 1) (start (q :: rest)) =
      match Scalar.quoted q { rest := q :: rest } with
      | .ok r => run n (behindScalar r.1 r.2 (some firstKey))
      | .error f => [.fault f] := by
  have hstale : (start (q :: rest)).dropStale = .ok (start (q :: rest)) := rfl
  rw [run, hstale]
  dsimp only
  rw [step_start hq]
  cases Scalar.quoted q { rest := q :: rest } <;> rfl

section

variable {c : Cursor} {k : Option KeyMark}

theorem dropStale_behindScalar (hk : ∀ m ∈ k, m.required = false) :
    (behindScalar u c k).dropStale = .ok (behindScalar u c (k.filter (isFresh c))) := by
  have hnone : (k.any fun m => m.required && !isFresh c m) = false := by
    cases k with
    | none => rfl
    | some m => simp [hk m rfl]
  rw [dropStale, behindScalar, List.any_cons, hnone]
  rfl

theorem skip_behindScalar (hc : c.rest = []) : (behindScalar u c k).skip = behindScalar u c k := by
  obtain ⟨rest, index, line, column⟩ := c
  cases hc
  simp [skip, behindScalar, Cursor.head?, skipBlanks, Cursor.lineBreak?, Cursor.skipSpaces,
    Cursor.skipWhile, Cursor.run, Cursor.advance, moveTo]

theorem finish_behindScalar (hk : ∀ m ∈ k, m.required = false) :
    (behindScalar u c k).finish = .ok [.scalar false u, .streamEnd] := by
  cases k with
  | none => rfl
  | some m =>
    have hdrop : (behindScalar u c (some m)).dropKey = .ok (behindScalar u c none) := by
      rw [dropKey, behindScalar]
      simp [hk m rfl, behindScalar]
    have hunwind : (behindScalar u c (some m)).unwind (-1) = behindScalar u c (some m) := rfl
    rw [finish, hunwind, hdrop]
    rfl

/-- If nothing follows the scalar, the tokens end with it. -/
theorem run_behindScalar (hk : ∀ m ∈ k, m.required = false) (hc : c.rest = []) (n : ℕ) :
    run (n + 1) (behindScalar u c k) = [.scalar false u, .streamEnd] := by
  have hfresh {k : Option KeyMark} (hk : ∀ m ∈ k, m.required = false) :
      ∀ m ∈ k.filter (isFresh c), m.required = false :=
    fun m hm => hk m (Option.mem_filter_iff.mp hm).1
  have hhead :
      (behindScalar u c ((k.filter (isFresh c)).filter (isFresh c))).cursor.head? = none := by
    rw [Cursor.head?, behindScalar, hc, List.head?_nil]
  rw [run, dropStale_behindScalar hk]
  simp only [step, skip_behindScalar hc, dropStale_behindScalar (hfresh hk), Except.bind, hhead,
    finish_behindScalar (hfresh (hfresh hk)), Except.map]

end

end Lexing

/-! ### What tokens grow to -/

theorem Leads.of_append {openings more : List Token} {k : Token} (ho : ∀ o ∈ openings, o.IsOpening)
    (h : Leads u (k :: more)) : Leads u (openings ++ k :: more) := by
  induction openings with
  | nil => exact h
  | cons o openings ih =>
    obtain ⟨ho, hopenings⟩ := List.forall_mem_cons.mp ho
    exact .opening ho (ih hopenings)

/-- A token that was read stays, and only opening ones come to stand in front of it. -/
theorem Token.Grows.exists_front {k : Token} {ks : List Token} (h : Grows t [k] ks) :
    ∃ openings more, ks.reverse = openings ++ k :: more ∧ ∀ o ∈ openings, o.IsOpening := by
  induction h with
  | refl => exact ⟨[], [], rfl, by simp⟩
  | @push ks added _ _ ih =>
    obtain ⟨openings, more, heq, ho⟩ := ih
    refine ⟨openings, more ++ [added], ?_, ho⟩
    rw [List.reverse_cons, heq, List.append_assoc, List.cons_append]
  | @insert ks o _ later hopening ih =>
    obtain ⟨openings, more, heq, ho⟩ := ih
    have hsplit : (ks.drop later).reverse ++ (ks.take later).reverse = openings ++ k :: more := by
      rw [← List.reverse_append, List.take_append_drop, heq]
    rw [List.reverse_append, List.reverse_cons, List.append_assoc, List.singleton_append]
    rcases List.append_eq_append_iff.mp hsplit with ⟨w, rfl, hw⟩ | ⟨w, hw, hmore⟩
    · refine ⟨(ks.drop later).reverse ++ o :: w, more, by rw [hw]; simp, ?_⟩
      obtain ⟨hbefore, hbehind⟩ := List.forall_mem_append.mp ho
      exact List.forall_mem_append.mpr ⟨hbefore, List.forall_mem_cons.mpr ⟨hopening, hbehind⟩⟩
    · rcases w with _ | ⟨d, w⟩
      · rw [List.nil_append] at hmore
        rw [List.append_nil] at hw
        exact ⟨openings ++ [o], more, by rw [hw, ← hmore]; simp,
          List.forall_mem_append.mpr ⟨ho, List.forall_mem_singleton.mpr hopening⟩⟩
      · obtain ⟨rfl, hmore⟩ := List.cons.inj hmore
        exact ⟨openings, w ++ o :: (ks.take later).reverse, by rw [hw]; simp, ho⟩

/-- The tokens of a run that has read a scalar lead to it. -/
theorem leads_of_isComplete (h : Lexing.IsComplete t [.scalar false u] ts) : Leads u ts := by
  obtain ⟨ks, hks, hts⟩ := h
  obtain ⟨openings, more, heq, ho⟩ := hks.exists_front
  rcases hts with rfl | ⟨decided, f, -, rfl⟩
  · rw [heq]
    exact .of_append ho (.scalar more)
  · rw [heq, List.take_append]
    rcases hleft : decided - openings.length with _ | n
    · rw [List.take_zero, List.append_nil]
      exact .of_append (fun o hmem => ho o (List.mem_of_mem_take hmem)) (.fault f [])
    · rw [List.take_succ_cons, List.append_assoc, List.cons_append]
      exact .of_append (fun o hmem => ho o (List.mem_of_mem_take hmem)) (.scalar _)

namespace Token

/-- The tokens of a text that begins with a quote. -/
theorem ofText_of_quote (hq : q = '"' ∨ q = '\'') (hallowed : ∀ c ∈ q :: rest, isAllowed c) :
    ofText (q :: rest) =
      match Scalar.quoted q { rest := q :: rest } with
      | .ok r => Lexing.run (rest.length + 2) (Lexing.behindScalar r.1 r.2 (some Lexing.firstKey))
      | .error f => [.fault f] := by
  rw [ofText, if_pos (List.all_eq_true.mpr hallowed)]
  exact Lexing.run_start hq rest (rest.length + 2)

/-- If nothing follows the scalar, it is the only token. -/
theorem ofText_of_opens_nil (hallowed : ∀ c ∈ t, isAllowed c) (h : Opens t u []) :
    ofText t = [.scalar false u, .streamEnd] := by
  obtain ⟨q, c, hq, hhead, hquoted, hc⟩ := h
  obtain ⟨rest, rfl⟩ := List.head?_eq_some_iff.mp hhead
  rw [ofText_of_quote hq hallowed, hquoted]
  exact Lexing.run_behindScalar (by rintro _ ⟨⟩; rfl) hc _

/-- **The tokens of a text that begins with a quote** lead to the scalar that it opens with. If
there is no such scalar, the only token is a fault. -/
theorem leads_ofText (hq : q = '"' ∨ q = '\'') (rest : Text) :
    (∃ f, ofText (q :: rest) = [.fault f]) ∨
      ∃ u behind, Opens (q :: rest) u behind ∧ Leads u (ofText (q :: rest)) := by
  by_cases hallowed : ∀ c ∈ q :: rest, isAllowed c
  · rw [ofText_of_quote hq hallowed]
    have hin := Scalar.ends_quoted (c := { rest := q :: rest }) List.suffix_rfl q
    cases hquoted : Scalar.quoted q { rest := q :: rest } with
    | error f => exact .inl ⟨f, rfl⟩
    | ok r =>
      rw [hquoted] at hin
      have hextends : (Lexing.behindScalar r.1 r.2 (some Lexing.firstKey)).Extends (q :: rest)
          [.scalar false r.1] := ⟨hin, .refl⟩
      exact .inr ⟨r.1, r.2.rest, ⟨q, r.2, hq, rfl, hquoted, rfl⟩,
        leads_of_isComplete (hextends.run _)⟩
  · rw [ofText, if_neg (mt List.all_eq_true.mp hallowed)]
    exact .inl ⟨_, rfl⟩

end Token

end Pageloom.Yaml
