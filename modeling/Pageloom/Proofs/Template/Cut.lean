import Mathlib.Data.List.Infix
import Pageloom.Proofs.Text.Digits
import Pageloom.Template

/-!
# The cut of a text at its placeholders

Where the placeholders of a text stand can be said without a scan: the text is a list of plain
parts, in which no placeholder occurs, with a placeholder between any two of them. Every text is cut
in this way exactly once, and `Template.pieces` finds this cut.

That a scan from left to right misses no placeholder rests on one observation: a brace opens a
placeholder or it does not, and what stands inside of a placeholder is never a brace. So a failed
match that is given up after its first character costs nothing.

## Main definitions

* `Template.IsToken`, `Template.IsPlain`: the names of placeholders, and the texts without any.
* `Template.Cut`, `Cut.print`, `Cut.IsExact`: parts and tokens, the text they make, and the cuts
  whose parts are plain.

## Main results

* `Template.pieces_print`: the pieces of the text of an exact cut are those of the cut.
* `Template.existsUnique_cut`: every text has exactly one exact cut.
-/

namespace Pageloom.Template

variable {name t l r : Text}

/-- What may stand between the braces of a placeholder. -/
def IsToken (name : Text) : Prop := name ≠ [] ∧ ∀ c ∈ name, isTokenChar c

/-- No placeholder occurs in the text. -/
def IsPlain (t : Text) : Prop := ∀ name, IsToken name → ¬ placeholder name <:+: t

/-- A text in parts: what stands before the first placeholder, and the token of each placeholder
with what stands behind it. -/
structure Cut where
  before : Text
  tokens : List (Text × Text)

namespace Cut

/-- The text of a cut. -/
def print (c : Cut) : Text :=
  c.before ++ c.tokens.flatMap fun (token, behind) => placeholder token ++ behind

/-- The parts between the placeholders have no placeholder in them. -/
structure IsExact (c : Cut) : Prop where
  before : IsPlain c.before
  token : ∀ p ∈ c.tokens, IsToken p.1
  behind : ∀ p ∈ c.tokens, IsPlain p.2

/-- The pieces of a cut. -/
def pieces (c : Cut) : List Piece :=
  c.before.map .char ++ c.tokens.flatMap fun (token, behind) => .token token :: behind.map .char

end Cut

/-! ### One placeholder -/

theorem toNat_lt_of_isTokenChar {c : Char} (h : isTokenChar c) : c.toNat < 128 := by
  rw [isTokenChar, Bool.or_eq_true, beq_iff_eq] at h
  rcases h with h | rfl
  · have hupper : c.val ≥ 'A'.val ∧ c.val ≤ 'Z'.val := of_decide_eq_true h
    exact toNat_lt_of_le (d := 'Z') (by decide) hupper.2
  · decide

theorem brace_not_mem (hn : IsToken name) : '\x7b' ∉ name := fun hmem =>
  absurd (hn.2 _ hmem) (by decide)

/-- A token is read exactly where a placeholder stands. -/
theorem token?_eq_some_iff :
    token? t = some name ↔ IsToken name ∧ ∃ rest, t = name ++ '\x7d' :: rest := by
  have hstop : ∀ rest, ('\x7d' :: rest : Text).takeWhile isTokenChar = [] := fun rest =>
    List.takeWhile_cons_of_neg (by decide)
  constructor
  · intro h
    simp only [token?, Option.ite_none_right_eq_some, Bool.and_eq_true, decide_eq_true_eq,
      Option.some.injEq] at h
    obtain ⟨⟨hne, hhead⟩, rfl⟩ := h
    obtain ⟨rest, hrest⟩ := List.head?_eq_some_iff.mp hhead
    refine ⟨⟨hne, fun c hc => ?_⟩, rest, ?_⟩
    · exact List.all_eq_true.mp (List.all_takeWhile ..) c hc
    · rw [← hrest, List.prefix_iff_eq_append.mp (List.takeWhile_prefix isTokenChar)]
  · rintro ⟨⟨hne, hall⟩, rest, rfl⟩
    have htake : (name ++ '\x7d' :: rest).takeWhile isTokenChar = name := by
      rw [List.takeWhile_append_of_pos hall, hstop, List.append_nil]
    simp [token?, htake, hne]

theorem placeholder_prefix_cons_iff {c : Char} :
    placeholder name <+: c :: t ↔ c = '\x7b' ∧ ∃ rest, t = name ++ '\x7d' :: rest := by
  simp [placeholder, List.IsPrefix, eq_comm]

theorem token?_eq_none_iff :
    token? t = none ↔ ∀ name, IsToken name → ¬ placeholder name <+: '\x7b' :: t := by
  simp only [Option.eq_none_iff_forall_ne_some, ne_eq, token?_eq_some_iff, not_and,
    placeholder_prefix_cons_iff, true_and]

/-- Without an opening brace there is no placeholder. -/
theorem isPlain_of_notMem (h : '\x7b' ∉ t) : IsPlain t :=
  fun _ _ hpart => h (hpart.subset List.mem_cons_self)

/-! ### The scan, piece by piece -/

theorem piecesFrom_eq_drop (n : ℕ) (t : Text) : piecesFrom n t = pieces (t.drop n) := by
  induction n generalizing t with
  | zero => rfl
  | succ n ih =>
    cases t with
    | nil => simp [pieces, piecesFrom]
    | cons c t => exact ih t

@[simp] theorem pieces_nil : pieces [] = [] := rfl

theorem pieces_placeholder_append (hn : IsToken name) (t : Text) :
    pieces (placeholder name ++ t) = .token name :: pieces t := by
  have hread : token? (name ++ '\x7d' :: t) = some name := token?_eq_some_iff.mpr ⟨hn, t, rfl⟩
  have hdrop : (name ++ '\x7d' :: t).drop (name.length + 1) = t := by simp
  simp only [pieces, placeholder, List.cons_append, List.append_assoc, List.nil_append, piecesFrom,
    if_true, hread]
  rw [piecesFrom_eq_drop, hdrop, pieces]

theorem pieces_cons_of_not_prefix {c : Char}
    (h : ∀ name, IsToken name → ¬ placeholder name <+: c :: t) :
    pieces (c :: t) = .char c :: pieces t := by
  have hread : (if c = '\x7b' then token? t else none) = none := by
    split
    · next hc => subst hc; exact token?_eq_none_iff.mpr h
    · rfl
  rw [pieces, piecesFrom, hread, pieces]

/-- Before the end of a text or an opening brace, a plain part is read character by character: no
placeholder begins in the part and ends behind it, since there is no brace inside of it. -/
theorem pieces_append_of_isPlain (hl : IsPlain l) (hr : r = [] ∨ r.head? = some '\x7b') :
    pieces (l ++ r) = l.map .char ++ pieces r := by
  induction l with
  | nil => rfl
  | cons c l ih =>
    have htail : IsPlain l := fun name hn hinf => hl name hn (List.infix_cons hinf)
    rw [List.cons_append, pieces_cons_of_not_prefix, ih htail, List.map_cons, List.cons_append]
    intro name hn hpre
    rw [← List.cons_append] at hpre
    rcases List.prefix_or_prefix_of_prefix hpre (List.prefix_append (c :: l) r) with h | ⟨s, hs⟩
    · exact hl name hn h.isInfix
    · cases s with
      | nil => exact hl name hn (by rw [← hs, List.append_nil])
      | cons d s =>
        have hname : l ++ d :: s = name ++ ['\x7d'] := (List.cons.inj hs).2
        have hd : d ∈ name ++ ['\x7d'] := hname ▸ by simp
        rw [← hs, List.prefix_append_right_inj] at hpre
        obtain rfl | hr := hr
        · simp at hpre
        · obtain ⟨r, rfl⟩ := List.head?_eq_some_iff.mp hr
          obtain rfl : d = '\x7b' := (List.cons_prefix_cons.mp hpre).1
          simp [brace_not_mem hn] at hd

/-! ### Cuts -/

theorem Cut.print_mk_cons (before token behind : Text) (tokens : List (Text × Text)) :
    (Cut.mk before ((token, behind) :: tokens)).print =
      before ++ (placeholder token ++ (Cut.mk behind tokens).print) := by
  simp [Cut.print]

/-- The pieces of the text of an exact cut are those of the cut: the scan finds every placeholder,
and nothing else. -/
theorem pieces_print {c : Cut} (hc : c.IsExact) : pieces c.print = c.pieces := by
  obtain ⟨before, tokens⟩ := c
  induction tokens generalizing before with
  | nil => simpa [Cut.print, Cut.pieces] using pieces_append_of_isPlain hc.before (.inl rfl)
  | cons p tokens ih =>
    obtain ⟨token, behind⟩ := p
    have hrest : (Cut.mk behind tokens).IsExact :=
      ⟨hc.behind _ List.mem_cons_self, fun p hp => hc.token p (List.mem_cons_of_mem _ hp),
        fun p hp => hc.behind p (List.mem_cons_of_mem _ hp)⟩
    rw [Cut.print_mk_cons, pieces_append_of_isPlain hc.before (.inr rfl),
      pieces_placeholder_append (hc.token _ List.mem_cons_self), ih behind hrest]
    simp [Cut.pieces]

/-- A list of pieces is read back into the part before its first token and the rest. -/
theorem map_char_append_inj {before before' : Text} {ps ps' : List Piece}
    (hps : ∀ c, ps.head? ≠ some (.char c)) (hps' : ∀ c, ps'.head? ≠ some (.char c))
    (h : before.map .char ++ ps = before'.map .char ++ ps') : before = before' ∧ ps = ps' := by
  induction before generalizing before' with
  | nil =>
    cases before' with
    | nil => exact ⟨rfl, h⟩
    | cons c before' => exact absurd (by simpa using congrArg List.head? h) (hps c)
  | cons c before ih =>
    cases before' with
    | nil => exact absurd (by simpa using congrArg List.head? h.symm) (hps' c)
    | cons c' before' =>
      obtain ⟨hc, htail⟩ := List.cons.inj h
      obtain ⟨rfl, rfl⟩ := ih htail
      exact ⟨by rw [Piece.char.inj hc], rfl⟩

theorem Cut.pieces_injective {c c' : Cut} (h : c.pieces = c'.pieces) : c = c' := by
  obtain ⟨before, tokens⟩ := c
  obtain ⟨before', tokens'⟩ := c'
  have hhead : ∀ (ps : List (Text × Text)) (d : Char), (ps.flatMap fun (token, behind) =>
      Piece.token token :: behind.map .char).head? ≠ some (.char d) := by
    rintro (_ | ⟨⟨token, behind⟩, ps⟩) d <;> simp
  induction tokens generalizing before before' tokens' with
  | nil =>
    obtain ⟨rfl, hps⟩ := map_char_append_inj (hhead _) (hhead _) h
    cases tokens' with
    | nil => rfl
    | cons p tokens' => simp at hps
  | cons p tokens ih =>
    obtain ⟨rfl, hps⟩ := map_char_append_inj (hhead _) (hhead _) h
    cases tokens' with
    | nil => simp at hps
    | cons p' tokens' =>
      obtain ⟨token, behind⟩ := p
      obtain ⟨token', behind'⟩ := p'
      simp only [List.flatMap_cons, List.cons_append, List.cons.injEq, Piece.token.injEq] at hps
      obtain ⟨rfl, hps⟩ := hps
      obtain ⟨rfl, rfl⟩ := Cut.mk.inj (ih behind behind' tokens' hps)
      rfl

/-- Every text has an exact cut. The induction is on the text, whose first characters are a
placeholder or whose first character stands before all placeholders of the rest. -/
theorem exists_cut (t : Text) : ∃ c : Cut, c.IsExact ∧ c.print = t := by
  induction hn : t.length using Nat.strong_induction_on generalizing t with
  | _ n ih =>
    subst hn
    by_cases hopen : ∃ name, IsToken name ∧ placeholder name <+: t
    · obtain ⟨name, hname, rest, rfl⟩ := hopen
      obtain ⟨c, hc, rfl⟩ := ih rest.length (by simp [placeholder]; omega) rest rfl
      refine ⟨⟨[], (name, c.before) :: c.tokens⟩, ⟨?_, ?_, ?_⟩, ?_⟩
      · rintro name - hinf
        simp [placeholder] at hinf
      · simpa using ⟨hname, fun a b hab => hc.token (a, b) hab⟩
      · simpa using ⟨hc.before, fun a b hab => hc.behind (a, b) hab⟩
      · simp [Cut.print_mk_cons]
    · push Not at hopen
      cases t with
      | nil => exact ⟨⟨[], []⟩, ⟨fun _ _ h => by simp [placeholder] at h, by simp, by simp⟩, rfl⟩
      | cons d t =>
        obtain ⟨c, hc, rfl⟩ := ih t.length (by simp) t rfl
        refine ⟨⟨d :: c.before, c.tokens⟩, ⟨?_, hc.token, hc.behind⟩, rfl⟩
        intro name hname hinf
        rcases List.infix_cons_iff.mp hinf with hpre | hinf
        · refine hopen name hname (hpre.trans ?_)
          exact List.cons_prefix_cons.mpr ⟨rfl, List.prefix_append _ _⟩
        · exact hc.before name hname hinf

/-- **Every text has exactly one exact cut.** -/
theorem existsUnique_cut (t : Text) : ∃! c : Cut, c.IsExact ∧ c.print = t := by
  obtain ⟨c, hc, rfl⟩ := exists_cut t
  refine ⟨c, ⟨hc, rfl⟩, fun c' ⟨hc', hprint⟩ => Cut.pieces_injective ?_⟩
  rw [← pieces_print hc', ← pieces_print hc, hprint]

/-! ### Deciding -/

theorem isPlain_iff : IsPlain t ↔ pieces t = t.map .char := by
  refine ⟨fun h => by simpa using pieces_append_of_isPlain h (.inl rfl), fun h => ?_⟩
  obtain ⟨c, hc, rfl⟩ := exists_cut t
  have hcut : c = ⟨c.print, []⟩ :=
    Cut.pieces_injective (by rw [← pieces_print hc, h]; simp [Cut.pieces])
  have hplain := hc.before
  rwa [show c.before = c.print from congrArg Cut.before hcut] at hplain

instance (name : Text) : Decidable (IsToken name) :=
  decidable_of_iff (name ≠ [] ∧ name.all isTokenChar) (by rw [IsToken, List.all_eq_true])

instance (t : Text) : Decidable (IsPlain t) := decidable_of_iff _ isPlain_iff.symm

instance (c : Cut) : Decidable c.IsExact :=
  decidable_of_iff (IsPlain c.before ∧ (∀ p ∈ c.tokens, IsToken p.1) ∧ ∀ p ∈ c.tokens, IsPlain p.2)
    ⟨fun ⟨h₁, h₂, h₃⟩ => ⟨h₁, h₂, h₃⟩, fun ⟨h₁, h₂, h₃⟩ => ⟨h₁, h₂, h₃⟩⟩

end Pageloom.Template
