import Mathlib.Data.Nat.Notation
import Pageloom.Proofs.Outcome
import Pageloom.Yaml.Node

/-!
# What a tree is made of

The tree of a document is made of the scalars and tags that its tokens hold, and nothing else. A
scalar without a tag has the one that its spelling gives, or is a text if it stands between quotes;
any other tag is written out. Composing a tree fails only where the tokens do not fit together, or
with a fault that stands among the tokens.

The functions that compose a tree call each other, each time with a smaller bound. They share one
statement, which is proved for all of them at once by induction on the bound.

## Main definitions

* `IsTag`, `IsScalar`: the tags and scalars that tokens hold.
* `Node.IsFrom`, `Composing.IsFrom`: a tree, and the state in which one is composed, that are made
  of tokens.

## Main results

* `Node.composers`: what composing a node, its items or its entries gives.
* `Node.ends_ofTokens`: the tree of a document.
-/

namespace Pageloom.Yaml

/-! ### Scalars and tags -/

/-- A handle with what it stands for: it is always known, or the tokens declare it. -/
def IsHandle (ts : List Token) (name start : Text) : Prop :=
  (name, start) ∈ Composing.defaultHandles ∨ .handle name start ∈ ts

/-- A tag that the tokens hold, written out. -/
inductive IsTag (ts : List Token) : Text → Prop where
  | full {uri : Text} (h : .tag none uri ∈ ts) : IsTag ts uri
  | short {name start suffix : Text} (hname : IsHandle ts name start)
      (h : .tag (some name) suffix ∈ ts) :
      IsTag ts (start ++ suffix)

/-- The text of a scalar that the tokens hold, or of one that is missing. -/
def IsText (ts : List Token) (u : Text) : Prop := u = [] ∨ ∃ isPlain, .scalar isPlain u ∈ ts

/-- A scalar that the tokens hold, with its tag. What stands between quotes is a text, and so is the
mark of a value where it is a key. The mark alone says that the spelling gives the tag. -/
inductive IsScalar (ts : List Token) : Tag → Text → Prop where
  | missing : IsScalar ts .null []
  | plain {u : Text} (h : .scalar true u ∈ ts) : IsScalar ts (.ofPlain u) u
  | text {u : Text} (htext : IsText ts u) : IsScalar ts .text u
  | tagged {uri u : Text} (htag : IsTag ts uri) (htext : IsText ts u) :
      IsScalar ts (Composing.tagOr (.ofPlain u) (some uri)) u

/-- A tree that is made of what the tokens hold. -/
inductive Node.IsFrom (ts : List Token) : Node → Prop where
  | scalar {tag : Tag} {u : Text} (h : IsScalar ts tag u) : IsFrom ts (.scalar tag u)
  | sequence {tag : Tag} {items : List Node} (h : ∀ n ∈ items, IsFrom ts n) :
      IsFrom ts (.sequence tag items)
  | mapping {tag : Tag} {es : List (Node × Node)}
      (htag : tag = .mapping ∨ ∃ uri, IsTag ts uri ∧ uri ≠ ['!'] ∧ tag = .ofUri uri)
      (hkeys : ∀ e ∈ es, IsFrom ts e.1) (hvalues : ∀ e ∈ es, IsFrom ts e.2) :
      IsFrom ts (.mapping tag es)

/-- What can go wrong when a tree is composed. -/
def TokenFault (ts : List Token) (f : Fault) : Prop := f = .malformed ∨ .fault f ∈ ts

variable {ts : List Token} {tag : Tag} {u : Text}

theorem IsScalar.isText (h : IsScalar ts tag u) : IsText ts u := by
  cases h with
  | missing => exact .inl rfl
  | plain h => exact .inr ⟨true, h⟩
  | text htext => exact htext
  | tagged htag htext => exact htext

theorem TokenFault.malformed : TokenFault ts .malformed := .inl rfl

theorem Node.isFrom_empty : Node.empty.IsFrom ts := .scalar .missing

/-! ### The state -/

namespace Composing

variable {s : Composing} {label : Option Text} {node : Node} {α β : Type} {P : α → Prop}
  {written : Option (Option Text × Text)} {full : Option Text}

/-- What is left, the handles and the labelled nodes are made of the tokens. -/
structure IsFrom (ts : List Token) (s : Composing) : Prop where
  tokens : s.tokens ⊆ ts
  handles : ∀ p ∈ s.handles, IsHandle ts p.1 p.2
  labels : ∀ p ∈ s.labels, ∀ n ∈ p.2, n.IsFrom ts

/-- The outcome of composing a part: the part satisfies a predicate and leaves a state that is made
of the tokens, or the tokens are at fault. -/
abbrev Composes (ts : List Token) (P : α → Prop) (x : Except Fault (α × Composing)) : Prop :=
  Ends (TokenFault ts) (fun r => P r.1 ∧ r.2.IsFrom ts) x

namespace IsFrom

theorem skip (h : s.IsFrom ts) : s.skip.IsFrom ts :=
  ⟨fun _ hk => h.tokens (List.mem_of_mem_tail hk), h.handles, h.labels⟩

theorem firstOrSkip (h : s.IsFrom ts) (first : Bool) :
    (if first then s else s.skip).IsFrom ts := by
  split
  · exact h
  · exact h.skip

theorem unexpected (h : s.IsFrom ts) : TokenFault ts s.unexpected := by
  rw [Composing.unexpected]
  split
  · next htokens => exact .inr (h.tokens (by simp [htokens]))
  · exact .malformed

theorem leave {rest : List Token} (h : s.IsFrom ts) (hrest : rest ⊆ s.tokens) :
    { s with tokens := rest }.IsFrom ts :=
  ⟨List.Subset.trans hrest h.tokens, h.handles, h.labels⟩

theorem properties (h : s.IsFrom ts) :
    s.properties.2.IsFrom ts ∧ ∀ p ∈ s.properties.1.tag, .tag p.1 p.2 ∈ ts := by
  rw [Composing.properties]
  split
  · next htokens =>
    refine ⟨h.leave (by simp [htokens]), ?_⟩
    rintro _ ⟨⟩
    exact h.tokens (by simp [htokens])
  · next htokens =>
    refine ⟨h.leave (by simp [htokens]), ?_⟩
    rintro _ ⟨⟩
    exact h.tokens (by simp [htokens])
  · next htokens => exact ⟨h.leave (by simp [htokens]), fun p hp => by cases hp⟩
  · next htokens =>
    refine ⟨h.leave (by simp [htokens]), ?_⟩
    rintro _ ⟨⟩
    exact h.tokens (by simp [htokens])
  · exact ⟨h, fun p hp => by cases hp⟩

theorem fullTag (h : s.IsFrom ts) (hwritten : ∀ p ∈ written, .tag p.1 p.2 ∈ ts) :
    Ends (TokenFault ts) (fun full => ∀ uri ∈ full, IsTag ts uri) (s.fullTag written) := by
  rcases written with _ | ⟨_ | name, suffix⟩
  · rintro _ ⟨⟩
  · rintro _ ⟨⟩
    exact .full (hwritten _ rfl)
  · rw [Composing.fullTag]
    split
    · next start hstart =>
      rintro _ ⟨⟩
      obtain ⟨l₁, l₂, hl, -⟩ := List.lookup_eq_some_iff.mp hstart
      exact .short (h.handles (name, start) (by simp [hl])) (hwritten _ rfl)
    · exact .malformed

theorem openLabel (h : s.IsFrom ts) : Ends (TokenFault ts) (IsFrom ts) (s.openLabel label) := by
  cases label with
  | none => exact h
  | some name =>
    rw [Composing.openLabel]
    split
    · exact .malformed
    · exact ⟨h.tokens, h.handles, List.forall_mem_cons.mpr ⟨by simp, h.labels⟩⟩

theorem closeLabel (h : s.IsFrom ts) (hn : node.IsFrom ts) :
    (s.closeLabel label node).IsFrom ts := by
  cases label with
  | none => exact h
  | some name =>
    refine ⟨h.tokens, h.handles, List.forall_mem_cons.mpr ⟨?_, h.labels⟩⟩
    rintro _ ⟨⟩
    exact hn

theorem refer (h : s.IsFrom ts) (name : Text) : Composes ts (Node.IsFrom ts) (s.refer name) := by
  rw [Composing.refer]
  split
  · next n hlookup =>
    obtain ⟨l₁, l₂, hl, -⟩ := List.lookup_eq_some_iff.mp hlookup
    exact ⟨h.labels (name, some n) (by simp [hl]) n rfl, h⟩
  · exact .malformed

end IsFrom

/-! ### Nodes with a tag -/

theorem isFrom_scalarNode {isPlain : Bool} (hfull : ∀ uri ∈ full, IsTag ts uri)
    (hu : .scalar isPlain u ∈ ts) : (scalarNode full isPlain u).IsFrom ts := by
  refine .scalar ?_
  cases full with
  | none =>
    cases isPlain with
    | true => exact .plain hu
    | false => exact .text (.inr ⟨_, hu⟩)
  | some uri =>
    have htagged : IsScalar ts (tagOr (.ofPlain u) (some uri)) u :=
      .tagged (hfull uri rfl) (.inr ⟨_, hu⟩)
    by_cases hmark : uri = ['!']
    · simpa [hmark, tagOr] using htagged
    · simpa [hmark, tagOr] using htagged

theorem isFrom_scalarNode_nil (hfull : ∀ uri ∈ full, IsTag ts uri) :
    (scalarNode full true []).IsFrom ts := by
  refine .scalar ?_
  cases full with
  | none => exact .missing
  | some uri => exact .tagged (hfull uri rfl) (.inl rfl)

theorem isFrom_sequenceNode {read : List Node × Composing}
    (hread : (∀ n ∈ read.1, n.IsFrom ts) ∧ read.2.IsFrom ts) :
    (sequenceNode full read).1.IsFrom ts ∧ (sequenceNode full read).2.IsFrom ts :=
  ⟨.sequence hread.1, hread.2⟩

theorem isFrom_mappingNode {read : List (Node × Node) × Composing}
    (hfull : ∀ uri ∈ full, IsTag ts uri)
    (hread : (∀ e ∈ read.1, e.1.IsFrom ts ∧ e.2.IsFrom ts) ∧ read.2.IsFrom ts) :
    (mappingNode full read).1.IsFrom ts ∧ (mappingNode full read).2.IsFrom ts := by
  refine ⟨.mapping ?_ (fun e he => (hread.1 e he).1) fun e he => (hread.1 e he).2, hread.2⟩
  cases full with
  | none => exact .inl rfl
  | some uri =>
    by_cases hmark : uri = ['!']
    · exact .inl (if_pos hmark)
    · exact .inr ⟨uri, hfull uri rfl, hmark, if_neg hmark⟩

end Composing

/-! ### Composing -/

namespace Node

open Composing (Composes)

variable {n : ℕ} {s : Composing}

/-- Entries whose keys and values are made of the tokens. -/
abbrev AreEntries (ts : List Token) (es : List (Node × Node)) : Prop :=
  ∀ e ∈ es, e.1.IsFrom ts ∧ e.2.IsFrom ts

/-- The functions that compose a tree, with one bound: all that they give is made of the tokens. -/
structure Composers (ts : List Token) (n : ℕ) : Prop where
  compose : ∀ p s, s.IsFrom ts → Composes ts (IsFrom ts) (compose p n s)
  composeUnless : ∀ ends p s, s.IsFrom ts → Composes ts (IsFrom ts) (composeUnless ends p n s)
  blockItems : ∀ s, s.IsFrom ts → Composes ts (∀ m ∈ ·, m.IsFrom ts) (blockItems n s)
  indentlessItems : ∀ s, s.IsFrom ts → Composes ts (∀ m ∈ ·, m.IsFrom ts) (indentlessItems n s)
  blockEntries : ∀ s, s.IsFrom ts → Composes ts (AreEntries ts) (blockEntries n s)
  blockValue : ∀ s, s.IsFrom ts → Composes ts (IsFrom ts) (blockValue n s)
  flowItems : ∀ first s, s.IsFrom ts → Composes ts (∀ m ∈ ·, m.IsFrom ts) (flowItems first n s)
  flowPair : ∀ s, s.IsFrom ts → Composes ts (IsFrom ts) (flowPair n s)
  flowEntries : ∀ first s, s.IsFrom ts → Composes ts (AreEntries ts) (flowEntries first n s)
  flowEntry : ∀ s, s.IsFrom ts →
    Composes ts (fun e => e.1.IsFrom ts ∧ e.2.IsFrom ts) (flowEntry n s)
  flowValue : ∀ close s, s.IsFrom ts → Composes ts (IsFrom ts) (flowValue close n s)

namespace Composers

theorem compose_succ (ih : Composers ts n) (p : Place) (hs : s.IsFrom ts) :
    Composes ts (IsFrom ts) (Node.compose p (n + 1) s) := by
  rw [Node.compose]
  split
  · exact hs.skip.refer _
  · obtain ⟨hs, hwritten⟩ := hs.properties
    dsimp only
    refine (hs.fullTag hwritten).bind fun full hfull => ?_
    split
    · next isPlain u _ htokens =>
      refine hs.skip.openLabel.bind fun s' hs' => ?_
      have hu : .scalar isPlain u ∈ ts := hs.tokens (by simp [htokens])
      have hnode := Composing.isFrom_scalarNode hfull hu
      exact ⟨hnode, hs'.closeLabel hnode⟩
    · next first rest hfirst htokens =>
      refine hs.openLabel.bind fun s' hs' => ?_
      have hclose {x : Except Fault (Node × Composing)} (hx : Composes ts (IsFrom ts) x) :
          Composes ts (IsFrom ts)
            (x.bind fun r => pure (r.1, r.2.closeLabel s.properties.1.label r.1)) :=
        hx.bind fun r hr => ⟨hr.1, hr.2.closeLabel hr.1⟩
      refine .ite (hclose ((ih.indentlessItems s' hs').map fun _ =>
        Composing.isFrom_sequenceNode)) ?_
      refine .ite (hclose ((ih.flowItems true _ hs'.skip).map fun _ =>
        Composing.isFrom_sequenceNode)) ?_
      refine .ite (hclose ((ih.flowEntries true _ hs'.skip).map fun _ =>
        Composing.isFrom_mappingNode hfull)) ?_
      refine .ite (hclose ((ih.blockItems _ hs'.skip).map fun _ =>
        Composing.isFrom_sequenceNode)) ?_
      refine .ite (hclose ((ih.blockEntries _ hs'.skip).map fun _ =>
        Composing.isFrom_mappingNode hfull)) ?_
      split
      · exact .inr (hs.tokens (by simp [htokens]))
      · exact .ite (hclose ⟨Composing.isFrom_scalarNode_nil hfull, hs'⟩) .malformed
    · exact .malformed

theorem composeUnless_succ (ih : Composers ts n) (ends : List Token) (p : Place)
    (hs : s.IsFrom ts) : Composes ts (IsFrom ts) (Node.composeUnless ends p (n + 1) s) := by
  rw [Node.composeUnless]
  exact .ite ⟨isFrom_empty, hs⟩ (ih.compose p s hs)

theorem blockItems_succ (ih : Composers ts n) (hs : s.IsFrom ts) :
    Composes ts (∀ m ∈ ·, m.IsFrom ts) (Node.blockItems (n + 1) s) := by
  rw [Node.blockItems]
  split
  · refine (ih.composeUnless _ _ _ hs.skip).bind fun r hr => ?_
    refine (ih.blockItems _ hr.2).bind fun rs hrs => ?_
    exact ⟨List.forall_mem_cons.mpr ⟨hr.1, hrs.1⟩, hrs.2⟩
  · exact ⟨by simp, hs.skip⟩
  · exact hs.unexpected

theorem indentlessItems_succ (ih : Composers ts n) (hs : s.IsFrom ts) :
    Composes ts (∀ m ∈ ·, m.IsFrom ts) (Node.indentlessItems (n + 1) s) := by
  rw [Node.indentlessItems]
  split
  · refine (ih.composeUnless _ _ _ hs.skip).bind fun r hr => ?_
    refine (ih.indentlessItems _ hr.2).bind fun rs hrs => ?_
    exact ⟨List.forall_mem_cons.mpr ⟨hr.1, hrs.1⟩, hrs.2⟩
  · next htokens => exact .inr (hs.tokens (by simp [htokens]))
  · exact ⟨by simp, hs⟩

theorem blockEntries_succ (ih : Composers ts n) (hs : s.IsFrom ts) :
    Composes ts (AreEntries ts) (Node.blockEntries (n + 1) s) := by
  rw [Node.blockEntries]
  split
  · refine (ih.composeUnless _ _ _ hs.skip).bind fun k hk => ?_
    refine (ih.blockValue _ hk.2).bind fun v hv => ?_
    refine (ih.blockEntries _ hv.2).bind fun es hes => ?_
    exact ⟨List.forall_mem_cons.mpr ⟨⟨hk.1, hv.1⟩, hes.1⟩, hes.2⟩
  · exact ⟨by simp, hs.skip⟩
  · exact hs.unexpected

theorem blockValue_succ (ih : Composers ts n) (hs : s.IsFrom ts) :
    Composes ts (IsFrom ts) (Node.blockValue (n + 1) s) := by
  rw [Node.blockValue]
  split
  · exact ih.composeUnless _ _ _ hs.skip
  · exact ⟨isFrom_empty, hs⟩

theorem flowItems_succ (ih : Composers ts n) (first : Bool) (hs : s.IsFrom ts) :
    Composes ts (∀ m ∈ ·, m.IsFrom ts) (Node.flowItems first (n + 1) s) := by
  have hnext : (if first then s else s.skip).IsFrom ts := hs.firstOrSkip first
  have hmore (r : Node × Composing) (hr : r.1.IsFrom ts ∧ r.2.IsFrom ts) :
      Composes ts (∀ m ∈ ·, m.IsFrom ts)
        ((Node.flowItems false n r.2).bind fun rs => pure (r.1 :: rs.1, rs.2)) :=
    (ih.flowItems false _ hr.2).bind fun _ hrs => ⟨List.forall_mem_cons.mpr ⟨hr.1, hrs.1⟩, hrs.2⟩
  rw [Node.flowItems]
  refine .ite ⟨by simp, hs.skip⟩ (.ite hs.unexpected (.ite ⟨by simp, hnext.skip⟩ (.ite ?_ ?_)))
  · exact (ih.flowPair _ hnext.skip).bind hmore
  · exact (ih.compose _ _ hnext).bind hmore

theorem flowPair_succ (ih : Composers ts n) (hs : s.IsFrom ts) :
    Composes ts (IsFrom ts) (Node.flowPair (n + 1) s) := by
  rw [Node.flowPair]
  refine (ih.composeUnless _ _ _ hs).bind fun k hk => ?_
  refine (ih.flowValue _ _ hk.2).bind fun v hv => ?_
  exact ⟨.mapping (.inl rfl) (by simpa using hk.1) (by simpa using hv.1), hv.2⟩

theorem flowEntries_succ (ih : Composers ts n) (first : Bool) (hs : s.IsFrom ts) :
    Composes ts (AreEntries ts) (Node.flowEntries first (n + 1) s) := by
  have hnext : (if first then s else s.skip).IsFrom ts := hs.firstOrSkip first
  rw [Node.flowEntries]
  refine .ite ⟨by simp, hs.skip⟩ (.ite hs.unexpected (.ite ⟨by simp, hnext.skip⟩ ?_))
  refine (ih.flowEntry _ hnext).bind fun e he => ?_
  refine (ih.flowEntries false _ he.2).bind fun es hes => ?_
  exact ⟨List.forall_mem_cons.mpr ⟨he.1, hes.1⟩, hes.2⟩

theorem flowEntry_succ (ih : Composers ts n) (hs : s.IsFrom ts) :
    Composes ts (fun e => e.1.IsFrom ts ∧ e.2.IsFrom ts) (Node.flowEntry (n + 1) s) := by
  rw [Node.flowEntry]
  refine .ite ?_ ?_
  · refine (ih.composeUnless _ _ _ hs.skip).bind fun k hk => ?_
    refine (ih.flowValue _ _ hk.2).bind fun v hv => ?_
    exact ⟨⟨hk.1, hv.1⟩, hv.2⟩
  · exact (ih.compose _ _ hs).bind fun k hk => ⟨⟨hk.1, isFrom_empty⟩, hk.2⟩

theorem flowValue_succ (ih : Composers ts n) (close : Token) (hs : s.IsFrom ts) :
    Composes ts (IsFrom ts) (Node.flowValue close (n + 1) s) := by
  rw [Node.flowValue]
  split
  · exact ih.composeUnless _ _ _ hs.skip
  · exact ⟨isFrom_empty, hs⟩

end Composers

/-- **What the functions that compose a tree give.** Whatever the bound, the parts of a tree are
made of the tokens, and so is the state that they leave. -/
theorem composers (ts : List Token) (n : ℕ) : Composers ts n := by
  induction n with
  | zero =>
    exact ⟨fun _ _ _ => .malformed, fun _ _ _ _ => .malformed, fun _ _ => .malformed,
      fun _ _ => .malformed, fun _ _ => .malformed, fun _ _ => .malformed, fun _ _ _ => .malformed,
      fun _ _ => .malformed, fun _ _ _ => .malformed, fun _ _ => .malformed,
      fun _ _ _ => .malformed⟩
  | succ n ih =>
    exact ⟨fun p _ => ih.compose_succ p, fun ends p _ => ih.composeUnless_succ ends p,
      fun _ => ih.blockItems_succ, fun _ => ih.indentlessItems_succ, fun _ => ih.blockEntries_succ,
      fun _ => ih.blockValue_succ, fun first _ => ih.flowItems_succ first,
      fun _ => ih.flowPair_succ, fun first _ => ih.flowEntries_succ first,
      fun _ => ih.flowEntry_succ, fun close _ => ih.flowValue_succ close⟩

/-! ### Documents -/

variable {rest : List Token} {handles : List (Text × Text)}

theorem ends_directives (hrest : rest ⊆ ts) (hhandles : ∀ p ∈ handles, IsHandle ts p.1 p.2)
    (seen : Bool) :
    Ends (TokenFault ts) (fun r => (∀ p ∈ r.1, IsHandle ts p.1 p.2) ∧ r.2 ⊆ ts)
      (directives seen handles rest) := by
  fun_induction directives seen handles rest with
  | case1 => exact .malformed
  | case2 seen handles major rest hcheck ih => exact ih (List.subset_of_cons_subset hrest) hhandles
  | case3 => exact .malformed
  | case4 seen handles name start rest hfree ih =>
    have hstart : .handle name start ∈ ts := hrest (by simp)
    exact ih (List.subset_of_cons_subset hrest)
      (List.forall_mem_cons.mpr ⟨.inr hstart, hhandles⟩)
  | case5 seen handles rest ih => exact ih (List.subset_of_cons_subset hrest) hhandles
  | case6 seen handles rest =>
    refine ⟨fun p hp => ?_, hrest⟩
    rcases List.mem_append.mp hp with hp | hp
    · exact hhandles p hp
    · exact .inl hp

theorem ends_checkEnd (hrest : rest ⊆ ts) :
    Ends (TokenFault ts) (fun _ => True) (checkEnd rest) := by
  have hback : rest.dropWhile (· = .documentEnd) ⊆ ts :=
    List.Subset.trans (List.dropWhile_suffix _).subset hrest
  rw [checkEnd]
  split
  · trivial
  · next hfault => exact .inr (hback (by simp [hfault]))
  · refine (ends_directives hback (by simp) false).bind fun r hr => ?_
    dsimp only
    split
    · next hfault => exact .inr (hr.2 (by simp [hfault]))
    · exact .malformed

theorem ends_root (hrest : rest ⊆ ts) (hhandles : ∀ p ∈ handles, IsHandle ts p.1 p.2) :
    Ends (TokenFault ts) (∀ n ∈ ·, n.IsFrom ts) (root handles rest) := by
  have hstart : Composing.IsFrom ts ⟨rest, handles, []⟩ := ⟨hrest, hhandles, by simp⟩
  refine ((composers ts _).compose _ _ hstart).bind fun r hr => ?_
  refine (ends_checkEnd hr.2.tokens).bind fun _ _ => ?_
  rintro _ ⟨⟩
  exact hr.1

theorem ends_content (hrest : rest ⊆ ts) (hhandles : ∀ p ∈ handles, IsHandle ts p.1 p.2) :
    Ends (TokenFault ts) (∀ n ∈ ·, n.IsFrom ts) (content handles rest) := by
  have hempty : Ends (TokenFault ts) (∀ n ∈ ·, n.IsFrom ts)
      ((checkEnd rest).map fun _ => some empty) :=
    (ends_checkEnd hrest).map fun _ _ => by
      rintro _ ⟨⟩
      exact isFrom_empty
  unfold content
  split
  all_goals first | exact hempty | exact ends_root hrest hhandles

/-- **The tree of a document** is made of the tokens, and where there is none, the tokens are at
fault. -/
theorem ends_ofTokens (ts : List Token) :
    Ends (TokenFault ts) (∀ n ∈ ·, n.IsFrom ts) (ofTokens ts) := by
  have hdefault : ∀ p ∈ Composing.defaultHandles, IsHandle ts p.1 p.2 := fun p hp => .inl hp
  have hnone : ∀ p ∈ ([] : List (Text × Text)), IsHandle ts p.1 p.2 := by simp
  have hdirectives := ends_directives (List.Subset.refl ts) hnone false
  unfold ofTokens
  split
  · rintro _ ⟨⟩
  all_goals first
    | exact ends_root (List.Subset.refl ts) hdefault
    | -- the directives come first, and then the content
      refine hdirectives.bind fun r hr => ?_
      dsimp only
      split
      · next hcontent => exact ends_content (List.subset_of_cons_subset (hcontent ▸ hr.2)) hr.1
      · next hfault => exact .inr (hr.2 (by simp [hfault]))
      · exact .malformed

end Node

end Pageloom.Yaml
