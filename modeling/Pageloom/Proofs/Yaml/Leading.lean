import Pageloom.Proofs.Yaml.Load
import Pageloom.Proofs.Yaml.Opening
import Pageloom.Yaml.Loader

/-!
# The data of a text that opens with a scalar

A text that begins with a quote stands for the text of the scalar that it opens with, if nothing
follows the scalar. If something does, there are three outcomes: the text does not stand for
anything; or only comments, empty lines and marks of the document's end follow, and it stands for
the scalar all the same; or the scalar is a key of a mapping, which is what the text stands for.

No other data can come of it, whatever follows the scalar. A tree that is composed of tokens that
lead to the scalar is this scalar or a block mapping. The first entry of the mapping whose key is
written at all has the scalar there, or a key that no mapping may have.

## Main definitions

* `Yaml.IsAlone`: only marks of the document's end follow the first token of a text.
* `Yaml.Leading`: the data that can come of a text that opens with a scalar.
* `Yaml.ReadsQuoted`: the loader reads a text that is one scalar between quotes as its text.
* `Node.HasKey`, `Node.IsKeyed`: entries and mappings with a text for a key.

## Main results

* `Node.gives_of_leads`: what is composed of tokens that lead to a scalar.
* `Yaml.load_of_opens_nil`: a text that is one scalar between quotes.
* `Yaml.ends_load_of_quote`: a text that begins with a quote.
-/

namespace Pageloom

/-! ### Texts as keys -/

namespace Value

variable {k x : Value} {u : Text} {es more : List (Value × Value)}

theorem eq_text_of_sameKey (h : k.sameKey (.text u)) : k = .text u := by
  cases k with
  | text t => simpa [sameKey, keyNumber?] using h
  | float x => cases hx : x.toInt? <;> simp [sameKey, keyNumber?, hx] at h
  | _ => simp [sameKey, keyNumber?] at h

/-- Setting a key takes no key away. -/
theorem exists_mem_put_of_mem (h : (k, x) ∈ es) (key value : Value) :
    ∃ y, (k, y) ∈ put key value es := by
  induction es with
  | nil => cases h
  | cons e es ih =>
    obtain ⟨l, v⟩ := e
    rw [put]
    rcases List.mem_cons.mp h with heq | h
    · cases heq
      split
      · exact ⟨value, List.mem_cons_self⟩
      · exact ⟨x, List.mem_cons_self⟩
    · split
      · exact ⟨x, List.mem_cons_of_mem _ h⟩
      · obtain ⟨y, hy⟩ := ih h
        exact ⟨y, List.mem_cons_of_mem _ hy⟩

theorem exists_mem_put_text (u : Text) (value : Value) (es : List (Value × Value)) :
    ∃ y, (.text u, y) ∈ put (.text u) value es := by
  induction es with
  | nil => exact ⟨value, List.mem_cons_self⟩
  | cons e es ih =>
    obtain ⟨l, v⟩ := e
    rw [put]
    split
    · next hsame =>
      rw [eq_text_of_sameKey hsame]
      exact ⟨value, List.mem_cons_self⟩
    · obtain ⟨y, hy⟩ := ih
      exact ⟨y, List.mem_cons_of_mem _ hy⟩

/-- A text that is set stays a key. -/
theorem exists_mem_putAll_text (h : (∃ x, (.text u, x) ∈ es) ∨ ∃ x, (.text u, x) ∈ more) :
    ∃ y, (.text u, y) ∈ putAll es more := by
  induction more generalizing es with
  | nil => simpa [putAll] using h
  | cons e more ih =>
    obtain ⟨k, v⟩ := e
    rw [putAll, List.foldl_cons]
    refine ih ?_
    rcases h with ⟨x, hx⟩ | ⟨x, hx⟩
    · exact .inl (exists_mem_put_of_mem hx k v)
    · rcases List.mem_cons.mp hx with heq | hx
      · cases heq
        exact .inl (exists_mem_put_text u v es)
      · exact .inr ⟨x, hx⟩

end Value

namespace Yaml

variable {q : Char} {t u : Text} {ts : List Token} {f : Fault}

/-- No token follows the first one but marks of the document's end. -/
def IsAlone (t : Text) : Prop :=
  ((Token.ofText t).tail.dropWhile (· = .documentEnd)).head? = some .streamEnd

/-- The data of a text that opens with the scalar `u`: the scalar, or a map with it for a key. -/
inductive Leading (t u : Text) : Value → Prop where
  | scalar (h : IsAlone t) : Leading t u (.text u)
  | mapping {es : List (Value × Value)} {x : Value} (h : (.text u, x) ∈ es) : Leading t u (.map es)

namespace Node

open Composing (unexpected nextIs skip)

variable {n : ℕ} {p : Place} {s : Composing} {es : List (Node × Node)} {k : Token} {node : Node}

/-- One of the entries has the text for its key, or a key that no mapping may have. -/
def HasKey (u : Text) (es : List (Node × Node)) : Prop :=
  ∃ e ∈ es, e.1 = .scalar .text u ∨ isKey e.1 = false

/-- The node is a mapping with such an entry. -/
def IsKeyed (u : Text) (node : Node) : Prop := ∃ es, node = .mapping .mapping es ∧ HasKey u es

theorem HasKey.cons {e : Node × Node} (h : HasKey u es) : HasKey u (e :: es) :=
  let ⟨d, hd, hkey⟩ := h
  ⟨d, List.mem_cons_of_mem e hd, hkey⟩

theorem HasKey.append {more : List (Node × Node)} (h : HasKey u es) : HasKey u (more ++ es) :=
  let ⟨e, he, hkey⟩ := h
  ⟨e, List.mem_append_right more he, hkey⟩

/-- The key of the first entry is the text, or a mapping, which is no key. -/
theorem HasKey.of_head {k v : Node} (h : k = .scalar .text u ∨ IsKeyed u k) :
    HasKey u ((k, v) :: es) := by
  refine ⟨(k, v), List.mem_cons_self, h.imp_right ?_⟩
  rintro ⟨es, rfl, -⟩
  rfl

/-! ### Composing one node -/

/-- A node has neither a label nor a tag unless it is given one. -/
theorem bind_bare (s : Composing) (f : Option Text → Composing → Except Fault (Node × Composing)) :
    (s.fullTag none >>= fun tag => Composing.openLabel none s >>= f tag) = f none s := rfl

theorem map_closeLabel_none (x : Except Fault (Node × Composing)) :
    (fun r => (r.1, Composing.closeLabel none r.1 r.2)) <$> x = x := by
  cases x <;> rfl

theorem compose_scalar (h : s.tokens = .scalar false u :: ts) :
    compose p (n + 1) s = .ok (.scalar .text u, s.skip) := by
  simp only [compose, h, Composing.properties]
  rfl

theorem compose_fault (h : s.tokens = .fault f :: ts) : compose p (n + 1) s = .error f := by
  rw [compose]
  simp [h, Composing.properties, bind_bare]

/-- The node that an opening token opens. -/
theorem compose_of_isOpening (hk : k.IsOpening) (h : s.tokens = k :: ts) :
    compose p (n + 1) s =
      if p.block && k = .blockSequenceStart then
        (blockItems n s.skip).map (Composing.sequenceNode none)
      else if p.block && k = .blockMappingStart then
        (blockEntries n s.skip).map (Composing.mappingNode none)
      else .error .malformed := by
  rw [compose]
  cases hk <;> simp [h, Composing.properties, bind_bare, map_closeLabel_none]

/-! ### Composing what leads to a scalar -/

/-- The outcome of composing: what it gives satisfies the predicate, whatever is left to compose. -/
abbrev Gives {α : Type} (Q : α → Prop) (x : Except Fault (α × Composing)) : Prop :=
  Ends (fun _ => True) (fun r => Q r.1) x

/-- Without a dash there is no item, and nothing that leads to a scalar ends the sequence. -/
theorem gives_blockItems_of_leads {Q : List Node → Prop} (h : Leads u ts) (hs : s.tokens = ts) :
    Gives Q (blockItems n s) := by
  cases n with
  | zero => trivial
  | succ n =>
    rw [blockItems]
    cases h with
    | scalar more => simp only [hs]; trivial
    | fault f more => simp only [hs]; trivial
    | opening hk h => cases hk <;> simp only [hs] <;> trivial

/-- Without the mark of a key there is no entry. -/
theorem gives_blockEntries_of_ne {Q : List (Node × Node) → Prop} (hs : s.tokens = k :: ts)
    (hkey : k ≠ .key) (hend : k ≠ .blockEnd) : Gives Q (blockEntries n s) := by
  cases n with
  | zero => trivial
  | succ n =>
    rw [blockEntries]
    dsimp only
    split
    · next htokens => exact absurd (List.cons.inj (hs.symm.trans htokens)).1 hkey
    · next htokens => exact absurd (List.cons.inj (hs.symm.trans htokens)).1 hend
    · trivial

/-- The key of an entry may be missing, if the mark of another key follows at once. -/
theorem ends_composeUnless (h : Leads u ts) (hs : s.tokens = ts) {Q : Node → Prop}
    (hcompose : ∀ n, Gives Q (compose asEntry n s)) (n : ℕ) :
    Ends (fun _ => True) (fun r => Q r.1 ∨ r.2.tokens = ts ∧ ∃ more, ts = .key :: more)
      (composeUnless [.key, .value, .blockEnd] asEntry n s) := by
  cases n with
  | zero => trivial
  | succ n =>
    rw [composeUnless]
    split
    · next hnext =>
      refine .inr ⟨hs, ?_⟩
      rw [nextIs, hs] at hnext
      cases h with
      | scalar more => simp at hnext
      | fault f more => simp at hnext
      | @opening k ts hk h =>
        cases hk with
        | key => exact ⟨ts, rfl⟩
        | mapping => simp at hnext
        | sequence => simp at hnext
    · exact (hcompose n).mono fun r hr => .inl hr

/-- The entries behind the mark of a key. If the first key is missing, the rest of the entries
begins with the mark of another one. -/
theorem gives_blockEntries_of_key (h : Leads u ts) (hs : s.tokens = .key :: ts)
    (hentries : ∀ n s, s.tokens = ts → Gives (HasKey u) (blockEntries n s))
    (hcompose : ∀ n s, s.tokens = ts →
      Gives (fun k => k = .scalar .text u ∨ IsKeyed u k) (compose asEntry n s)) (n : ℕ) :
    Gives (HasKey u) (blockEntries n s) := by
  have hskip : s.skip.tokens = ts := by rw [skip, hs, List.tail_cons]
  cases n with
  | zero => trivial
  | succ n =>
    simp only [blockEntries, hs]
    refine (ends_composeUnless h hskip (fun m => hcompose m _ hskip) n).bind fun k hk => ?_
    rcases hk with hk | ⟨hk, more, rfl⟩
    · exact (Ends.any (blockValue n k.2)).bind fun v _ =>
        (Ends.any (blockEntries n v.2)).bind fun es _ => HasKey.of_head hk
    · have hvalue : Ends (fun _ => True) (fun v => v.2.tokens = .key :: more)
          (blockValue n k.2) := by
        cases n with
        | zero => trivial
        | succ n =>
          simp only [blockValue, hk]
          exact hk
      exact hvalue.bind fun v hv => (hentries n v.2 hv).bind fun es hes => hes.cons

/-- What an opening token opens is a mapping with the key, if the entries behind it have the key. -/
theorem gives_compose_of_opening (hk : k.IsOpening) (h : Leads u ts) (hs : s.tokens = k :: ts)
    (hentries : ∀ n s, s.tokens = ts → Gives (HasKey u) (blockEntries n s)) :
    Gives (IsKeyed u) (compose p n s) := by
  have hskip : s.skip.tokens = ts := by rw [skip, hs, List.tail_cons]
  cases n with
  | zero => trivial
  | succ n =>
    rw [compose_of_isOpening hk hs]
    have hitems : Gives (fun _ => False) (blockItems n s.skip) :=
      gives_blockItems_of_leads h hskip
    refine .ite (hitems.map fun _ => False.elim) ?_
    exact .ite ((hentries n _ hskip).map fun r hr => ⟨r.1, rfl, hr⟩) trivial

/-- **What is composed of tokens that lead to a scalar.** Where entries of a mapping are read, they
have the key, and where a node is read, it is the scalar or a mapping with the key. -/
theorem gives_of_leads (h : Leads u ts) :
    (∀ n s, s.tokens = ts → Gives (HasKey u) (blockEntries n s)) ∧
      ∀ p n s, s.tokens = ts →
        Gives (fun k => k = .scalar .text u ∨ IsKeyed u k) (compose p n s) := by
  induction h with
  | scalar more =>
    refine ⟨fun n s hs => gives_blockEntries_of_ne hs (by simp) (by simp),
      fun p n s hs => ?_⟩
    cases n with
    | zero => trivial
    | succ n => exact (compose_scalar hs).symm ▸ .inl rfl
  | fault f more =>
    refine ⟨fun n s hs => gives_blockEntries_of_ne hs (by simp) (by simp),
      fun p n s hs => ?_⟩
    cases n with
    | zero => trivial
    | succ n =>
      rw [compose_fault hs]
      trivial
  | @opening k ts hk h ih =>
    refine ⟨fun n s hs => ?_, fun p n s hs =>
      (gives_compose_of_opening hk h hs ih.1).mono fun _ => .inr⟩
    cases hk with
    | key => exact gives_blockEntries_of_key h hs ih.1 (ih.2 asEntry) n
    | mapping => exact gives_blockEntries_of_ne hs (by simp) (by simp)
    | sequence => exact gives_blockEntries_of_ne hs (by simp) (by simp)

/-! ### Documents -/

/-- The end of a document is right if only marks of it come before the end of the tokens. -/
theorem head?_of_checkEnd (h : checkEnd ts = .ok ()) :
    (ts.dropWhile (· = .documentEnd)).head? = some .streamEnd := by
  unfold checkEnd at h
  split at h
  · next hrest => rw [hrest, List.head?_cons]
  · cases h
  · -- whatever directives follow, what is behind them is refused
    generalize directives false [] (ts.dropWhile (· = .documentEnd)) = r at h
    rcases r with _ | ⟨handles, rest⟩
    · cases h
    · simp only [bind, Except.bind] at h
      split at h <;> cases h

theorem ofTokens_of_leads (h : Leads u ts) : ofTokens ts = root Composing.defaultHandles ts := by
  cases h with
  | scalar more => rfl
  | fault f more => rfl
  | opening hk h => cases hk <;> rfl

theorem root_scalar (handles : List (Text × Text)) (more : List Token) :
    root handles (.scalar false u :: more) =
      (checkEnd more).map fun _ => some (.scalar .text u) := by
  rw [root, Nat.add_succ, compose_scalar rfl]
  show ((checkEnd more).bind _) = _
  cases checkEnd more <;> rfl

/-- The root of the tree is the scalar, with nothing but the end of the document behind it, or a
mapping with the key. -/
theorem ends_root_of_leads (h : Leads u ts) (handles : List (Text × Text)) :
    Ends (fun _ => True)
      (fun r => ∃ node, r = some node ∧ (node = .scalar .text u ∧
        (ts.tail.dropWhile (· = .documentEnd)).head? = some .streamEnd ∨ IsKeyed u node))
      (root handles ts) := by
  cases h with
  | scalar more =>
    rw [root_scalar]
    cases hend : checkEnd more with
    | error f => trivial
    | ok _ => exact ⟨_, rfl, .inl ⟨rfl, head?_of_checkEnd hend⟩⟩
  | fault f more =>
    rw [root, Nat.add_succ, compose_fault rfl]
    trivial
  | opening hk h =>
    rw [root]
    refine (gives_compose_of_opening hk h rfl (gives_of_leads h).1).bind fun r hr => ?_
    exact (Ends.any (checkEnd r.2.tokens)).bind fun _ _ => ⟨r.1, rfl, .inr hr⟩

/-! ### Data -/

theorem asKey_of_isKey {k : Node} (h : isKey k = false) : asKey k = k := by
  unfold asKey
  split
  · cases h
  · rfl

/-- The key stays among the entries of a mapping's own. -/
theorem HasKey.ends_flattenEntries (h : HasKey u es) :
    Ends (fun _ => True) (fun r => HasKey u r.2) (flattenEntries es) := by
  induction es with
  | nil =>
    obtain ⟨e, he, -⟩ := h
    cases he
  | cons e es ih =>
    obtain ⟨k, v⟩ := e
    have hmem : (k = .scalar .text u ∨ isKey k = false) ∨ HasKey u es := by
      obtain ⟨e, he, hkey⟩ := h
      rcases List.mem_cons.mp he with rfl | he
      · exact .inl hkey
      · exact .inr ⟨e, he, hkey⟩
    rw [flattenEntries]
    split
    · next hmerge =>
      have hes : HasKey u es := hmem.resolve_left fun hk => by
        rcases hk with rfl | hk
        · cases hmerge
        · simp [isKey, hmerge] at hk
      exact (Ends.any (takenFrom v)).bind fun _ _ => (ih hes).bind fun _ hr => hr
    · rcases hmem with hk | hes
      · refine (Ends.any (flattenEntries es)).bind fun r _ => ⟨(asKey k, v), List.mem_cons_self, ?_⟩
        rcases hk with rfl | hk
        · exact .inl rfl
        · rw [asKey_of_isKey hk]
          exact .inr hk
      · exact (ih hes).bind fun r hr => hr.cons

theorem first_eq_none {a b : Option Raised} (h : Raised.first a b = none) :
    a = none ∧ b = none := by
  cases a with
  | none => exact ⟨rfl, h⟩
  | some a =>
    cases b with
    | none => cases h
    | some b =>
      rw [Raised.first] at h
      split at h <;> cases h

/-- Entries without a fault have keys that a mapping may have, and each is there with its data. -/
theorem of_entriesWith {one : Node → Value × Option Raised} {level : ℕ}
    (h : (entriesWith one level es).2 = none) : ∀ e ∈ es, isKey e.1 ∧ (one e.1).2 = none ∧
      ((one e.1).1, (one e.2).1) ∈ (entriesWith one level es).1 := by
  induction es with
  | nil => simp
  | cons e es ih =>
    obtain ⟨k, v⟩ := e
    obtain ⟨hkv, hes⟩ := first_eq_none h
    obtain ⟨hk, -⟩ := first_eq_none hkv
    obtain ⟨hone, hkey⟩ := first_eq_none hk
    have hkey : isKey k := by
      by_contra hnot
      simp [hnot] at hkey
    refine List.forall_mem_cons.mpr ⟨⟨hkey, hone, List.mem_cons_self⟩, fun e he => ?_⟩
    obtain ⟨hkey, hone, hmem⟩ := ih hes e he
    exact ⟨hkey, hone, List.mem_cons_of_mem _ hmem⟩

theorem build_text {bound level : ℕ} (h : (build bound level (.scalar .text u)).2 = none) :
    (build bound level (.scalar .text u)).1 = .text u := by
  cases bound with
  | zero => cases h
  | succ bound => rfl

/-- The data of a mapping with the key: all keys are ones that a mapping may have, so that the text
is among them. -/
theorem ends_toValue_of_isKeyed (h : IsKeyed u node) :
    Ends (fun _ => True) (fun v => ∃ es, v = .map es ∧ ∃ x, (.text u, x) ∈ es) node.toValue := by
  obtain ⟨es, rfl, hkey⟩ := h
  rw [toValue, depth, build]
  dsimp only [tag]
  have hends : Ends (fun _ => True) (HasKey u) (flatten es) :=
    hkey.ends_flattenEntries.map fun r hr => hr.append
  cases hflat : flatten es with
  | error f => trivial
  | ok es' =>
    rw [hflat] at hends
    obtain ⟨e, he, hcase⟩ := hends
    dsimp only
    split
    · next v hv =>
      obtain ⟨hv, hr⟩ := Prod.mk.inj hv
      obtain ⟨hiskey, hone, hmem⟩ := of_entriesWith hr e he
      have htext : e.1 = .scalar .text u := hcase.resolve_right (by simp [hiskey])
      rw [htext] at hmem hone
      rw [build_text hone] at hmem
      exact ⟨_, hv.symm, Value.exists_mem_putAll_text (.inr ⟨_, hmem⟩)⟩
    · trivial

end Node

/-! ### Texts -/

/-- **A text that is one scalar between quotes** stands for the text of the scalar. -/
theorem load_of_opens_nil (hallowed : ∀ c ∈ t, isAllowed c) (h : Opens t u []) :
    load t = .ok (.text u) := by
  rw [load, Token.ofText_of_opens_nil hallowed h, Node.ofTokens_of_leads (.scalar _),
    Node.root_scalar]
  rfl

/-- A text that is one scalar between quotes has no other fault than a character that must not occur
in any text. -/
theorem load_eq_or_of_opens_nil (h : Opens t u []) :
    load t = .ok (.text u) ∨ load t = .error .malformed := by
  by_cases hallowed : t.all isAllowed
  · exact .inl (load_of_opens_nil (List.all_eq_true.mp hallowed) h)
  · rw [load, Token.ofText, if_neg hallowed]
    exact .inr rfl

/-- If the text is one scalar between quotes, the loader reads it as the text of the scalar, unless
it refuses the characters of it. -/
def ReadsQuoted [Loader] (t : Text) : Prop :=
  ∀ u, Opens t u [] → Loader.load t = .ok (.text u) ∨ Loader.load t = .error .malformed

theorem readsQuoted (t : Text) : ReadsQuoted t := fun _ => load_eq_or_of_opens_nil

/-- **A text that begins with a quote** opens with a scalar, and stands for this scalar or for a map
with the scalar for a key, if it stands for anything. -/
theorem ends_load_of_quote (hq : q = '"' ∨ q = '\'') (rest : Text) :
    Ends (fun _ => True)
      (fun v => ∃ u behind, Opens (q :: rest) u behind ∧ Leading (q :: rest) u v)
      (load (q :: rest)) := by
  rcases Token.leads_ofText hq rest with ⟨f, hf⟩ | ⟨u, behind, hopens, hleads⟩
  · rw [load, hf]
    trivial
  · rw [load, Node.ofTokens_of_leads hleads]
    refine (Node.ends_root_of_leads hleads _).bind ?_
    rintro _ ⟨node, rfl, ⟨rfl, halone⟩ | hkeyed⟩
    · exact ⟨u, behind, hopens, .scalar halone⟩
    · refine (Node.ends_toValue_of_isKeyed hkeyed).mono ?_
      rintro _ ⟨es, rfl, x, hx⟩
      exact ⟨u, behind, hopens, .mapping hx⟩

end Yaml

end Pageloom
