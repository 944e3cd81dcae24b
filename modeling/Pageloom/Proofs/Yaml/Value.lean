import Pageloom.Proofs.Value
import Pageloom.Proofs.Yaml.Node
import Pageloom.Yaml.Value

/-!
# The data of a tree, and how it fails

The data of a tree is put together from its scalars. So whatever keeps a tree from being data is
wrong with its form, or with one scalar: the text of the scalar does not fit its tag. The fault that
counts is picked from the faults of the parts, so it is one of them.

The entries of a mapping are set one after the other, so a key occurs once in what it becomes.

## Main definitions

* `ScalarFault`: the faults of trees that are made of tokens.

## Main results

* `Node.ends_flatten`: the entries of a mapping, with those that it takes over.
* `Node.ends_toValue`: the faults of a tree.
* `Node.hasDistinctKeys_of_toValue`: the keys of a mapping.
-/

namespace Pageloom.Yaml

variable {ts : List Token}

/-- The tree is malformed, or it has a scalar whose text does not fit its tag, or a mapping with the
tag of times. -/
inductive ScalarFault (ts : List Token) : Fault → Prop where
  | malformed : ScalarFault ts .malformed
  | scalar {tag : Tag} {u : Text} {f : Fault} (hu : IsScalar ts tag u)
      (h : Node.scalarValue tag u = .error f) : ScalarFault ts f
  | mapped {uri : Text} (huri : IsTag ts uri) (h : Tag.ofUri uri = .timestamp) :
      ScalarFault ts .mappedTimestamp

theorem ScalarFault.of_eq (ts : List Token) {f : Fault} (h : f = .malformed) : ScalarFault ts f :=
  h ▸ .malformed

namespace Node

variable {n : Node} {es : List (Node × Node)} {items : List Node} {P : Fault → Prop}

/-! ### The fault that counts -/

/-- The fault that counts, if there is one, satisfies a predicate. -/
def Blames (P : Fault → Prop) (r : Option Raised) : Prop := ∀ x ∈ r, P x.fault

theorem Blames.first {a b : Option Raised} (ha : Blames P a) (hb : Blames P b) :
    Blames P (Raised.first a b) := by
  cases a with
  | none => exact hb
  | some a =>
    cases b with
    | none => exact ha
    | some b =>
      rw [Raised.first]
      split
      · exact hb
      · exact ha

theorem blames_raise {level : ℕ} {f : Fault} (h : P f) : Blames P (raise level f).2 := by
  rintro _ ⟨⟩
  exact h

theorem blames_itemsWith {one : Node → Value × Option Raised}
    (h : ∀ n ∈ items, Blames P (one n).2) : Blames P (itemsWith one items).2 := by
  induction items with
  | nil => rintro _ ⟨⟩
  | cons n items ih =>
    exact (h n (by simp)).first (ih fun m hm => h m (by simp [hm]))

theorem blames_entriesWith {one : Node → Value × Option Raised} {level : ℕ} (hform : P .malformed)
    (hkeys : ∀ e ∈ es, Blames P (one e.1).2) (hvalues : ∀ e ∈ es, Blames P (one e.2).2) :
    Blames P (entriesWith one level es).2 := by
  induction es with
  | nil => rintro _ ⟨⟩
  | cons e es ih =>
    have hkey : Blames P (if isKey e.1 then none else some ⟨level, .malformed⟩) := by
      split
      · rintro _ ⟨⟩
      · rintro _ ⟨⟩
        exact hform
    exact (((hkeys e (by simp)).first hkey).first (hvalues e (by simp))).first
      (ih (fun d hd => hkeys d (by simp [hd])) fun d hd => hvalues d (by simp [hd]))

/-! ### Scalars and mappings -/

mutual

/-- The text of a tree is one that the tokens hold. -/
theorem ends_scalarText : ∀ n : Node, n.IsFrom ts → Ends (· = .malformed) (IsText ts) n.scalarText
  | .scalar _ _, .scalar h => h.isText
  | .sequence _ _, _ => rfl
  | .mapping _ es, .mapping _ _ hvalues => ends_entryText es hvalues

theorem ends_entryText : ∀ es : List (Node × Node), (∀ e ∈ es, e.2.IsFrom ts) →
    Ends (· = .malformed) (IsText ts) (entryText es)
  | [], _ => rfl
  | (k, v) :: es, h => by
    rw [entryText]
    exact .ite (ends_scalarText v (h (k, v) (by simp)))
      (ends_entryText es fun e he => h e (by simp [he]))

end

theorem IsFrom.asKey (h : n.IsFrom ts) : n.asKey.IsFrom ts := by
  unfold Node.asKey
  split
  · cases h with
    | scalar h => exact .scalar (.text h.isText)
  · exact h

mutual

/-- The entries of a mapping, and those that it takes over, are made of the tokens. -/
theorem ends_flattenEntries : ∀ es : List (Node × Node), AreEntries ts es →
    Ends (· = .malformed) (fun r => AreEntries ts r.1 ∧ AreEntries ts r.2) (flattenEntries es)
  | [], _ => ⟨by simp, by simp⟩
  | (k, v) :: es, h => by
    have hes := ends_flattenEntries es fun e he => h e (by simp [he])
    have hkv := h (k, v) (by simp)
    rw [flattenEntries]
    refine .ite ?_ ?_
    · refine (ends_takenFrom v hkv.2).bind fun taken htaken => ?_
      refine hes.bind fun r hr => ?_
      exact ⟨List.forall_mem_append.mpr ⟨htaken, hr.1⟩, hr.2⟩
    · refine hes.bind fun r hr => ?_
      exact ⟨hr.1, List.forall_mem_cons.mpr ⟨⟨hkv.1.asKey, hkv.2⟩, hr.2⟩⟩

theorem ends_takenFrom : ∀ n : Node, n.IsFrom ts →
    Ends (· = .malformed) (AreEntries ts) (takenFrom n)
  | .scalar _ _, _ => rfl
  | .sequence _ items, .sequence h => ends_takenFromAll items h
  | .mapping _ es, .mapping _ hkeys hvalues =>
    (ends_flattenEntries es fun e he => ⟨hkeys e he, hvalues e he⟩).map fun _ hr =>
      List.forall_mem_append.mpr hr

theorem ends_takenFromAll : ∀ items : List Node, (∀ n ∈ items, n.IsFrom ts) →
    Ends (· = .malformed) (AreEntries ts) (takenFromAll items)
  | [], _ => by simp [takenFromAll, Ends]
  | .scalar _ _ :: _, _ => rfl
  | .sequence _ _ :: _, _ => rfl
  | .mapping tag es :: items, h => by
    have hes : AreEntries ts es := by
      cases h (.mapping tag es) (by simp) with
      | mapping _ hkeys hvalues => exact fun e he => ⟨hkeys e he, hvalues e he⟩
    rw [takenFromAll]
    refine (ends_flattenEntries es hes).bind fun r hr => ?_
    refine (ends_takenFromAll items fun n hn => h n (by simp [hn])).bind fun more hmore => ?_
    exact List.forall_mem_append.mpr ⟨hmore, List.forall_mem_append.mpr hr⟩

end

theorem ends_flatten (h : AreEntries ts es) :
    Ends (· = .malformed) (AreEntries ts) (flatten es) :=
  (ends_flattenEntries es h).map fun _ hr => List.forall_mem_append.mpr hr

/-! ### Trees -/

/-- A tree with a tag of its own. -/
theorem ends_taggedValue (h : n.IsFrom ts) (hmapping : n.tag ≠ .mapping) :
    Ends (ScalarFault ts) (fun _ => True) n.taggedValue := by
  have hvalue (tag : Tag) (u : Text) (hu : IsScalar ts tag u) :
      Ends (ScalarFault ts) (fun _ => True) (scalarValue tag u) := by
    cases hv : scalarValue tag u with
    | ok v => trivial
    | error f => exact .scalar hu hv
  have htext := (ends_scalarText n h).monoFault fun _ => ScalarFault.of_eq ts
  cases h with
  | scalar h => exact hvalue _ _ h
  | sequence h => exact .malformed
  | mapping htag hkeys hvalues =>
    obtain ⟨uri, huri, hmark, rfl⟩ := htag.resolve_left hmapping
    refine htext.bind fun u hu => ?_
    have htagged := IsScalar.tagged huri hu
    rw [Composing.tagOr, if_neg hmark] at htagged
    split
    · next htime => exact .mapped huri (congrArg Node.tag htime)
    · exact hvalue _ u htagged

theorem blames_build (h : n.IsFrom ts) (bound level : ℕ) :
    Blames (ScalarFault ts) (build bound level n).2 := by
  induction bound generalizing n level with
  | zero => exact blames_raise .malformed
  | succ bound ih =>
    unfold build
    split
    · split
      · cases h with
        | sequence h => exact blames_itemsWith fun n hn => ih (h n hn) _
      · exact blames_raise .malformed
    · split
      · cases h with
        | mapping htag hkeys hvalues =>
          have hflat := ends_flatten fun e he => ⟨hkeys e he, hvalues e he⟩
          split
          · next hf =>
            rw [hf] at hflat
            exact blames_raise (.of_eq ts hflat)
          · next hes =>
            rw [hes] at hflat
            exact blames_entriesWith .malformed (fun e he => ih (hflat e he).1 _)
              fun e he => ih (hflat e he).2 _
      · exact blames_raise .malformed
    · next hsequence hmapping =>
      have hends := ends_taggedValue h hmapping
      split
      · next hf =>
        rw [hf] at hends
        exact blames_raise hends
      · rintro _ ⟨⟩

/-- **How a tree fails to be data.** -/
theorem ends_toValue (h : n.IsFrom ts) : Ends (ScalarFault ts) (fun _ => True) n.toValue := by
  have hbuild := blames_build h (n.depth + 1) 0
  rw [toValue]
  split
  · trivial
  · next r hr => exact hbuild r (by rw [hr]; rfl)

/-! ### Keys -/

variable {entries : List (Value × Value)}

/-- A scalar is no mapping. -/
theorem scalarValue_ne_map (tag : Tag) (u : Text) (entries : List (Value × Value)) :
    Ends (fun _ => True) (fun v => v ≠ .map entries) (scalarValue tag u) := by
  cases tag with
  | bool =>
    rw [scalarValue]
    split
    · nofun
    · trivial
  | int => exact (Ends.any _).map nofun
  | float => exact (Ends.any _).map nofun
  | binary =>
    show Ends _ _ (bytes u)
    rw [bytes]
    refine .ite ?_ trivial
    split
    · nofun
    · trivial
  | timestamp =>
    show Ends _ _ (timestamp u)
    rw [timestamp]
    split
    · trivial
    · split
      · exact (Ends.any _).map nofun
      · exact (Ends.any _).map nofun
  | null | text => nofun
  | _ => trivial

theorem taggedValue_ne_map (n : Node) (entries : List (Value × Value)) :
    Ends (fun _ => True) (fun v => v ≠ .map entries) n.taggedValue := by
  refine (Ends.any _).bind fun u _ => ?_
  split
  · trivial
  · exact scalarValue_ne_map _ u entries

theorem hasDistinctKeys_of_build {bound level : ℕ} (h : (build bound level n).1 = .map entries) :
    Value.HasDistinctKeys entries := by
  cases bound with
  | zero => cases h
  | succ bound =>
    unfold build at h
    split at h
    · split at h <;> cases h
    · split at h
      · split at h
        · cases h
        · obtain rfl := Value.map.inj h
          exact Value.HasDistinctKeys.nil.putAll _
      · cases h
    · split at h
      · cases h
      · next v hv =>
        have hne := taggedValue_ne_map n entries
        rw [hv] at hne
        exact absurd h hne

/-- **A key occurs once** in the data of a mapping. -/
theorem hasDistinctKeys_of_toValue (h : n.toValue = .ok (.map entries)) :
    Value.HasDistinctKeys entries := by
  rw [toValue] at h
  split at h
  · next hbuild =>
    cases h
    exact hasDistinctKeys_of_build (congrArg Prod.fst hbuild)
  · cases h

end Node

end Pageloom.Yaml
