import Mathlib.Data.List.Induction
import Pageloom.Value

/-!
# Entries of a map

What comes of setting the entries of one map on top of another. A key that was there keeps its
place, and its value is overridden; the others follow in their own order. This is so for a map
whose keys are texts, as the names of settings are, and for any map on top of it in which no key
occurs twice. Setting entries one after the other gives such a map.

## Main definitions

* `Value.HasDistinctKeys`: no key occurs twice.
* `Value.HasNames`: the keys are texts, and none occurs twice.
* `Value.overridden`: the entries of a map with their values in another one.

## Main results

* `Value.HasDistinctKeys.putAll`: entries set one after the other.
* `Value.get?_putAll_text`: the value of a text in a map on top of another.
* `Value.putAll_eq`: a map on top of one whose keys are texts.
-/

namespace Pageloom.Value

variable {k key v : Value} {base more es : List (Value × Value)} {s : Text}

/-! ### Keys -/

/-- The keys of entries, in order. -/
def keys (es : List (Value × Value)) : List Value := es.map Prod.fst

/-- No key occurs twice. -/
def HasDistinctKeys (es : List (Value × Value)) : Prop :=
  (keys es).Pairwise fun a b => ¬ sameKey a b

/-- A text is the same key as itself only. -/
theorem sameKey_text_right : sameKey v (.text s) ↔ v = .text s := by
  cases v with
  | float x => cases h : x.toInt? <;> simp [sameKey, keyNumber?, h]
  | _ => simp [sameKey, keyNumber?]

theorem sameKey_text_left : sameKey (.text s) v ↔ v = .text s := by
  cases v with
  | float x => cases h : x.toInt? <;> simp [sameKey, keyNumber?, h]
  | _ => simp [sameKey, keyNumber?, eq_comm]

/-- A key that is there keeps its place, and so do the others. -/
theorem keys_put_of_mem (h : ∃ k ∈ keys es, sameKey k key) (value : Value) :
    keys (put key value es) = keys es := by
  induction es with
  | nil => simp [keys] at h
  | cons e es ih =>
    rw [put]
    split
    · rfl
    · next hk =>
      obtain ⟨k, hmem, hsame⟩ := h
      rcases List.mem_cons.mp hmem with rfl | hmem
      · exact absurd hsame hk
      · exact congrArg (e.1 :: ·) (ih ⟨k, hmem, hsame⟩)

/-- A new key goes behind the entries that are there. -/
theorem put_append_of_new (h : ∀ k ∈ keys es, ¬ sameKey k key) (value : Value)
    (fs : List (Value × Value)) : put key value (es ++ fs) = es ++ put key value fs := by
  induction es with
  | nil => rfl
  | cons e es ih =>
    obtain ⟨he, hes⟩ := List.forall_mem_cons.mp h
    rw [List.cons_append, put, if_neg he, ih hes, List.cons_append]

theorem put_of_new (h : ∀ k ∈ keys es, ¬ sameKey k key) (value : Value) :
    put key value es = es ++ [(key, value)] := by
  have hput := put_append_of_new h value []
  rwa [List.append_nil] at hput

theorem HasDistinctKeys.nil : HasDistinctKeys [] := List.Pairwise.nil

theorem hasDistinctKeys_concat {e : Value × Value} : HasDistinctKeys (es ++ [e]) ↔
    HasDistinctKeys es ∧ ∀ k ∈ keys es, ¬ sameKey k e.1 := by
  simp [HasDistinctKeys, keys, List.pairwise_append]

theorem HasDistinctKeys.put (h : HasDistinctKeys es) (key value : Value) :
    HasDistinctKeys (put key value es) := by
  by_cases hkey : ∃ k ∈ keys es, sameKey k key
  · rwa [HasDistinctKeys, keys_put_of_mem hkey]
  · have hnew : ∀ k ∈ keys es, ¬ sameKey k key := fun k hk hsame => hkey ⟨k, hk, hsame⟩
    rw [put_of_new hnew]
    exact hasDistinctKeys_concat.mpr ⟨h, hnew⟩

/-- Entries that are set one after the other have distinct keys. -/
theorem HasDistinctKeys.putAll (h : HasDistinctKeys es) (more : List (Value × Value)) :
    HasDistinctKeys (putAll es more) := by
  induction more generalizing es with
  | nil => exact h
  | cons e more ih => exact ih (h.put e.1 e.2)

/-! ### Values -/

theorem get?_eq_none_iff : get? k es = none ↔ ∀ key ∈ keys es, ¬ sameKey key k := by
  simp [get?, keys, List.find?_eq_none]

theorem get?_cons (k : Value) (e : Value × Value) (es : List (Value × Value)) :
    get? k (e :: es) = if sameKey e.1 k then some e.2 else get? k es := by
  rw [get?, List.find?_cons]
  by_cases hk : sameKey e.1 k <;> simp [hk, get?]

theorem get?_concat (k : Value) (es : List (Value × Value)) (e : Value × Value) :
    get? k (es ++ [e]) = (get? k es).or (if sameKey e.1 k then some e.2 else none) := by
  induction es with
  | nil => exact get?_cons k e []
  | cons e es ih =>
    rw [List.cons_append, get?_cons, get?_cons, ih]
    by_cases hk : sameKey e.1 k <;> simp [hk]

/-- A text has the value that was set, and another text keeps its value. -/
theorem get?_put_text (s : Text) (key value : Value) (es : List (Value × Value)) :
    get? (.text s) (put key value es) =
      if sameKey key (.text s) then some value else get? (.text s) es := by
  induction es with
  | nil => exact get?_cons _ _ []
  | cons e es ih =>
    rw [put]
    by_cases hk : sameKey e.1 key
    · -- the place is that of a text exactly if the key that is set is this text
      have hplace : sameKey e.1 (.text s) ↔ sameKey key (.text s) := by
        rw [sameKey_text_right, sameKey_text_right]
        constructor <;> intro h <;> rw [h] at hk
        · exact sameKey_text_left.mp hk
        · exact sameKey_text_right.mp hk
      rw [if_pos hk, get?_cons, get?_cons]
      simp only [hplace]
      split <;> rfl
    · rw [if_neg hk, get?_cons, get?_cons, ih]
      split
      · next hs =>
        rw [sameKey_text_right.mp hs] at hk
        rw [if_neg fun hkey => hk (sameKey_text_left.mpr (sameKey_text_right.mp hkey))]
      · rfl

theorem putAll_concat (es more : List (Value × Value)) (e : Value × Value) :
    putAll es (more ++ [e]) = put e.1 e.2 (putAll es more) := by
  simp [putAll]

/-- The value of a text is that in the map on top, if it has one there. -/
theorem get?_putAll_text (h : HasDistinctKeys more) (s : Text) (base : List (Value × Value)) :
    get? (.text s) (putAll base more) = (get? (.text s) more).or (get? (.text s) base) := by
  induction more using List.reverseRecOn with
  | nil => rfl
  | append_singleton more e ih =>
    obtain ⟨hmore, hnew⟩ := hasDistinctKeys_concat.mp h
    rw [putAll_concat, get?_put_text, ih hmore, get?_concat]
    split
    · next he =>
      rw [sameKey_text_right.mp he] at hnew
      rw [get?_eq_none_iff.mpr hnew]
      rfl
    · rw [Option.or_none]

/-! ### One map on top of another -/

/-- The keys are texts, and none occurs twice. -/
def HasNames (es : List (Value × Value)) : Prop :=
  (∀ k ∈ keys es, ∃ s, k = .text s) ∧ (keys es).Nodup

/-- The entries of a map, each with its value in another map if it has one there. -/
def overridden (base more : List (Value × Value)) : List (Value × Value) :=
  base.map fun e => (e.1, (get? e.1 more).getD e.2)

/-- A key that no entry has overrides none of them. -/
theorem overridden_concat_of_new {e : Value × Value} (h : ∀ k ∈ keys base, ¬ sameKey e.1 k) :
    overridden base (more ++ [e]) = overridden base more := by
  refine List.map_congr_left fun b hb => ?_
  rw [get?_concat, if_neg (h b.1 (List.mem_map_of_mem hb)), Option.or_none]

/-- One more entry on top of a map. -/
theorem put_overridden (hbase : HasNames base) (hnew : ∀ k ∈ keys more, ¬ sameKey k key)
    (value : Value) (rest : List (Value × Value)) :
    put key value (overridden base more ++ rest) =
      overridden base (more ++ [(key, value)]) ++
        if (get? key base).isNone then put key value rest else rest := by
  induction base with
  | nil => rfl
  | cons e base ih =>
    obtain ⟨htexts, hnodup⟩ := hbase
    obtain ⟨⟨s, he⟩, htexts⟩ := List.forall_mem_cons.mp htexts
    obtain ⟨hfirst, hnodup⟩ := List.nodup_cons.mp hnodup
    have hcut (m : List (Value × Value)) :
        overridden (e :: base) m = (e.1, (get? e.1 m).getD e.2) :: overridden base m := rfl
    rw [hcut, hcut, List.cons_append, put, get?_cons, get?_concat, he]
    by_cases hkey : key = .text s
    · -- the entry has the key, so no other one has
      subst hkey
      have hsame : sameKey (.text s) (.text s) := sameKey_text_right.mpr rfl
      have hothers : ∀ k ∈ keys base, ¬ sameKey (.text s) k := fun k hk hk' =>
        hfirst (he ▸ sameKey_text_left.mp hk' ▸ hk)
      rw [overridden_concat_of_new hothers, get?_eq_none_iff.mpr hnew, if_pos hsame, if_pos hsame,
        if_pos hsame]
      rfl
    · have hleft : ¬ sameKey (.text s) key := sameKey_text_left.not.mpr hkey
      rw [if_neg hleft, if_neg hleft, if_neg (sameKey_text_right.not.mpr hkey), Option.or_none,
        ih ⟨htexts, hnodup⟩, List.cons_append]

/-- **A map on top of another.** -/
theorem putAll_eq (hbase : HasNames base) (hmore : HasDistinctKeys more) :
    putAll base more = overridden base more ++ more.filter fun e => (get? e.1 base).isNone := by
  induction more using List.reverseRecOn with
  | nil => simp [putAll, overridden, get?]
  | append_singleton more e ih =>
    obtain ⟨hmore, hnew⟩ := hasDistinctKeys_concat.mp hmore
    rw [putAll_concat, ih hmore, put_overridden hbase hnew, List.filter_append]
    congr 1
    have hlast : ∀ k ∈ keys (more.filter fun e => (get? e.1 base).isNone), ¬ sameKey k e.1 :=
      fun k hk => hnew k ((List.filter_sublist.map _).subset hk)
    rw [put_of_new hlast, List.filter_cons]
    split <;> simp

end Pageloom.Value
