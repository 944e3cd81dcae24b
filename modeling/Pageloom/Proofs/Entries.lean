import Mathlib.Data.List.Induction
import Pageloom.Entries

/-!
# Entries set one after the other

The list that comes of setting names to texts in a given order. Its names are those that were set,
each at the place of its first occurrence, and the text of a name is the one that was set last.

## Main definitions

* `Entries.putAll`: entries with some pairs set, one after the other; `Entries.ofPairs`: from none.

## Main results

* `Entries.names_ofPairs`, `Entries.get?_ofPairs`: the names in order, and the text of each.
* `Entries.ofPairs_of_nodup`: pairs with names of their own are entries as they are.
-/

namespace Pageloom.Entries

/-- The entries with all of some pairs set, in their order. -/
def putAll (es : Entries) (pairs : List (Text × Text)) : Entries :=
  pairs.foldl (fun es p => es.put p.1 p.2) es

/-- What comes of setting some pairs, in their order. -/
def ofPairs (pairs : List (Text × Text)) : Entries := putAll [] pairs

theorem ofPairs_concat (pairs : List (Text × Text)) (p : Text × Text) :
    ofPairs (pairs ++ [p]) = (ofPairs pairs).put p.1 p.2 := by
  simp [ofPairs, putAll]

theorem get?_cons (n m v : Text) (es : Entries) :
    Entries.get? n ((m, v) :: es) = if n = m then some v else es.get? n := by
  rw [get?, List.lookup_cons, get?]
  by_cases hn : n = m
  · simp [hn]
  · simp [hn, beq_eq_false_iff_ne.mpr hn]

theorem names_put (name value : Text) (es : Entries) :
    (es.put name value).names = if name ∈ es.names then es.names else es.names ++ [name] := by
  induction es with
  | nil => rfl
  | cons e es ih =>
    obtain ⟨n, v⟩ := e
    by_cases hn : n = name
    · simp [put, names, hn]
    · simp only [names, List.map_cons, List.mem_cons, put, hn, if_false, Ne.symm hn,
        false_or] at ih ⊢
      by_cases hmem : name ∈ es.map Prod.fst <;> simp [ih, hmem]

theorem get?_put (name value : Text) (es : Entries) (n : Text) :
    (es.put name value).get? n = if n = name then some value else es.get? n := by
  induction es with
  | nil => simp [put, get?_cons]
  | cons e es ih =>
    obtain ⟨m, v⟩ := e
    by_cases hm : m = name
    · subst hm
      by_cases hn : n = m <;> simp [put, get?_cons, hn]
    · by_cases hn : n = m
      · subst hn
        simp [put, get?_cons, hm]
      · simp [put, get?_cons, hm, hn, ih]

/-- A name stands where it was set first. -/
theorem names_ofPairs (pairs : List (Text × Text)) :
    (ofPairs pairs).names = (pairs.map Prod.fst).eraseDups := by
  induction pairs using List.reverseRecOn with
  | nil => rfl
  | append_singleton pairs p ih =>
    rw [ofPairs_concat, names_put, ih, List.map_append, List.eraseDups_append]
    by_cases hp : p.1 ∈ pairs.map Prod.fst
    · rw [if_pos (List.mem_eraseDups.mpr hp)]
      have hnone : [p.1].removeAll (pairs.map Prod.fst) = [] := by simpa [List.removeAll] using hp
      rw [List.map_singleton, hnone]
      simp
    · rw [if_neg fun h => hp (List.mem_eraseDups.mp h)]
      have hone : [p.1].removeAll (pairs.map Prod.fst) = [p.1] := by simpa [List.removeAll] using hp
      rw [List.map_singleton, hone]
      rfl

/-- A name has the text that was set last. -/
theorem get?_ofPairs (pairs : List (Text × Text)) (name : Text) :
    (ofPairs pairs).get? name = pairs.reverse.lookup name := by
  induction pairs using List.reverseRecOn with
  | nil => rfl
  | append_singleton pairs p ih =>
    rw [ofPairs_concat, get?_put, ih, List.reverse_append]
    exact (get?_cons name p.1 p.2 pairs.reverse).symm

theorem put_of_notMem {name : Text} {es : Entries} (h : name ∉ es.names) (value : Text) :
    es.put name value = es ++ [(name, value)] := by
  induction es with
  | nil => rfl
  | cons e es ih =>
    have hne : e.1 ≠ name := fun he => h (he ▸ List.mem_cons_self)
    have hrest : name ∉ names es := fun hmem => h (List.mem_cons_of_mem _ hmem)
    rw [put, if_neg hne, ih hrest, List.cons_append]

/-- Pairs with names of their own are entries as they are. -/
theorem ofPairs_of_nodup {pairs : List (Text × Text)} (h : (names pairs).Nodup) :
    ofPairs pairs = pairs := by
  induction pairs using List.reverseRecOn with
  | nil => rfl
  | append_singleton pairs p ih =>
    rw [names, List.map_append] at h
    obtain ⟨hpairs, -, hnew⟩ := List.nodup_append.mp h
    have hp : p.1 ∉ names pairs := fun hmem => hnew p.1 hmem p.1 List.mem_cons_self rfl
    rw [ofPairs_concat, ih hpairs, put_of_notMem hp]

end Pageloom.Entries
