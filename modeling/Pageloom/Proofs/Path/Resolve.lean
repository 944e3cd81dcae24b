import Pageloom.Proofs.Disk.Trail
import Pageloom.Proofs.Path.Parts

/-!
# Resolving dots

A path is resolved by its text alone: `..` takes back the component before it. At the start of a
relative path there is nothing to take back, and `..` stays; the root of the disk is its own parent.

Resolving does not change where a path leads. So one path lies inside another one as soon as its
resolved components begin with those of the other and go on with names.

## Main definitions

* `Path.resolve`: the components of a path without the dots that can be resolved.
* `Path.IsInside`: a path lies strictly inside another one.
* `Path.IsRoot`: a path is the root of the disk.

## Main results

* `Path.isInside_below_names`, `Path.isInside_below_names_up`, `Path.isInside_below_up_iff`: which
  paths that begin with a path lie inside it.
* `Path.follow_resolve`, `Path.IsInside.spot_eq`: the place that a path leads to is that of its
  resolved components, and lies below that of a path it is inside of.
-/

namespace Pageloom.Path

variable {p : Path} {names : List Text}

/-- One more component, resolved against those before it. -/
def resolveStep (absolute : Bool) (resolved : List Text) (part : Text) : List Text :=
  if part = "..".toList then
    match resolved.getLast? with
    | none => if absolute then [] else [part]
    | some last => if last = "..".toList then resolved ++ [part] else resolved.dropLast
  else resolved ++ [part]

/-- The components of a path when each `..` has taken back the component before it. -/
def resolve (p : Path) : List Text := p.components.foldl (resolveStep (p.slashes ≠ 0)) []

/-- The path lies strictly inside another one: resolved, it is the other one with names behind. -/
def IsInside (p base : Path) : Prop :=
  p.slashes = base.slashes ∧
    ∃ rest, rest ≠ [] ∧ "..".toList ∉ rest ∧ p.resolve = base.resolve ++ rest

/-- The path is the root of the disk. -/
def IsRoot (p : Path) : Prop := p.slashes ≠ 0 ∧ p.resolve = []

/-! ### Steps -/

theorem resolveStep_of_ne {absolute : Bool} {resolved : List Text} {part : Text}
    (h : part ≠ "..".toList) : resolveStep absolute resolved part = resolved ++ [part] := if_neg h

theorem resolveStep_up_nil (absolute : Bool) :
    resolveStep absolute [] "..".toList = if absolute then [] else ["..".toList] := rfl

theorem resolveStep_up_concat (absolute : Bool) (first : List Text) (last : Text) :
    resolveStep absolute (first ++ [last]) "..".toList =
      if last = "..".toList then first ++ [last] ++ ["..".toList] else first := by
  rw [resolveStep, if_pos rfl, List.getLast?_concat]
  by_cases hlast : last = "..".toList
  · simp only [if_pos hlast]
  · simp only [if_neg hlast, List.dropLast_concat]

theorem foldl_resolveStep_names {absolute : Bool} {resolved : List Text}
    (h : "..".toList ∉ names) :
    names.foldl (resolveStep absolute) resolved = resolved ++ names := by
  induction names generalizing resolved with
  | nil => exact (List.append_nil resolved).symm
  | cons part rest ih =>
    obtain ⟨hpart, hrest⟩ := not_or.mp (List.mem_cons.not.mp h)
    rw [List.foldl_cons, ih hrest, resolveStep_of_ne (Ne.symm hpart), List.append_assoc]
    rfl

/-! ### Paths below -/

theorem resolve_below (p : Path) (rest : List Text) :
    (p.below rest).resolve = rest.foldl (resolveStep (p.slashes ≠ 0)) p.resolve := List.foldl_append

theorem resolve_below_names (p : Path) (h : "..".toList ∉ names) :
    (p.below names).resolve = p.resolve ++ names := by
  rw [resolve_below, foldl_resolveStep_names h]

/-- A path with names behind it lies inside the path. -/
theorem isInside_below_names (p : Path) (h : "..".toList ∉ names) (hne : names ≠ []) :
    (p.below names).IsInside p :=
  ⟨rfl, names, hne, h, resolve_below_names p h⟩

/-- So it does when `..` takes back one of the names, if there is another name behind. -/
theorem isInside_below_names_up (p : Path) {name up : Text} (hup : "..".toList ∉ names ++ [name])
    (hname : up ≠ "..".toList) : (p.below (names ++ [name, "..".toList, up])).IsInside p := by
  obtain ⟨hnames, hlast⟩ := not_or.mp (List.mem_append.not.mp hup)
  have hne : name ≠ "..".toList := fun h => hlast (h ▸ List.mem_singleton_self _)
  refine ⟨rfl, names ++ [up], by simp, ?_, ?_⟩
  · exact fun hmem => (List.mem_append.mp hmem).elim hnames fun h =>
      hname (List.mem_singleton.mp h).symm
  · rw [resolve_below, List.foldl_append, foldl_resolveStep_names hnames, List.foldl_cons,
      resolveStep_of_ne hne, List.foldl_cons, resolveStep_up_concat, if_neg hne, List.foldl_cons,
      resolveStep_of_ne hname, List.append_assoc]
    rfl

/-- What is beside a path is inside it for the root only, which is beside itself. -/
theorem isInside_below_up_iff (p : Path) {name : Text} (hname : name ≠ "..".toList) :
    (p.below ["..".toList, name]).IsInside p ↔ p.IsRoot := by
  have hresolve : (p.below ["..".toList, name]).resolve =
      resolveStep (p.slashes ≠ 0) p.resolve "..".toList ++ [name] := by
    rw [resolve_below, List.foldl_cons, List.foldl_cons, resolveStep_of_ne hname]
    rfl
  rw [IsInside, IsRoot, hresolve]
  rcases List.eq_nil_or_concat p.resolve with hnil | ⟨first, last, hconcat⟩
  · rw [hnil, resolveStep_up_nil]
    by_cases habsolute : p.slashes = 0
    · simp [habsolute, below]
    · simpa [habsolute, below] using Ne.symm hname
  · rw [hconcat, List.concat_eq_append, resolveStep_up_concat]
    by_cases hlast : last = "..".toList
    · rw [if_pos hlast]
      simp [List.append_assoc, below]
    · rw [if_neg hlast]
      simp [List.append_assoc, below]

/-! ### The place of a resolved path -/

theorem follow_resolveStep {absolute : Bool} {place : Place} (habsolute : absolute → place = [])
    (resolved : List Text) (part : Text) :
    Place.follow place (resolveStep absolute resolved part) =
      Place.step (Place.follow place resolved) part := by
  by_cases hup : part = "..".toList
  · subst hup
    rcases List.eq_nil_or_concat resolved with rfl | ⟨first, last, rfl⟩
    · rw [resolveStep_up_nil]
      split
      · rw [habsolute ‹_›]
        rfl
      · rfl
    · rw [List.concat_eq_append, resolveStep_up_concat]
      split
      · rw [Place.follow_append, Place.follow_singleton]
      · rename_i hlast
        rw [Place.follow_append, Place.follow_singleton, Place.step_of_ne hlast, Place.step,
          if_pos rfl, List.dropLast_concat]
  · rw [resolveStep_of_ne hup, Place.follow_append, Place.follow_singleton]

/-- Resolving a path does not change where it leads. -/
theorem follow_resolve (d : Disk) (p : Path) :
    Place.follow (d.start p.slashes) p.resolve = d.spot p := by
  have habsolute : decide (p.slashes ≠ 0) → d.start p.slashes = [] := fun h =>
    if_neg (of_decide_eq_true h)
  suffices h : ∀ parts resolved, Place.follow (d.start p.slashes)
      (parts.foldl (resolveStep (p.slashes ≠ 0)) resolved) =
        Place.follow (Place.follow (d.start p.slashes) resolved) parts from h p.components []
  intro parts
  induction parts with
  | nil => exact fun resolved => rfl
  | cons part rest ih =>
    intro resolved
    rw [List.foldl_cons, ih, follow_resolveStep habsolute]
    rfl

/-- A path inside another one leads to a place below, on every disk. -/
theorem IsInside.spot_eq {base : Path} (h : p.IsInside base) (d : Disk) :
    ∃ rest, rest ≠ [] ∧ d.spot p = d.spot base ++ rest := by
  obtain ⟨hslashes, rest, hne, hnames, hresolve⟩ := h
  refine ⟨rest, hne, ?_⟩
  rw [← follow_resolve, ← follow_resolve, hresolve, hslashes, Place.follow_append,
    Place.follow_of_names hnames]

end Pageloom.Path
