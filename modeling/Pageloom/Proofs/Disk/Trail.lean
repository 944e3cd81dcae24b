import Mathlib.Data.List.Infix
import Pageloom.Disk
import Pageloom.Proofs.Text.Parts

/-!
# The places that a path passes

Where a path leads is told by its components alone: each goes one name down, and `..` goes one up.
The disk only decides whether the path can be followed. It can if there is a directory at every
place that is passed on the way; the place at the end may be free.

So what is proved about directories and files is said with the *trail* of a path, the places it
passes with both ends. A path that holds no `..` passes the initial parts of its end, but no lemma
here depends on that.

## Main definitions

* `Place.follow`, `Place.trail`: the end of the way, and all places on it.
* `Disk.IsUsable`, `Disk.IsUsablePath`: a component that a disk can hold, and a path that it can
  follow.
* `Disk.spot`, `Disk.trail`: the end of a path and its trail, from where the path begins.

## Main results

* `Disk.locate_concat_of_directories`: a path whose trail is made of directories can be followed one
  component further.
* `Disk.trail_cases`: otherwise, what stands in the way.
-/

namespace Pageloom

namespace Place

variable {place q : Place} {part : Text} {parts xs ys : List Text}

/-- One component further. -/
def step (place : Place) (part : Text) : Place :=
  if part = "..".toList then place.dropLast else place ++ [part]

/-- Where components lead from a place, whatever is on the way. -/
def follow (place : Place) (parts : List Text) : Place := parts.foldl step place

/-- The places that are passed, with the first and the last. -/
def trail (place : Place) : List Text → List Place
  | [] => [place]
  | part :: rest => place :: trail (step place part) rest

theorem follow_append (place : Place) (xs ys : List Text) :
    follow place (xs ++ ys) = follow (follow place xs) ys := List.foldl_append

@[simp] theorem follow_singleton (place : Place) (part : Text) :
    follow place [part] = step place part := rfl

theorem trail_concat (place : Place) (xs : List Text) (part : Text) :
    trail place (xs ++ [part]) = trail place xs ++ [step (follow place xs) part] := by
  induction xs generalizing place with
  | nil => rfl
  | cons x xs ih => simp only [List.cons_append, trail, ih]; rfl

theorem self_mem_trail (place : Place) (parts : List Text) : place ∈ trail place parts := by
  cases parts <;> simp [trail]

theorem follow_mem_trail (place : Place) (parts : List Text) :
    follow place parts ∈ trail place parts := by
  induction parts generalizing place with
  | nil => exact List.mem_singleton_self place
  | cons part rest ih => exact List.mem_cons_of_mem place (ih (step place part))

theorem mem_trail_append :
    q ∈ trail place (xs ++ ys) ↔ q ∈ trail place xs ∨ q ∈ trail (follow place xs) ys := by
  induction xs generalizing place with
  | nil =>
    refine ⟨Or.inr, ?_⟩
    rintro (h | h)
    · rw [List.mem_singleton.mp h]
      exact self_mem_trail place ys
    · exact h
  | cons x xs ih =>
    simp only [List.cons_append, trail, List.mem_cons, ih, or_assoc]
    rfl

/-! ### Without dots -/

theorem step_of_ne (h : part ≠ "..".toList) : step place part = place ++ [part] := if_neg h

theorem follow_of_names (h : "..".toList ∉ parts) : follow place parts = place ++ parts := by
  induction parts generalizing place with
  | nil => exact (List.append_nil place).symm
  | cons part rest ih =>
    obtain ⟨hpart, hrest⟩ := not_or.mp (List.mem_cons.not.mp h)
    rw [follow, List.foldl_cons, ← follow, step_of_ne (Ne.symm hpart), ih hrest]
    simp

theorem mem_trail_of_names (h : "..".toList ∉ parts) :
    q ∈ trail place parts ↔ ∃ r, r <+: parts ∧ q = place ++ r := by
  induction parts generalizing place with
  | nil => simp [trail]
  | cons part rest ih =>
    obtain ⟨hpart, hrest⟩ := not_or.mp (List.mem_cons.not.mp h)
    rw [trail, List.mem_cons, step_of_ne (Ne.symm hpart), ih hrest]
    constructor
    · rintro (rfl | ⟨r, hr, rfl⟩)
      · exact ⟨[], List.nil_prefix, (List.append_nil q).symm⟩
      · exact ⟨part :: r, List.prefix_cons_inj part |>.mpr hr, by simp⟩
    · rintro ⟨r, hr, rfl⟩
      rcases List.prefix_cons_iff.mp hr with rfl | ⟨r', rfl, hr'⟩
      · exact Or.inl (List.append_nil place)
      · exact Or.inr ⟨r', hr', by simp⟩

end Place

namespace Disk

open Place

variable {d : Disk} {place q : Place} {part : Text} {parts xs ys : List Text}

/-- There is a file at a place. -/
def HasFile (d : Disk) (place : Place) : Prop := ∃ bytes, d.entry? place = some (.file bytes)

theorem not_hasFile_of_directory (h : d.entry? q = some .directory) : ¬ d.HasFile q := by
  rintro ⟨bytes, hfile⟩
  rw [h] at hfile
  cases hfile

/-- A component that a disk can hold: without the character zero, and not too long. -/
structure IsUsable (part : Text) : Prop where
  no_zero : '\x00' ∉ part
  short : isTooLong part = false

instance (part : Text) : Decidable (IsUsable part) :=
  decidable_of_iff ('\x00' ∉ part ∧ isTooLong part = false)
    ⟨fun ⟨h, h'⟩ => ⟨h, h'⟩, fun h => ⟨h.no_zero, h.short⟩⟩

theorem byteLength_le_of_prefix {t u : Text} (h : t <+: u) : byteLength t ≤ byteLength u := by
  obtain ⟨rest, rfl⟩ := h
  simp [byteLength]

theorem IsUsable.of_prefix {t : Text} (h : IsUsable t) (hpart : part <+: t) : IsUsable part := by
  obtain ⟨rest, rfl⟩ := hpart
  refine ⟨fun hzero => h.no_zero (List.mem_append_left rest hzero), ?_⟩
  have hshort := h.short
  have hlength := byteLength_le_of_prefix (List.prefix_append part rest)
  simp only [isTooLong, decide_eq_false_iff_not, not_lt] at hshort ⊢
  omega

/-- A path that a disk can follow: its components can stand on a disk, and it is not too long. -/
structure IsUsablePath (p : Path) : Prop where
  parts : ∀ part ∈ p.components, IsUsable part
  short : isLongPath p = false

instance (p : Path) : Decidable (IsUsablePath p) :=
  decidable_of_iff ((∀ part ∈ p.components, IsUsable part) ∧ isLongPath p = false)
    ⟨fun ⟨h, h'⟩ => ⟨h, h'⟩, fun h => ⟨h.parts, h.short⟩⟩

/-- The spelling of a path begins with those of the paths above it; that of no component at all is
a dot, and short. -/
theorem isLongPath_of_prefix {slashes : Nat} (h : isLongPath ⟨slashes, ys⟩ = false)
    (hparts : xs <+: ys) : isLongPath ⟨slashes, xs⟩ = false := by
  obtain ⟨rest, rfl⟩ := hparts
  by_cases hdot : slashes = 0 ∧ xs = []
  · obtain ⟨rfl, rfl⟩ := hdot
    rfl
  · have hprint : Path.print ⟨slashes, xs⟩ <+: Path.print ⟨slashes, xs ++ rest⟩ := by
      have hlonger : ¬ (slashes = 0 ∧ xs ++ rest = []) := fun hnil =>
        hdot ⟨hnil.1, (List.append_eq_nil_iff.mp hnil.2).1⟩
      simp only [Path.print, Bool.and_eq_true, decide_eq_true_eq, if_neg hdot, if_neg hlonger]
      exact (List.prefix_append_right_inj _).mpr (Text.join_prefix_join_append _ _ _)
    have hlength := byteLength_le_of_prefix hprint
    simp only [isLongPath, decide_eq_false_iff_not, not_lt] at h ⊢
    omega

theorem IsUsablePath.of_prefix {slashes : Nat} (h : IsUsablePath ⟨slashes, ys⟩)
    (hparts : xs <+: ys) : IsUsablePath ⟨slashes, xs⟩ :=
  ⟨fun x hx => h.parts x (hparts.mem hx), isLongPath_of_prefix h.short hparts⟩

theorem IsUsablePath.parent {p : Path} (h : IsUsablePath p) : IsUsablePath p.parent :=
  h.of_prefix (List.dropLast_prefix _)

/-! ### Walking -/

theorem walk_append (place : Place) (xs ys : List Text) :
    d.walk place (xs ++ ys) = (d.walk place xs).bind fun q => d.walk q ys := by
  induction xs generalizing place with
  | nil => rfl
  | cons x xs ih =>
    simp only [List.cons_append, walk]
    split <;> [skip; rfl; rfl]
    split
    · rfl
    · split <;> exact ih _

theorem walk_cons_of_directory (h : d.entry? place = some .directory)
    (hshort : isTooLong part = false) (rest : List Text) :
    d.walk place (part :: rest) = d.walk (step place part) rest := by
  rw [walk, h]
  by_cases hup : part = "..".toList
  · simp only [step, if_pos hup, hshort, Bool.false_eq_true, if_false]
  · simp only [step, if_neg hup, hshort, Bool.false_eq_true, if_false]

theorem walk_of_directories (hshort : ∀ part ∈ parts, isTooLong part = false)
    (hdirs : ∀ q ∈ trail place parts, d.entry? q = some .directory) :
    d.walk place parts = .ok (follow place parts) := by
  induction parts generalizing place with
  | nil => rfl
  | cons part rest ih =>
    have hhere := hdirs place (self_mem_trail place _)
    have hrest := ih (fun x hx => hshort x (List.mem_cons_of_mem part hx))
      fun q hq => hdirs q (List.mem_cons_of_mem place hq)
    rw [walk_cons_of_directory hhere (hshort part List.mem_cons_self), hrest]
    rfl

/-- A way that ends at a place was passed over directories. -/
theorem walk_eq_ok (h : d.walk place parts = .ok q) :
    q = follow place parts ∧ (∀ r ∈ trail place parts, r = q ∨ d.entry? r = some .directory) ∧
      ∀ part ∈ parts, isTooLong part = false := by
  induction parts generalizing place with
  | nil =>
    cases h
    exact ⟨rfl, fun r hr => Or.inl (List.mem_singleton.mp hr), fun part hpart => nomatch hpart⟩
  | cons part rest ih =>
    cases hplace : d.entry? place with
    | none => simp [walk, hplace] at h
    | some e =>
      cases e with
      | file bytes => simp [walk, hplace] at h
      | directory =>
        have hshort : isTooLong part = false := by
          cases hlong : isTooLong part with
          | false => rfl
          | true => simp [walk, hplace, hlong] at h
        rw [walk_cons_of_directory hplace hshort] at h
        obtain ⟨hq, hdirs, hrest⟩ := ih h
        refine ⟨hq, fun r hr => ?_, List.forall_mem_cons.mpr ⟨hshort, hrest⟩⟩
        rcases List.mem_cons.mp hr with rfl | hr
        · exact Or.inr hplace
        · exact hdirs r hr

/-- A way is refused for a name only if it has one that is too long. -/
theorem exists_isTooLong_of_walk (h : d.walk place parts = .error .nameTooLong) :
    ∃ part ∈ parts, isTooLong part := by
  induction parts generalizing place with
  | nil => cases h
  | cons part rest ih =>
    by_cases hlong : isTooLong part
    · exact ⟨part, List.mem_cons_self, hlong⟩
    · cases hplace : d.entry? place with
      | none => simp [walk, hplace] at h
      | some e =>
        cases e with
        | file bytes => simp [walk, hplace] at h
        | directory =>
          rw [walk_cons_of_directory hplace (eq_false_of_ne_true hlong)] at h
          obtain ⟨x, hx, hx'⟩ := ih h
          exact ⟨x, List.mem_cons_of_mem part hx, hx'⟩

/-- A way can be passed as long as the directories on it are there. -/
theorem walk_mono {new : Disk}
    (hdirs : ∀ r ∈ Place.trail place parts, d.entry? r = some .directory →
      new.entry? r = some .directory)
    (h : d.walk place parts = .ok q) : new.walk place parts = .ok q := by
  induction parts generalizing place with
  | nil => exact h
  | cons part rest ih =>
    cases hentry : d.entry? place with
    | none => simp [walk, hentry] at h
    | some e =>
      cases e with
      | file bytes => simp [walk, hentry] at h
      | directory =>
        have hshort : isTooLong part = false := (walk_eq_ok h).2.2 part List.mem_cons_self
        rw [walk_cons_of_directory hentry hshort] at h
        rw [walk_cons_of_directory (hdirs place (self_mem_trail _ _) hentry) hshort]
        exact ih (fun r hr => hdirs r (List.mem_cons_of_mem place hr)) h

/-- What a way meets: directories only, or first a free place, or first a file. In the last two
cases nothing behind the way can be reached. -/
theorem trail_cases (d : Disk) (place : Place) (hshort : ∀ part ∈ parts, isTooLong part = false) :
    (∀ q ∈ trail place parts, d.entry? q = some .directory) ∨
      (∀ part, d.walk place (parts ++ [part]) = .error .notFound) ∨
      (∃ q ∈ trail place parts, d.HasFile q) ∧
        ∀ part, d.walk place (parts ++ [part]) = .error .notDirectory := by
  induction parts generalizing place with
  | nil =>
    cases hplace : d.entry? place with
    | none => exact Or.inr (Or.inl fun part => by simp [walk, hplace])
    | some e =>
      cases e with
      | directory => exact Or.inl fun q hq => List.mem_singleton.mp hq ▸ hplace
      | file bytes =>
        exact Or.inr (Or.inr ⟨⟨place, self_mem_trail place [], bytes, hplace⟩,
          fun part => by simp [walk, hplace]⟩)
  | cons x rest ih =>
    cases hplace : d.entry? place with
    | none => exact Or.inr (Or.inl fun part => by simp [walk, hplace])
    | some e =>
      cases e with
      | file bytes =>
        exact Or.inr (Or.inr ⟨⟨place, self_mem_trail place _, bytes, hplace⟩,
          fun part => by simp [walk, hplace]⟩)
      | directory =>
        have hstep (part : Text) : d.walk place (x :: rest ++ [part]) =
            d.walk (step place x) (rest ++ [part]) :=
          walk_cons_of_directory hplace (hshort x List.mem_cons_self) (rest ++ [part])
        rcases ih (step place x) (fun y hy => hshort y (List.mem_cons_of_mem x hy)) with
          hdirs | hfree | ⟨⟨q, hq, hfile⟩, hwalk⟩
        · refine Or.inl fun q hq => ?_
          rcases List.mem_cons.mp hq with rfl | hq
          · exact hplace
          · exact hdirs q hq
        · exact Or.inr (Or.inl fun part => (hstep part).trans (hfree part))
        · exact Or.inr (Or.inr ⟨⟨q, List.mem_cons_of_mem place hq, hfile⟩,
            fun part => (hstep part).trans (hwalk part)⟩)

/-! ### Paths -/

/-- The place where a path with that many leading slashes begins. -/
def start (d : Disk) (slashes : Nat) : Place := if slashes = 0 then d.here else []

/-- The place that a path leads to if it can be followed. -/
def spot (d : Disk) (p : Path) : Place := follow (d.start p.slashes) p.components

/-- The places that a path passes, with its end. -/
def trail (d : Disk) (p : Path) : List Place := Place.trail (d.start p.slashes) p.components

theorem locate_eq_walk {p : Path} (h : IsUsablePath p) :
    d.locate p = d.walk (d.start p.slashes) p.components := by
  have hzero : ¬ p.components.any fun part => part.elem '\x00' := by
    simpa using fun part hpart => (h.parts part hpart).no_zero
  rw [locate, if_neg hzero, h.short]
  rfl

theorem locate_of_isLongPath {p : Path} (hparts : ∀ part ∈ p.components, IsUsable part)
    (hlong : isLongPath p) : d.locate p = .error .nameTooLong := by
  have hzero : ¬ p.components.any fun part => part.elem '\x00' := by
    simpa using fun part hpart => (hparts part hpart).no_zero
  rw [locate, if_neg hzero, if_pos hlong]

/-- A path that can be followed leads over directories, and is one that a disk can follow. -/
theorem locate_eq_ok {p : Path} (h : d.locate p = .ok q) :
    q = d.spot p ∧ (∀ r ∈ d.trail p, r = q ∨ d.entry? r = some .directory) ∧ IsUsablePath p := by
  rw [locate] at h
  split at h
  · cases h
  · next hzero =>
    split at h
    · cases h
    · next hlong =>
      obtain ⟨hq, hdirs, hshort⟩ := walk_eq_ok h
      refine ⟨hq, hdirs, fun part hpart => ⟨fun hmem => hzero ?_, hshort part hpart⟩,
        eq_false_of_ne_true hlong⟩
      exact List.any_eq_true.mpr ⟨part, hpart, List.elem_eq_true_of_mem hmem⟩

/-- A path is refused for its length only if it is too long itself, or has a name that is. -/
theorem isLong_of_status {p : Path} (h : d.status p = .error .nameTooLong) :
    isLongPath p ∨ ∃ part ∈ p.components, isTooLong part := by
  by_cases hlong : isLongPath p
  · exact .inl hlong
  · have hlocate : d.locate p = .error .nameTooLong := by
      rw [status] at h
      split at h
      · next hlocate => rw [hlocate, Except.error.inj h]
      · split at h <;> cases h
    rw [locate, if_neg hlong] at hlocate
    split at hlocate
    · cases hlocate
    · exact .inr (exists_isTooLong_of_walk hlocate)

/-- A path can be followed as long as the directories on its way are there. -/
theorem locate_mono {new : Disk} {p : Path} (hhere : new.here = d.here)
    (hdirs : ∀ r ∈ d.trail p, d.entry? r = some .directory → new.entry? r = some .directory)
    (h : d.locate p = .ok q) : new.locate p = .ok q := by
  have husable := (locate_eq_ok h).2.2
  rw [locate_eq_walk husable] at h ⊢
  rw [start, hhere, ← start]
  exact walk_mono hdirs h

/-- Where a path leads depends on no more than the place where relative paths begin. -/
theorem spot_of_here {new : Disk} (h : new.here = d.here) (p : Path) : new.spot p = d.spot p := by
  rw [spot, spot, start, start, h]

theorem trail_of_here {new : Disk} (h : new.here = d.here) (p : Path) :
    new.trail p = d.trail p := by
  rw [trail, trail, start, start, h]

theorem status_eq_ok_iff {p : Path} {e : Entry} :
    d.status p = .ok e ↔ d.locate p = .ok (d.spot p) ∧ d.entry? (d.spot p) = some e := by
  cases hlocate : d.locate p with
  | error cause => simp [status, hlocate]
  | ok place =>
    obtain rfl := (locate_eq_ok hlocate).1
    cases hentry : d.entry? (d.spot p) <;> simp [status, hlocate, hentry]

theorem exists?_eq_true_iff {p : Path} : d.exists? p = .ok true ↔ ∃ e, d.status p = .ok e := by
  cases hstatus : d.status p with
  | ok e => simp [exists?, hstatus]
  | error cause => cases cause <;> simp [exists?, hstatus]

/-- Whether something is there can be told only of a path that is not too long. -/
theorem isLongPath_of_exists? {p : Path} {found : Bool}
    (hparts : ∀ part ∈ p.components, IsUsable part) (h : d.exists? p = .ok found) :
    isLongPath p = false := by
  by_contra hlong
  have hlocate := locate_of_isLongPath (d := d) hparts (eq_true_of_ne_false hlong)
  simp [exists?, status, hlocate] at h

theorem read_eq_ok_iff {p : Path} {bytes : List UInt8} :
    d.read p = .ok bytes ↔
      d.locate p = .ok (d.spot p) ∧ d.entry? (d.spot p) = some (.file bytes) := by
  cases hlocate : d.locate p with
  | error cause => simp [read, status, hlocate]
  | ok place =>
    obtain rfl := (locate_eq_ok hlocate).1
    cases hentry : d.entry? (d.spot p) with
    | none => simp [read, status, hlocate, hentry]
    | some e => cases e <;> simp [read, status, hlocate, hentry]

/-- A path one component behind a trail of directories can be followed. -/
theorem locate_concat_of_directories {slashes : Nat}
    (husable : IsUsablePath ⟨slashes, parts ++ [part]⟩)
    (hdirs : ∀ q ∈ Place.trail (d.start slashes) parts, d.entry? q = some .directory) :
    d.locate ⟨slashes, parts ++ [part]⟩ =
      .ok (step (follow (d.start slashes) parts) part) := by
  have hshort : ∀ x ∈ parts ++ [part], isTooLong x = false := fun x hx => (husable.parts x hx).short
  have hfirst := walk_of_directories (fun x hx => hshort x (List.mem_append_left _ hx)) hdirs
  rw [locate_eq_walk husable, walk_append, hfirst, Except.bind,
    walk_cons_of_directory (hdirs _ (follow_mem_trail _ parts)) (hshort part (by simp)), walk]

end Disk

end Pageloom
