import Pageloom.Proofs.Yaml.Number
import Pageloom.Yaml.Value

/-!
# Scalars without a tag

A plain scalar without a tag has the one that its spelling gives. Words, texts and floating-point
numbers fit the tag that they get. What is left are integers without digits or with too many of
them, and days and times that are spelled well and do not exist. Marks that mean something only as
keys are malformed anywhere else.

## Main definitions

* `PlainFault`: the faults of plain scalars.

## Main results

* `Node.ends_plain`: what can be wrong with a plain scalar.
-/

namespace Pageloom.Yaml

variable {u : Text}

/-- What can be wrong with a plain scalar whose form is right. -/
inductive PlainFault (u : Text) : Fault → Prop where
  | integer {f : Fault} (htag : Tag.ofPlain u = .int) (h : Number.IntegerFault f) : PlainFault u f
  | timestamp {f : CalendarFault} (htag : Tag.ofPlain u = .timestamp) : PlainFault u (.calendar f)

namespace Node

/-- The outcome of reading a scalar with the tag that its spelling gives. -/
abbrev ReadsPlain (u : Text) (x : Except Fault Value) : Prop :=
  Ends (fun f => f = .malformed ∨ PlainFault u f) (fun _ => True) x

theorem isSome_truth? : ∀ u ∈ Tag.truthWords, (truth? u).isSome := by decide +kernel

/-- A timestamp that is spelled well may only fail to exist. -/
theorem ends_timestamp (hlast : u.getLast? ≠ some '\n') (h : Timestamp.isPlain u) :
    Ends (fun f => ∃ c, f = .calendar c) (fun _ => True) (timestamp u) := by
  have hcalendar {α : Type} (x : Except CalendarFault α) (make : α → Value) :
      Ends (fun f => ∃ c, f = .calendar c) (fun _ => True)
        ((x.mapError Fault.calendar).map make) := by
    cases x with
    | ok a => trivial
    | error c => exact ⟨c, rfl⟩
  have hspelled : ∃ s, Timestamp.read? u = some s := by
    rw [Timestamp.isPlain] at h
    obtain ⟨s, hs, -⟩ := Option.any_eq_true _ _ |>.mp h
    exact ⟨s, hs⟩
  obtain ⟨s, hs⟩ := hspelled
  rw [timestamp, if_neg hlast, hs]
  dsimp only
  split
  · exact hcalendar _ _
  · exact hcalendar _ _

/-- **What can be wrong with a plain scalar.** -/
theorem ends_plain (hlast : u.getLast? ≠ some '\n') :
    ReadsPlain u (scalarValue (Tag.ofPlain u) u) := by
  have htag : Tag.ofPlain u = Tag.ofLine u := by
    rw [Tag.ofPlain, if_neg (by simp [hlast])]
  unfold Tag.ofLine at htag
  split at htag
  · next hword =>
    obtain ⟨b, hb⟩ := Option.isSome_iff_exists.mp (isSome_truth? u (List.elem_iff.mp hword))
    rw [htag, scalarValue, hb]
    trivial
  split at htag
  · next hfloat =>
    rw [htag]
    exact ((Number.ends_float hfloat).monoFault fun _ => False.elim).map fun _ _ => trivial
  split at htag
  · next hint =>
    have hinteger := (Number.ends_integer hint).monoFault fun f hf =>
      (.inr (.integer htag hf) : f = .malformed ∨ PlainFault u f)
    rw [htag]
    exact hinteger.map fun _ _ => trivial
  split at htag
  · rw [htag]
    exact .inl rfl
  split at htag
  · rw [htag]
    trivial
  split at htag
  · next hstamp =>
    have hends := (ends_timestamp hlast hstamp).monoFault fun f hf => by
      show f = .malformed ∨ PlainFault u f
      obtain ⟨c, rfl⟩ := hf
      exact .inr (.timestamp htag)
    rw [htag]
    exact hends
  split at htag
  · rw [htag]
    exact .inl rfl
  split at htag
  · rw [htag]
    exact .inl rfl
  · rw [htag]
    trivial

end Node

end Pageloom.Yaml
