/-!
# Outcomes

Steps that may fail, with one predicate for the results and one for the faults. A sequence of steps
keeps to its predicates if each step does, given what the steps before it have achieved.

## Main definitions

* `Ends`: the outcome of a step keeps to the predicates.

## Main results

* `Ends.bind`, `Ends.map`, `Ends.mapM`: steps in a row.
* `Ends.ite`: one of two steps.
-/

namespace Pageloom

variable {ε α β : Type} {E F : ε → Prop} {P Q : α → Prop} {R : β → Prop} {x : Except ε α}

/-- The step has a result that satisfies `Q`, or a fault that satisfies `E`. -/
def Ends (E : ε → Prop) (Q : α → Prop) : Except ε α → Prop
  | .ok a => Q a
  | .error e => E e

namespace Ends

theorem monoFault (h : Ends E P x) (hEF : ∀ e, E e → F e) : Ends F P x := by
  cases x with
  | ok a => exact h
  | error e => exact hEF e h

theorem mono (h : Ends E P x) (hPQ : ∀ a, P a → Q a) : Ends E Q x := by
  cases x with
  | ok a => exact hPQ a h
  | error e => exact h

/-- Nothing is said about an outcome. -/
theorem any (x : Except ε α) : Ends (fun _ => True) (fun _ => True) x := by
  cases x <;> trivial

theorem bind {f : α → Except ε β} (hx : Ends E P x) (hf : ∀ a, P a → Ends E R (f a)) :
    Ends E R (x >>= f) := by
  cases x with
  | ok a => exact hf a hx
  | error e => exact hx

theorem map {f : α → β} (hx : Ends E P x) (hf : ∀ a, P a → R (f a)) : Ends E R (x.map f) := by
  cases x with
  | ok a => exact hf a hx
  | error e => exact hx

theorem mapM {f : α → Except ε β} {l : List α} (h : ∀ a ∈ l, Ends E R (f a)) :
    Ends E (∀ b ∈ ·, R b) (l.mapM f) := by
  induction l with
  | nil => exact fun _ hb => absurd hb List.not_mem_nil
  | cons a l ih =>
    obtain ⟨ha, hl⟩ := List.forall_mem_cons.mp h
    rw [List.mapM_cons]
    exact ha.bind fun b hb => (ih hl).bind fun bs hbs => List.forall_mem_cons.mpr ⟨hb, hbs⟩

theorem ite {p : Prop} [Decidable p] {y : Except ε α} (hx : Ends E Q x) (hy : Ends E Q y) :
    Ends E Q (if p then x else y) := by
  split
  · exact hx
  · exact hy

theorem fault {e : ε} (h : Ends E P x) (hx : x = .error e) : E e := by
  subst hx
  exact h

end Ends

end Pageloom
