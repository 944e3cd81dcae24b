import Pageloom.Proofs.Yaml.Plain
import Pageloom.Proofs.Yaml.Token
import Pageloom.Proofs.Yaml.Value

/-!
# The data of a text, and how it fails

A text is cut into tokens, a tree is composed of them, and the tree becomes data. Each of the three
steps can find the text malformed. Each can find something else as well: the first an escape for a
code without a character, and the last a scalar whose text does not fit its tag. The spelling of a
scalar fits the tag that it gives, with few exceptions, so that a tag that is written out is to
blame for most of these faults.

## Main definitions

* `Unfit`: what can be wrong with a text whose form is right.

## Main results

* `ends_load`: the faults of a text.
* `hasDistinctKeys_of_load`: the keys of a mapping.
-/

namespace Pageloom.Yaml

variable {t : Text} {f : Fault}

/-- What can be wrong with a text whose form is right: it holds an escape for a code without a
character, a plain scalar that does not fit the tag of its spelling, a scalar that does not fit a
tag that is written out, or the tag of times, which a mapping does not fit. -/
inductive Unfit (t : Text) : Fault → Prop where
  | escape {f : Fault} (h : HugeEscape t f) : Unfit t f
  | plain {u : Text} {f : Fault} (hu : .scalar true u ∈ Token.ofText t) (h : PlainFault u f) :
      Unfit t f
  | tagged {uri u : Text} {f : Fault} (htag : IsTag (Token.ofText t) uri)
      (htext : IsText (Token.ofText t) u)
      (h : Node.scalarValue (Composing.tagOr (.ofPlain u) (some uri)) u = .error f) : Unfit t f
  | mapped {uri : Text} (htag : IsTag (Token.ofText t) uri) (h : Tag.ofUri uri = .timestamp) :
      Unfit t .mappedTimestamp

/-- A scalar that does not fit its tag is at fault for its spelling or for the tag. -/
theorem unfit_of_scalar {tag : Tag} {u : Text} (hscalar : IsScalar (Token.ofText t) tag u)
    (h : Node.scalarValue tag u = .error f) : f = .malformed ∨ Unfit t f := by
  cases hscalar with
  | missing => cases h
  | plain hu =>
    have hlast : u.getLast? ≠ some '\n' := Token.isSound_ofText t _ hu
    exact ((Node.ends_plain hlast).fault h).imp_right (.plain hu)
  | text htext => cases h
  | tagged htag htext => exact .inr (.tagged htag htext h)

/-- **How a text fails to be data.** -/
theorem ends_load (t : Text) :
    Ends (fun f => f = .malformed ∨ Unfit t f) (fun _ => True) (load t) := by
  have htree := (Node.ends_ofTokens (Token.ofText t)).monoFault fun f hf => by
    show f = .malformed ∨ Unfit t f
    rcases hf with hform | hfault
    · exact .inl hform
    · exact (Token.isSound_ofText t (.fault f) hfault).imp_right .escape
  refine htree.bind fun root hroot => ?_
  cases root with
  | none => trivial
  | some n =>
    refine (Node.ends_toValue (hroot n rfl)).monoFault fun f hf => ?_
    cases hf with
    | malformed => exact .inl rfl
    | scalar hscalar hvalue => exact unfit_of_scalar hscalar hvalue
    | mapped htag htime => exact .inr (.mapped htag htime)

theorem unfit_of_load (h : load t = .error f) (hform : f ≠ .malformed) : Unfit t f :=
  ((ends_load t).fault h).resolve_left hform

/-- A key occurs once in a mapping. -/
theorem hasDistinctKeys_of_load {entries : List (Value × Value)}
    (h : load t = .ok (.map entries)) : Value.HasDistinctKeys entries := by
  rw [load] at h
  cases htree : Node.ofTokens (Token.ofText t) with
  | error f => simp [htree, Except.bind] at h
  | ok root =>
    rw [htree] at h
    cases root with
    | none => cases h
    | some n => exact Node.hasDistinctKeys_of_toValue h

end Pageloom.Yaml
