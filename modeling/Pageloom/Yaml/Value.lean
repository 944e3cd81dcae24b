import Pageloom.Text.Base64
import Pageloom.Value
import Pageloom.Yaml.Node
import Pageloom.Yaml.Number

/-!
# The data of a YAML document

The tree of a document becomes data. A mapping may take over the entries of others, which come
before its own ones; a later entry with the same key replaces the value of an earlier one. A key
must not be a sequence or a mapping.

When several nodes are at fault, the fault that counts is the one that is nearest to the root, and
of those the first in the text: the content of a sequence or mapping is looked at only after
everything around it.

## Main definitions

* `Node.flatten`: the entries of a mapping with those that it takes over.
* `Node.taggedValue`: the data of a node with a tag of its own; `Node.toValue`: that of a tree.
* `Yaml.load`: the data that a text stands for.
-/

namespace Pageloom.Yaml

/-- A fault at a distance from the root. -/
structure Raised where
  level : Nat
  fault : Fault
deriving Repr

/-- The one of two faults that counts; the first one stands first in the text. -/
def Raised.first : Option Raised → Option Raised → Option Raised
  | none, b => b
  | a, none => a
  | some a, some b => if b.level < a.level then some b else some a

namespace Node

/-! ### Scalars -/

mutual

/-- The text of a scalar. A mapping has the text of the value that stands for it. -/
def scalarText : Node → Except Fault Text
  | .scalar _ t => .ok t
  | .sequence _ _ => .error .malformed
  | .mapping _ es => entryText es

/-- The text of the entry that stands for a mapping. -/
def entryText : List (Node × Node) → Except Fault Text
  | [] => .error .malformed
  | (k, v) :: es => if k.tag = .value then scalarText v else entryText es

end

/-- The truth value that a word stands for, in any case. -/
def truth? (t : Text) : Option Bool :=
  let word := Text.lower t
  if ["yes".toList, "true".toList, "on".toList].elem word then some true
  else if ["no".toList, "false".toList, "off".toList].elem word then some false
  else none

/-- The day or point of time that a text stands for. A line feed at its end does not count. -/
def timestamp (t : Text) : Except Fault Value :=
  let t := if t.getLast? = some '\n' then t.dropLast else t
  match Timestamp.read? t with
  | none => .error .notTimestamp
  | some s =>
    match s.clock with
    | none => (s.toDate.mapError Fault.calendar).map .date
    | some c => ((s.toDateTime c).mapError Fault.calendar).map .dateTime

/-- The bytes that a text stands for. -/
def bytes (t : Text) : Except Fault Value :=
  if t.all fun c => c.toNat < 128 then
    match Base64.decode? t with
    | some bs => .ok (.bytes bs)
    | none => .error .malformed
  else .error .malformed

/-- The data of a scalar with the given tag and text. -/
def scalarValue (tag : Tag) (t : Text) : Except Fault Value :=
  match tag with
  | .null => .ok .null
  | .bool =>
    match truth? t with
    | some b => .ok (.bool b)
    | none => .error (.notTruth (Text.lower t))
  | .int => (Number.integer t).map .int
  | .float => (Number.float t).map .float
  | .binary => bytes t
  | .timestamp => timestamp t
  | .text => .ok (.text t)
  | _ => .error .malformed

/-! ### Mappings -/

/-- The node as a key: the mark that stands for the mapping is a text there. -/
def asKey : Node → Node
  | .scalar .value t => .scalar .text t
  | n => n

mutual

/-- The entries of a mapping: those it takes over, and its own ones. -/
def flattenEntries : List (Node × Node) → Except Fault (List (Node × Node) × List (Node × Node))
  | [] => .ok ([], [])
  | (k, v) :: es =>
    if k.tag = .merge then do
      let taken ← takenFrom v
      let (more, own) ← flattenEntries es
      return (taken ++ more, own)
    else do
      let (taken, own) ← flattenEntries es
      return (taken, (asKey k, v) :: own)

/-- The entries that are taken over from a mapping, or from several. -/
def takenFrom : Node → Except Fault (List (Node × Node))
  | .mapping _ es => (flattenEntries es).map fun (taken, own) => taken ++ own
  | .sequence _ items => takenFromAll items
  | .scalar _ _ => .error .malformed

/-- The entries that are taken over from several mappings. Those of the first one come last, so that
they count. -/
def takenFromAll : List Node → Except Fault (List (Node × Node))
  | [] => .ok []
  | .mapping _ es :: ns => do
    let (taken, own) ← flattenEntries es
    return (← takenFromAll ns) ++ (taken ++ own)
  | _ :: _ => .error .malformed

end

/-- The entries of a mapping with those that it takes over in front. -/
def flatten (entries : List (Node × Node)) : Except Fault (List (Node × Node)) :=
  (flattenEntries entries).map fun (taken, own) => taken ++ own

/-! ### Trees -/

mutual

/-- How deep the tree of a node is. -/
def depth : Node → Nat
  | .scalar _ _ => 0
  | .sequence _ items => depths items + 1
  | .mapping _ es => entryDepths es + 1

/-- The greatest depth of some nodes. -/
def depths : List Node → Nat
  | [] => 0
  | n :: ns => max (depth n) (depths ns)

/-- The greatest depth of the nodes of some entries. -/
def entryDepths : List (Node × Node) → Nat
  | [] => 0
  | (k, v) :: es => max (max (depth k) (depth v)) (entryDepths es)

end

/-- Whether the data of a node may be a key. -/
def isKey (n : Node) : Bool := n.tag ≠ .sequence && n.tag ≠ .mapping

/-- The data of a node with a tag of its own, which is that of its text. A time must not be spelled
by a mapping. -/
def taggedValue (n : Node) : Except Fault Value :=
  n.scalarText.bind fun t =>
    match n with
    | .mapping .timestamp _ => .error .mappedTimestamp
    | _ => scalarValue n.tag t

/-- Data of which nothing is known but the fault. -/
def raise (level : Nat) (f : Fault) : Value × Option Raised := (.null, some ⟨level, f⟩)

/-- The data of some items, given by those of one. -/
def itemsWith (one : Node → Value × Option Raised) : List Node → List Value × Option Raised
  | [] => ([], none)
  | n :: ns =>
    let (v, r) := one n
    let (vs, rs) := itemsWith one ns
    (v :: vs, Raised.first r rs)

/-- The data of some entries, given by those of one node; `level` is where they stand. -/
def entriesWith (one : Node → Value × Option Raised) (level : Nat) :
    List (Node × Node) → List (Value × Value) × Option Raised
  | [] => ([], none)
  | (k, v) :: es =>
    let (kv, r) := one k
    let r := Raised.first r (if isKey k then none else some ⟨level, .malformed⟩)
    let (vv, s) := one v
    let (rest, rs) := entriesWith one level es
    ((kv, vv) :: rest, Raised.first (Raised.first r s) rs)

/-- The data of a node at a level, and the fault that counts. The bound limits the depth of the
tree. -/
def build : (bound level : Nat) → Node → Value × Option Raised
  | 0, level, _ => raise level .malformed
  | n + 1, level, node =>
    match node.tag with
    | .sequence =>
      match node with
      | .sequence _ items =>
        let (vs, r) := itemsWith (build n (level + 1)) items
        (.list vs, r)
      | _ => raise (level + 1) .malformed
    | .mapping =>
      match node with
      | .mapping _ es =>
        match flatten es with
        | .error f => raise (level + 1) f
        | .ok es =>
          let (entries, r) := entriesWith (build n (level + 1)) (level + 1) es
          (.map (Value.putAll [] entries), r)
      | _ => raise (level + 1) .malformed
    | _ =>
      match node.taggedValue with
      | .error f => raise level f
      | .ok v => (v, none)

/-- The data of a tree. -/
def toValue (n : Node) : Except Fault Value :=
  match build (n.depth + 1) 0 n with
  | (v, none) => .ok v
  | (_, some r) => .error r.fault

end Node

/-- The data that a text stands for; an empty text stands for null. -/
def load (t : Text) : Except Fault Value :=
  (Node.ofTokens (Token.ofText t)).bind fun
    | none => .ok .null
    | some root => root.toValue

end Pageloom.Yaml
