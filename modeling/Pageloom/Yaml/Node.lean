import Pageloom.Yaml.Tag
import Pageloom.Yaml.Token

/-!
# Nodes of a YAML document

The tree that the tokens of a text describe: scalars, sequences and mappings with their tags. A
label may be given to a node; an alias stands for the node with its label, which has to be complete
by then. There may be one document only.

## Main definitions

* `Yaml.Node`: the tree.
* `Composing`: the tokens that are left, the handles of tags, and the labels given so far.
* `Node.ofTokens`: the tree that tokens describe, if there is a document at all.
-/

namespace Pageloom.Yaml

/-- A node of a document. -/
inductive Node where
  | scalar (tag : Tag) (t : Text)
  | sequence (tag : Tag) (items : List Node)
  | mapping (tag : Tag) (entries : List (Node × Node))
deriving Repr

namespace Node

/-- The tag of a node. -/
def tag : Node → Tag
  | .scalar tag _ => tag
  | .sequence tag _ => tag
  | .mapping tag _ => tag

/-- The node that stands where nothing is written. -/
def empty : Node := .scalar .null []

end Node

/-- The tokens that are left, the handles of tags with what they stand for, and the labels with
their nodes; a node that is not complete yet is missing. -/
structure Composing where
  tokens : List Token
  handles : List (Text × Text)
  labels : List (Text × Option Node)

namespace Composing

/-- The handles that are always known. -/
def defaultHandles : List (Text × Text) := [("!", "!"), ("!!", Tag.base)]

/-- The fault when the next token does not fit. -/
def unexpected (s : Composing) : Fault :=
  match s.tokens with
  | .fault f :: _ => f
  | _ => .malformed

/-- Whether the next token is one of the given ones. -/
def nextIs (ts : List Token) (s : Composing) : Bool := s.tokens.head?.any ts.elem

/-- Goes on behind the next token. -/
def skip (s : Composing) : Composing := { s with tokens := s.tokens.tail }

/-! ### Labels and tags -/

/-- What may come before a node: a label and a tag, in either order. -/
structure Properties where
  label : Option Text := none
  tag : Option (Option Text × Text) := none

/-- The label and tag that come next. -/
def properties (s : Composing) : Properties × Composing :=
  match s.tokens with
  | .anchor label :: .tag handle suffix :: rest =>
    (⟨some label, some (handle, suffix)⟩, { s with tokens := rest })
  | .tag handle suffix :: .anchor label :: rest =>
    (⟨some label, some (handle, suffix)⟩, { s with tokens := rest })
  | .anchor label :: rest => (⟨some label, none⟩, { s with tokens := rest })
  | .tag handle suffix :: rest => (⟨none, some (handle, suffix)⟩, { s with tokens := rest })
  | _ => ({}, s)

/-- A tag as it is written out. -/
def fullTag (s : Composing) : Option (Option Text × Text) → Except Fault (Option Text)
  | none => .ok none
  | some (none, suffix) => .ok (some suffix)
  | some (some handle, suffix) =>
    match s.handles.lookup handle with
    | some start => .ok (some (start ++ suffix))
    | none => .error .malformed

/-- The tag of a node, when `byDefault` is the one without a tag or with the mark alone. -/
def tagOr (byDefault : Tag) (tag : Option Text) : Tag :=
  match tag with
  | none => byDefault
  | some uri => if uri = ['!'] then byDefault else .ofUri uri

/-- The node of a scalar. Without a tag a plain one is looked at, and with the mark alone every
one. -/
def scalarNode (tag : Option Text) (isPlain : Bool) (t : Text) : Node :=
  let byDefault := if isPlain || tag = some ['!'] then Tag.ofPlain t else .text
  .scalar (tagOr byDefault tag) t

/-- The node of a sequence, with what is left to compose. -/
def sequenceNode (tag : Option Text) (read : List Node × Composing) : Node × Composing :=
  (.sequence (tagOr .sequence tag) read.1, read.2)

/-- The node of a mapping, with what is left to compose. -/
def mappingNode (tag : Option Text) (read : List (Node × Node) × Composing) : Node × Composing :=
  (.mapping (tagOr .mapping tag) read.1, read.2)

/-- Gives out a label, which must not be given twice. -/
def openLabel (label : Option Text) (s : Composing) : Except Fault Composing :=
  match label with
  | none => .ok s
  | some name =>
    if (s.labels.lookup name).isSome then .error .malformed
    else .ok { s with labels := (name, none) :: s.labels }

/-- Completes the node with a label. -/
def closeLabel (label : Option Text) (n : Node) (s : Composing) : Composing :=
  match label with
  | none => s
  | some name => { s with labels := (name, some n) :: s.labels }

/-- The node that an alias stands for. -/
def refer (name : Text) (s : Composing) : Except Fault (Node × Composing) :=
  match s.labels.lookup name with
  | some (some n) => .ok (n, s)
  | _ => .error .malformed

end Composing

/-! ### Nodes -/

namespace Node

open Composing (unexpected nextIs skip)

/-- Where a node stands: whether it may be a block, and whether it may be a block sequence that is
not indented. -/
structure Place where
  block : Bool
  indentless : Bool

/-- Inside brackets. -/
def inFlow : Place := ⟨false, false⟩

/-- As an item of a block sequence. -/
def asItem : Place := ⟨true, false⟩

/-- As a key or value of a block mapping. -/
def asEntry : Place := ⟨true, true⟩

mutual

/-- Composes a node. The bound limits the depth of calls; each one that is not at the start of a
node or of an entry takes a token. -/
def compose (p : Place) : (bound : Nat) → Composing → Except Fault (Node × Composing)
  | 0, _ => .error .malformed
  | n + 1, s =>
    match s.tokens with
    | .reference name :: _ => s.skip.refer name
    | _ => do
      let (props, s) := s.properties
      let tag ← s.fullTag props.tag
      match s.tokens with
      | .scalar isPlain t :: _ =>
        let s ← s.skip.openLabel props.label
        let node := Composing.scalarNode tag isPlain t
        return (node, s.closeLabel props.label node)
      | first :: _ =>
        let s' ← s.openLabel props.label
        let (node, s') ←
          if p.indentless && first = .blockEntry then
            (indentlessItems n s').map (Composing.sequenceNode tag)
          else if first = .flowSequenceStart then
            (flowItems true n s'.skip).map (Composing.sequenceNode tag)
          else if first = .flowMappingStart then
            (flowEntries true n s'.skip).map (Composing.mappingNode tag)
          else if p.block && first = .blockSequenceStart then
            (blockItems n s'.skip).map (Composing.sequenceNode tag)
          else if p.block && first = .blockMappingStart then
            (blockEntries n s'.skip).map (Composing.mappingNode tag)
          else
            match first with
            | .fault f => .error f
            | _ =>
              if props.label.isSome || tag.isSome then .ok (Composing.scalarNode tag true [], s')
              else .error .malformed
        return (node, s'.closeLabel props.label node)
      | [] => .error .malformed

/-- Composes a node unless one of the given tokens, which end it, comes first. -/
def composeUnless (ends : List Token) (p : Place) :
    (bound : Nat) → Composing → Except Fault (Node × Composing)
  | 0, _ => .error .malformed
  | n + 1, s => if s.nextIs ends then .ok (empty, s) else compose p n s

/-- The items of a block sequence. -/
def blockItems : (bound : Nat) → Composing → Except Fault (List Node × Composing)
  | 0, _ => .error .malformed
  | n + 1, s =>
    match s.tokens with
    | .blockEntry :: _ => do
      let (item, s) ← composeUnless [.blockEntry, .blockEnd] asItem n s.skip
      let (items, s) ← blockItems n s
      return (item :: items, s)
    | .blockEnd :: _ => .ok ([], s.skip)
    | _ => .error s.unexpected

/-- The items of a block sequence that is not indented. -/
def indentlessItems : (bound : Nat) → Composing → Except Fault (List Node × Composing)
  | 0, _ => .error .malformed
  | n + 1, s =>
    match s.tokens with
    | .blockEntry :: _ => do
      let (item, s) ← composeUnless [.blockEntry, .key, .value, .blockEnd] asItem n s.skip
      let (items, s) ← indentlessItems n s
      return (item :: items, s)
    | .fault f :: _ => .error f
    | _ => .ok ([], s)

/-- The entries of a block mapping. -/
def blockEntries : (bound : Nat) → Composing → Except Fault (List (Node × Node) × Composing)
  | 0, _ => .error .malformed
  | n + 1, s => do
    let ends := [.key, .value, .blockEnd]
    match s.tokens with
    | .key :: _ =>
      let (k, s) ← composeUnless ends asEntry n s.skip
      let (v, s) ← blockValue n s
      let (es, s) ← blockEntries n s
      return ((k, v) :: es, s)
    | .blockEnd :: _ => return ([], s.skip)
    | _ => .error s.unexpected

/-- The value of an entry of a block mapping. -/
def blockValue : (bound : Nat) → Composing → Except Fault (Node × Composing)
  | 0, _ => .error .malformed
  | n + 1, s =>
    match s.tokens with
    | .value :: _ => composeUnless [.key, .value, .blockEnd] asEntry n s.skip
    | _ => .ok (empty, s)

/-- The items of a sequence between brackets. -/
def flowItems (first : Bool) : (bound : Nat) → Composing → Except Fault (List Node × Composing)
  | 0, _ => .error .malformed
  | n + 1, s => do
    if s.nextIs [.flowSequenceEnd] then return ([], s.skip)
    if !first && !s.nextIs [.flowEntry] then .error s.unexpected
    let s := if first then s else s.skip
    if s.nextIs [.flowSequenceEnd] then return ([], s.skip)
    let (item, s) ← if s.nextIs [.key] then flowPair n s.skip else compose inFlow n s
    let (items, s) ← flowItems false n s
    return (item :: items, s)

/-- An entry that stands as an item of a sequence between brackets, which is a mapping of its
own. -/
def flowPair : (bound : Nat) → Composing → Except Fault (Node × Composing)
  | 0, _ => .error .malformed
  | n + 1, s => do
    let (k, s) ← composeUnless [.value, .flowEntry, .flowSequenceEnd] inFlow n s
    let (v, s) ← flowValue .flowSequenceEnd n s
    return (.mapping .mapping [(k, v)], s)

/-- The entries of a mapping between braces. -/
def flowEntries (first : Bool) :
    (bound : Nat) → Composing → Except Fault (List (Node × Node) × Composing)
  | 0, _ => .error .malformed
  | n + 1, s => do
    if s.nextIs [.flowMappingEnd] then return ([], s.skip)
    if !first && !s.nextIs [.flowEntry] then .error s.unexpected
    let s := if first then s else s.skip
    if s.nextIs [.flowMappingEnd] then return ([], s.skip)
    let (e, s) ← flowEntry n s
    let (es, s) ← flowEntries false n s
    return (e :: es, s)

/-- An entry of a mapping between braces. A node alone is a key without a value. -/
def flowEntry : (bound : Nat) → Composing → Except Fault ((Node × Node) × Composing)
  | 0, _ => .error .malformed
  | n + 1, s => do
    if s.nextIs [.key] then
      let (k, s) ← composeUnless [.value, .flowEntry, .flowMappingEnd] inFlow n s.skip
      let (v, s) ← flowValue .flowMappingEnd n s
      return ((k, v), s)
    else
      let (k, s) ← compose inFlow n s
      return ((k, empty), s)

/-- The value of an entry between brackets that `close` ends. -/
def flowValue (close : Token) : (bound : Nat) → Composing → Except Fault (Node × Composing)
  | 0, _ => .error .malformed
  | n + 1, s =>
    match s.tokens with
    | .value :: _ => composeUnless [.flowEntry, close] inFlow n s.skip
    | _ => .ok (empty, s)

end

/-! ### Documents -/

/-- The directives before a document: the version must be one of the first generation and given
once, and a handle must not be declared twice. -/
def directives : (versionSeen : Bool) → (handles : List (Text × Text)) → List Token →
    Except Fault (List (Text × Text) × List Token)
  | seen, handles, .version major :: rest =>
    if seen || major ≠ 1 then .error .malformed else directives true handles rest
  | seen, handles, .handle name start :: rest =>
    if (handles.lookup name).isSome then .error .malformed
    else directives seen ((name, start) :: handles) rest
  | seen, handles, .otherDirective :: rest => directives seen handles rest
  | _, handles, tokens => .ok (handles ++ Composing.defaultHandles, tokens)

/-- Checks that nothing follows a document but marks of its end. -/
def checkEnd (tokens : List Token) : Except Fault Unit :=
  match tokens.dropWhile (· = .documentEnd) with
  | .streamEnd :: _ => .ok ()
  | .fault f :: _ => .error f
  | rest => do
    let (_, rest) ← directives false [] rest
    match rest with
    | .fault f :: _ => .error f
    | _ => .error .malformed

/-- Composes the root of a document and checks that no other document follows. -/
def root (handles : List (Text × Text)) (tokens : List Token) : Except Fault (Option Node) := do
  let (node, s) ← compose asItem (6 * tokens.length + 6) ⟨tokens, handles, []⟩
  checkEnd s.tokens
  return some node

/-- Composes a document that begins with its mark, behind it. -/
def content (handles : List (Text × Text)) (tokens : List Token) : Except Fault (Option Node) :=
  match tokens with
  | .version _ :: _ | .handle _ _ :: _ | .otherDirective :: _ | .documentStart :: _
  | .documentEnd :: _ | .streamEnd :: _ => (checkEnd tokens).map fun _ => some empty
  | _ => root handles tokens

/-- The root of the document that tokens describe, if there is one. -/
def ofTokens (tokens : List Token) : Except Fault (Option Node) :=
  match tokens with
  | .streamEnd :: _ => .ok none
  | .version _ :: _ | .handle _ _ :: _ | .otherDirective :: _ | .documentStart :: _ => do
    let (handles, rest) ← directives false [] tokens
    match rest with
    | .documentStart :: rest => content handles rest
    | .fault f :: _ => .error f
    | _ => .error .malformed
  | _ => root Composing.defaultHandles tokens

end Node

end Pageloom.Yaml
