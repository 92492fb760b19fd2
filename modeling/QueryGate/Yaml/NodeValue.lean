import QueryGate.Yaml.Node
import QueryGate.Yaml.ScalarValue

/-!
# Values of nodes

A tree of nodes becomes a value.  The contents of lists and mappings are looked at after everything
on the levels above, so of several faults the one on the highest level is told, and the first of
those.  A mapping takes in the entries of the mappings under its merge keys, its own ones winning.
-/

namespace QueryGate
namespace Yaml

/-- Something built from a node, or a fault with the level that it is on. -/
abbrev Built (α : Type) := Except (Nat × Fault) α

namespace Built

/-- Two things in order: of two faults the one on the higher level counts, else the first one. -/
def both {α β : Type} (x : Built α) (y : Built β) : Built (α × β) :=
  match x, y with
  | .ok a, .ok b => .ok (a, b)
  | .error f, .ok _ => .error f
  | .ok _, .error g => .error g
  | .error f, .error g => .error (if g.1 < f.1 then g else f)

/-- Something in front of a list. -/
def cons {α : Type} (x : Built α) (more : Built (List α)) : Built (List α) :=
  (both x more).map fun (a, as) => a :: as

/-- One list behind another. -/
def append {α : Type} (x y : Built (List α)) : Built (List α) :=
  (both x y).map fun (a, b) => a ++ b

/-- A fault of the values. -/
def fail {α : Type} (level : Nat) (context : Option (Activity × Mark)) (problem : Problem)
    (mark : Mark) : Built α :=
  .error (level, .misplaced .values (context.map fun (a, m) => (a, some m)) problem mark)

end Built

namespace Node

open Built

/-- Whether the key of an entry is the merge key. -/
def isMerge (key : Node) : Bool := key.tag == Tag.merge

mutual

/-- Why the merge keys among the entries of a mapping cannot be followed. -/
def mergeFault? (since : Mark) : List (Node × Node) → Option (Problem × Mark × Mark)
  | [] => none
  | (key, value) :: rest =>
    match (if key.isMerge then value.mergedFault? since else none) with
    | some fault => some fault
    | none => mergeFault? since rest

/-- Why a node under a merge key cannot be merged. -/
def mergedFault? (since : Mark) : Node → Option (Problem × Mark × Mark)
  | .mapping _ entries mark => mergeFault? mark entries
  | .sequence _ items _ => mergedItemFault? since items
  | .scalar _ _ mark => some (.notMergeable "scalar", since, mark)
  | .enclosing _ _ => none

/-- Why an item of a list under a merge key cannot be merged. -/
def mergedItemFault? (since : Mark) : List Node → Option (Problem × Mark × Mark)
  | [] => none
  | .mapping _ entries mark :: rest =>
    match mergeFault? mark entries with
    | some fault => some fault
    | none => mergedItemFault? since rest
  | item :: _ => some (.notMergeableItem item.kind, since, item.mark)

end

/-- Whether the contents of nodes with a tag are looked at later. -/
def isDeferred (tag : String) : Bool :=
  [Tag.sequence, Tag.mapping, Tag.set, Tag.orderedMap, Tag.pairs].contains tag

/-- The text that stands for a node where a scalar is expected: its own, or that of the value under
the value key. -/
def scalarText? : Node → Option (List Char)
  | .scalar _ text _ => some text
  | .sequence _ _ _ | .enclosing _ _ => none
  | .mapping _ entries _ => inEntries? entries
where
  /-- The text of the value under the value key. -/
  inEntries? : List (Node × Node) → Option (List Char)
    | [] => none
    | (key, value) :: rest => if key.tag == Tag.value then value.scalarText? else inEntries? rest

/-- The value of a node with the tag of a scalar.  A point in time is written by a scalar only. -/
def scalarValue (level : Nat) (n : Node) : Built Value :=
  let known := Tag.binary :: Tag.scalars
  if !known.contains n.tag then fail level none (.unknownTag n.tag) n.mark
  else
    match n.scalarText? with
    | none => fail level none (.notOfKind "scalar" n.kind) n.mark
    | some text =>
      if n.tag = Tag.timestamp ∧ n.kind ≠ "scalar" then .error (level, .scalar .otherKind)
      else if n.tag = Tag.binary then
        match Text.base64Octets text with
        | .ok octets => .ok (.bytes octets)
        | .error fault => fail level none (.notOctets fault) n.mark
      else
        match ScalarValue.ofTag n.tag text with
        | .ok v => .ok v
        | .error fault => .error (level, .scalar fault)

/-- The value of the key of an entry; lists and mappings are no keys. -/
def keyValue (level : Nat) (since : Mark) (key : Node) : Built Value :=
  if isDeferred key.tag then fail level (some (.mappingValue, since)) .unhashableKey key.mark
  else if key.tag = Tag.value then
    match key.scalarText? with
    | some text => .ok (.text (String.ofList text))
    | none => fail level none (.notOfKind "scalar" key.kind) key.mark
  else scalarValue level key

/-- A node whose tag asks for contents of another kind. -/
def misfit (level : Nat) (n : Node) : Built Value :=
  if n.tag = Tag.sequence then fail level none (.notOfKind "sequence" n.kind) n.mark
  else if n.tag = Tag.orderedMap then
    fail level (some (.orderedMap, n.mark)) (.notSequence n.kind) n.mark
  else if n.tag = Tag.pairs then fail level (some (.pairs, n.mark)) (.notSequence n.kind) n.mark
  else fail level none (.notOfKind "mapping" n.kind) n.mark

/-- A value that its contents are not looked at for. -/
def directValue (level : Nat) (n : Node) : Built Value :=
  if isDeferred n.tag then misfit (level + 1) n else scalarValue level n

mutual

/-- The value of a node on a level. -/
def value (level : Nat) : Node → Built Value
  | .scalar tag text mark => directValue level (.scalar tag text mark)
  | .enclosing _ _ => .ok .null
  | .sequence tag items mark =>
    if tag = Tag.sequence then (values (level + 1) items).map .list
    else if tag = Tag.orderedMap then (pairs (level + 1) .orderedMap mark items).map .list
    else if tag = Tag.pairs then (pairs (level + 1) .pairs mark items).map .list
    else directValue level (.sequence tag items mark)
  | .mapping tag entries mark =>
    if tag = Tag.mapping ∨ tag = Tag.set then
      match mergeFault? mark entries with
      | some (problem, since, place) =>
        fail (level + 1) (some (.mappingValue, since)) problem place
      | none =>
        let all := (mergedEntries (level + 1) mark entries).append
          (ownEntries (level + 1) mark entries)
        all.map fun es =>
          if tag = Tag.set then .list ((Value.entriesOf es).map (·.1)) else Value.mapOf es
    else directValue level (.mapping tag entries mark)

/-- The values of nodes. -/
def values (level : Nat) : List Node → Built (List Value)
  | [] => .ok []
  | n :: rest => cons (value level n) (values level rest)

/-- The pairs of mappings with one entry each. -/
def pairs (level : Nat) (activity : Activity) (since : Mark) : List Node → Built (List Value)
  | [] => .ok []
  | .mapping _ [(k, v)] _ :: rest =>
    cons (((value level k).both (value level v)).map fun (k, v) => .list [k, v])
      (pairs level activity since rest)
  | .mapping _ entries mark :: _ =>
    fail level (some (activity, since)) (.notSingleItem entries.length) mark
  | item :: _ => fail level (some (activity, since)) (.notSingleEntry item.kind) item.mark

/-- The entries that the merge keys of a mapping take in. -/
def mergedEntries (level : Nat) (since : Mark) :
    List (Node × Node) → Built (List (Value × Value))
  | [] => .ok []
  | (key, v) :: rest =>
    if key.isMerge then (merged level since v).append (mergedEntries level since rest)
    else mergedEntries level since rest

/-- The entries that a node under a merge key gives. -/
def merged (level : Nat) (since : Mark) : Node → Built (List (Value × Value))
  | .mapping _ entries _ =>
    (mergedEntries level since entries).append (ownEntries level since entries)
  | .sequence _ items _ => mergedItems level since items
  | .scalar _ _ _ | .enclosing _ _ => .ok []

/-- The entries that a list under a merge key gives; earlier items win, so they come later. -/
def mergedItems (level : Nat) (since : Mark) : List Node → Built (List (Value × Value))
  | [] => .ok []
  | item :: rest => (mergedItems level since rest).append (merged level since item)

/-- The entries of a mapping itself. -/
def ownEntries (level : Nat) (since : Mark) : List (Node × Node) → Built (List (Value × Value))
  | [] => .ok []
  | (key, v) :: rest =>
    if key.isMerge then ownEntries level since rest
    else cons ((keyValue level since key).both (value level v)) (ownEntries level since rest)

end

/-- The value of a tree. -/
def toValue (root : Node) : Except Fault Value := (value 0 root).mapError (·.2)

end Node

end Yaml
end QueryGate
