import QueryGate.Yaml.Tag
import QueryGate.Yaml.Layout

/-!
# Nodes

The tree that the tokens of a configuration text write: scalars, sequences and mappings with their
tags and places.  A reference stands for the node of its anchor.  Where that is a collection that
the reference itself stands in, the tree would have no end, so it is followed only as deep as any
reader of documents looks.
-/

namespace QueryGate
namespace Yaml

/-- A node with its tag and the place where it starts. -/
inductive Node where
  | scalar (tag : String) (text : List Char) (mark : Mark)
  | sequence (tag : String) (items : List Node) (mark : Mark)
  | mapping (tag : String) (entries : List (Node × Node)) (mark : Mark)
  /-- The collection of this name, in which the node itself stands. -/
  | enclosing (name : String) (mark : Mark)
  deriving Inhabited

namespace Node

/-- The tag of a node. -/
def tag : Node → String
  | scalar t _ _ => t
  | sequence t _ _ => t
  | mapping t _ _ => t
  | enclosing _ _ => Tag.null

/-- The place where a node starts. -/
def mark : Node → Mark
  | scalar _ _ m => m
  | sequence _ _ m => m
  | mapping _ _ m => m
  | enclosing _ m => m

/-- The name of the kind of a node in messages. -/
def kind : Node → String
  | scalar _ _ _ => "scalar"
  | sequence _ _ _ => "sequence"
  | mapping _ _ _ => "mapping"
  | enclosing _ _ => "scalar"

/-- The node that stands where nothing is written. -/
def absent (m : Mark) : Node := .scalar Tag.null [] m

mutual

/-- A node with another one in the places of a collection that it stands in. -/
def filled (name : String) (whole : Node) : Node → Node
  | scalar t text m => scalar t text m
  | sequence t items m => sequence t (filledItems name whole items) m
  | mapping t entries m => mapping t (filledEntries name whole entries) m
  | enclosing n m => if n = name then whole else enclosing n m

/-- Items with another node in the places of a collection that they stand in. -/
def filledItems (name : String) (whole : Node) : List Node → List Node
  | [] => []
  | n :: rest => filled name whole n :: filledItems name whole rest

/-- Entries with another node in the places of a collection that they stand in. -/
def filledEntries (name : String) (whole : Node) : List (Node × Node) → List (Node × Node)
  | [] => []
  | (k, v) :: rest => (filled name whole k, filled name whole v) :: filledEntries name whole rest

end

/-- A collection without its contents. -/
def emptied : Node → Node
  | sequence t _ m => sequence t [] m
  | mapping t _ m => mapping t [] m
  | n => n

/-- How often a collection is followed into itself. -/
def selfDepth : Nat := 4

/-- A collection of a name, followed into itself. -/
def closed (name : String) (n : Node) : Node :=
  (List.range selfDepth).foldl (fun inner _ => filled name inner n) n.emptied

end Node

/-- An anchor with the place of its node, and the node when all of it has been read.  `inside` says
that the node refers to itself. -/
structure Anchor where
  name : String
  mark : Mark
  node : Option Node
  inside : Bool

/-- The tokens that are left, and what has been named. -/
structure NodeSource where
  tokens : List Token
  fault : Option Fault
  anchors : List Anchor
  /-- The short forms of tags. -/
  handles : List (String × String)

/-- Goes ahead in the tokens and gives something, or stops at a fault. -/
abbrev NodeReading (α : Type) := StateT NodeSource (Except Fault) α

namespace NodeReading

/-- The next token; behind the last one is the fault that ended them. -/
def peek : NodeReading Token := do
  let s ← get
  match s.tokens, s.fault with
  | t :: _, _ => return t
  | [], some fault => throw fault
  | [], none => return ⟨.streamEnd, .start, .start⟩

/-- Goes over the next token and gives it. -/
def take : NodeReading Token := do
  let t ← peek
  modify fun s => { s with tokens := s.tokens.drop 1 }
  return t

/-- Whether the next token is of one of the kinds. -/
def atAny (kinds : List TokenKind) : NodeReading Bool := return kinds.contains (← peek).kind

/-- How many tokens are left. -/
def left : NodeReading Nat := return (← get).tokens.length

/-- A fault of the grammar at the next token. -/
def failAt {α : Type} (activity : Activity) (since : Mark) (problem : String → Problem) :
    NodeReading α := do
  let t ← peek
  throw (.misplaced .grammar (some (activity, some since)) (problem t.kind.name) t.start)

/-- Changes the anchor of a name. -/
def updateAnchor (name : String) (change : Anchor → Anchor) : NodeReading Unit :=
  modify fun s =>
    { s with anchors := s.anchors.map fun a => if a.name == name then change a else a }

/-- The node of a reference. -/
def refer (name : String) (mark : Mark) : NodeReading Node := do
  match (← get).anchors.find? fun a => a.name == name with
  | none => throw (.misplaced .nodes none (.undefinedReference name) mark)
  | some a =>
    match a.node with
    | some node => return node
    | none =>
      updateAnchor name fun a => { a with inside := true }
      return .enclosing name mark

/-- Names a node that starts at a place. -/
def openAnchor (name : Option String) (mark : Mark) : NodeReading Unit := do
  match name with
  | none => return
  | some name =>
    match (← get).anchors.find? fun a => a.name == name with
    | some a =>
      throw (.misplaced .nodes (some (.firstAnchor name, some a.mark)) .secondAnchor mark)
    | none => modify fun s => { s with anchors := ⟨name, mark, none, false⟩ :: s.anchors }

/-- Gives a named node when all of it has been read. -/
def closeAnchor (name : Option String) (node : Node) : NodeReading Node := do
  match name with
  | none => return node
  | some name =>
    let refersToItself := (← get).anchors.any fun a => a.name == name && a.inside
    let whole := if refersToItself then node.closed name else node
    if refersToItself then
      modify fun s =>
        { s with anchors := s.anchors.map fun a =>
            { a with node := a.node.map (Node.filled name whole) } }
    updateAnchor name fun a => { a with node := some whole }
    return whole

/-- What is written in front of a node: its anchor, its tag, and the place where they start. -/
structure Properties where
  anchor : Option String
  tag : Option String
  mark : Option Mark

/-- The full form of a tag. -/
def fullTag (since mark : Mark) (handle : Option String) (rest : String) :
    NodeReading String := do
  match handle with
  | none => return rest
  | some handle =>
    match (← get).handles.lookup handle with
    | some start => return start ++ rest
    | none =>
      throw (.misplaced .grammar (some (.node, some since)) (.undefinedHandle handle) mark)

/-- Reads an anchor, if one is here. -/
def anchor? : NodeReading (Option String) := do
  match (← peek).kind with
  | .anchor name =>
    let _ ← take
    return some name
  | _ => return none

/-- Reads an anchor and a tag in either order, as far as they are here. -/
def properties : NodeReading Properties := do
  let first ← peek
  let before ← anchor?
  let second ← peek
  match second.kind with
  | .tag handle rest =>
    let _ ← take
    let anchor ← if before.isSome then pure before else anchor?
    let tag ← fullTag first.start second.start handle rest
    return ⟨anchor, some tag, some first.start⟩
  | _ => return ⟨before, none, before.map fun _ => first.start⟩

/-- Where a node stands: between brackets, on the lines of a document, or behind the key of an
entry, where a list may stand at the column of the key. -/
inductive Position where
  | flow
  | block
  | behindKey
  deriving DecidableEq, Repr

/-- The tag of a scalar. -/
def scalarTag (tag : Option String) (text : List Char) (plain : Bool) : String :=
  match tag with
  | none => if plain then Tag.ofText text else Tag.text
  | some t => if t = Tag.unspecific then Tag.ofText text else t

/-- The tag of a collection, `usual` unless another one is given. -/
def collectionTag (usual : String) (tag : Option String) : String :=
  match tag with
  | none => usual
  | some t => if t = Tag.unspecific then usual else t

mutual

/-- Reads a node. -/
def node (fuel : Nat) (position : Position) : NodeReading Node :=
  match fuel with
  | 0 => return .absent .start
  | fuel + 1 => do
    let first ← peek
    match first.kind with
    | .reference name =>
      let _ ← take
      refer name first.start
    | _ =>
      let p ← properties
      let next ← peek
      let mark := p.mark.getD next.start
      let inBlock := position != .flow
      match next.kind with
      | .scalar text plain =>
        let _ ← take
        openAnchor p.anchor mark
        closeAnchor p.anchor (.scalar (scalarTag p.tag text plain) text mark)
      | .flowSequenceStart =>
        openAnchor p.anchor mark
        let _ ← take
        let items ← flowItems fuel next.start true []
        closeAnchor p.anchor (.sequence (collectionTag Tag.sequence p.tag) items mark)
      | .flowMappingStart =>
        openAnchor p.anchor mark
        let _ ← take
        let entries ← flowEntries fuel next.start true []
        closeAnchor p.anchor (.mapping (collectionTag Tag.mapping p.tag) entries mark)
      | kind =>
        if kind = .blockEntry ∧ position = .behindKey then
          openAnchor p.anchor mark
          let items ← indentlessItems fuel []
          closeAnchor p.anchor (.sequence (collectionTag Tag.sequence p.tag) items mark)
        else if kind = .blockSequenceStart ∧ inBlock then
          openAnchor p.anchor mark
          let _ ← take
          let items ← blockItems fuel next.start []
          closeAnchor p.anchor (.sequence (collectionTag Tag.sequence p.tag) items mark)
        else if kind = .blockMappingStart ∧ inBlock then
          openAnchor p.anchor mark
          let _ ← take
          let entries ← blockEntries fuel next.start []
          closeAnchor p.anchor (.mapping (collectionTag Tag.mapping p.tag) entries mark)
        else if p.mark.isSome then
          openAnchor p.anchor mark
          closeAnchor p.anchor (.scalar (scalarTag p.tag [] true) [] mark)
        else failAt (if inBlock then .blockNode else .flowNode) mark .noContent

/-- Reads a node unless a token of one of the kinds comes, where nothing is written. -/
def nodeUnless (fuel : Nat) (position : Position) (kinds : List TokenKind) (place : Mark) :
    NodeReading Node :=
  match fuel with
  | 0 => return .absent .start
  | fuel + 1 => do
    if ← atAny kinds then return .absent place
    node fuel position

/-- Reads the value of an entry, if its sign is here. -/
def valueUnless (fuel : Nat) (position : Position) (kinds : List TokenKind) : NodeReading Node :=
  match fuel with
  | 0 => return .absent .start
  | fuel + 1 => do
    let t ← peek
    if t.kind = .value then
      let _ ← take
      nodeUnless fuel position kinds t.stop
    else return .absent t.start

/-- Reads the items of a list of the lines, behind those that have been read, the latest first. -/
def blockItems (fuel : Nat) (since : Mark) (items : List Node) : NodeReading (List Node) :=
  match fuel with
  | 0 => return items.reverse
  | fuel + 1 => do
    let t ← peek
    if t.kind = .blockEntry then
      let _ ← take
      let item ← nodeUnless fuel .block [.blockEntry, .blockEnd] t.stop
      blockItems fuel since (item :: items)
    else if t.kind = .blockEnd then
      let _ ← take
      return items.reverse
    else failAt .blockCollection since .noBlockEnd

/-- Reads the items of a list at the column of its key. -/
def indentlessItems (fuel : Nat) (items : List Node) : NodeReading (List Node) :=
  match fuel with
  | 0 => return items.reverse
  | fuel + 1 => do
    let t ← peek
    if t.kind = .blockEntry then
      let _ ← take
      let item ← nodeUnless fuel .block [.blockEntry, .key, .value, .blockEnd] t.stop
      indentlessItems fuel (item :: items)
    else return items.reverse

/-- Reads the entries of a mapping of the lines. -/
def blockEntries (fuel : Nat) (since : Mark) (entries : List (Node × Node)) :
    NodeReading (List (Node × Node)) :=
  match fuel with
  | 0 => return entries.reverse
  | fuel + 1 => do
    let t ← peek
    if t.kind = .key then
      let _ ← take
      let stops := [TokenKind.key, .value, .blockEnd]
      let key ← nodeUnless fuel .behindKey stops t.stop
      let value ← valueUnless fuel .behindKey stops
      blockEntries fuel since ((key, value) :: entries)
    else if t.kind = .blockEnd then
      let _ ← take
      return entries.reverse
    else failAt .blockMapping since .noBlockEnd

/-- Reads the items of a list between brackets.  A key among them starts a mapping of one entry. -/
def flowItems (fuel : Nat) (since : Mark) (first : Bool) (items : List Node) :
    NodeReading (List Node) :=
  match fuel with
  | 0 => return items.reverse
  | fuel + 1 => do
    if ← atAny [.flowSequenceEnd] then
      let _ ← take
      return items.reverse
    if !first then
      if ← atAny [.flowEntry] then
        let _ ← take
      else failAt .flowSequence since .noFlowSequenceEnd
    let t ← peek
    if t.kind = .key then
      let _ ← take
      let stops := [TokenKind.flowEntry, .flowSequenceEnd]
      let key ← nodeUnless fuel .flow (.value :: stops) t.stop
      let value ← valueUnless fuel .flow stops
      flowItems fuel since false (.mapping Tag.mapping [(key, value)] t.start :: items)
    else if t.kind = .flowSequenceEnd then
      let _ ← take
      return items.reverse
    else
      let item ← node fuel .flow
      flowItems fuel since false (item :: items)

/-- Reads the entries of a mapping between brackets.  What is no key is one without a value. -/
def flowEntries (fuel : Nat) (since : Mark) (first : Bool) (entries : List (Node × Node)) :
    NodeReading (List (Node × Node)) :=
  match fuel with
  | 0 => return entries.reverse
  | fuel + 1 => do
    if ← atAny [.flowMappingEnd] then
      let _ ← take
      return entries.reverse
    if !first then
      if ← atAny [.flowEntry] then
        let _ ← take
      else failAt .flowMapping since .noFlowMappingEnd
    let t ← peek
    if t.kind = .key then
      let _ ← take
      let stops := [TokenKind.flowEntry, .flowMappingEnd]
      let key ← nodeUnless fuel .flow (.value :: stops) t.stop
      let value ← valueUnless fuel .flow stops
      flowEntries fuel since false ((key, value) :: entries)
    else if t.kind = .flowMappingEnd then
      let _ ← take
      return entries.reverse
    else
      let key ← node fuel .flow
      flowEntries fuel since false ((key, .absent (← peek).start) :: entries)

end

end NodeReading

end Yaml
end QueryGate
