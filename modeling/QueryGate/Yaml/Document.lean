import QueryGate.Policy.Document
import QueryGate.Yaml.NodeValue

/-!
# Configuration texts

A configuration text has one document, perhaps with directives in front and marks around.
`Yaml.ofText` gives its value and `Policy.ofYaml` the allow-list that the value describes.
-/

namespace QueryGate
namespace Yaml

namespace NodeReading

/-- The short forms of tags that every document has. -/
def usualHandles : List (String × String) := [("!", "!"), ("!!", Tag.common)]

/-- Reads the directives in front of a document; `versioned` says that the version has come. -/
def directives : Nat → Bool → NodeReading Unit
  | 0, _ => return
  | fuel + 1, versioned => do
    let t ← peek
    match t.kind with
    | .directive d =>
      let _ ← take
      match d with
      | .version major _ =>
        if versioned then throw (.misplaced .grammar none .secondVersion t.start)
        if major ≠ 1 then throw (.misplaced .grammar none .otherVersion t.start)
        directives fuel true
      | .handle name start =>
        if ((← get).handles.lookup name).isSome then
          throw (.misplaced .grammar none (.secondHandle name) t.start)
        modify fun s => { s with handles := s.handles ++ [(name, start)] }
        directives fuel versioned
      | .reserved => directives fuel versioned
    | _ => return

/-- Reads directives and the mark of a document's start. -/
def documentStart : NodeReading Unit := do
  modify fun s => { s with handles := [] }
  directives (← left) false
  modify fun s => { s with handles := s.handles ++ usualHandles }
  let t ← peek
  if t.kind = .documentStart then
    let _ ← take
  else throw (.misplaced .grammar none (.noDocumentStart t.kind.name) t.start)

/-- Whether a token belongs to the frame of a document and not to its contents. -/
def isFrame : TokenKind → Bool
  | .directive _ => true
  | .documentStart => true
  | .documentEnd => true
  | .streamEnd => true
  | _ => false

/-- The number of steps that reading a number of tokens takes at most. -/
def steps (tokens : Nat) : Nat := 4 * tokens + 8

/-- Reads the root of a document, if there is one. -/
def root? : NodeReading (Option Node) := do
  let first ← peek
  if first.kind = .streamEnd then return none
  if isFrame first.kind ∧ first.kind ≠ .documentEnd then
    documentStart
    let next ← peek
    if isFrame next.kind then return some (.absent next.start)
  return some (← node (steps (← left)) .block)

/-- Goes over marks of a document's end. -/
def documentEnds : Nat → NodeReading Unit
  | 0 => return
  | fuel + 1 => do
    if ← atAny [.documentEnd] then
      let _ ← take
      documentEnds fuel

/-- Makes sure that no document follows. -/
def finish (root : Node) : NodeReading Unit := do
  documentEnds (← left)
  let t ← peek
  if t.kind ≠ .streamEnd then
    documentStart
    throw (.misplaced .nodes (some (.onlyDocument, some root.mark)) .anotherDocument t.start)

/-- Reads the only document. -/
def document? : NodeReading (Option Node) := do
  match ← root? with
  | none => return none
  | some root =>
    finish root
    return some root

end NodeReading

/-- The characters that a text may hold. -/
def isReadable (c : Char) : Bool :=
  let n := c.toNat
  n == 9 || n == 10 || n == 13 || (0x20 ≤ n && n ≤ 0x7E) || n == 0x85 ||
    (0xA0 ≤ n && n ≤ 0xD7FF) || (0xE000 ≤ n && n ≤ 0xFFFD) || 0x10000 ≤ n

/-- The value of a text; a text without a document has nothing. -/
def ofText (text : List Char) : Except Fault Value := do
  let readable := text.takeWhile isReadable
  match text.drop readable.length with
  | c :: _ => throw (.unreadable c readable.length)
  | [] =>
    let tokens := Tokens.ofText text
    let source : NodeSource := ⟨tokens.list, tokens.fault, [], NodeReading.usualHandles⟩
    match ← NodeReading.document?.run' source with
    | none => return .null
    | some root => root.toValue

end Yaml

namespace Policy

/-- Why a text is no allow-list. -/
inductive TextFault where
  | malformed (fault : Yaml.Fault)
  | document (fault : DocumentFault)
  deriving DecidableEq

/-- The message of a fault of a text. -/
def TextFault.message (text : String) : TextFault → String
  | .malformed fault => fault.message text.toList
  | .document fault => fault.message

/-- Reads an allow-list out of a configuration text. -/
def ofYaml (text : String) : Except TextFault AllowList := do
  let document ← (Yaml.ofText text.toList).mapError .malformed
  (ofDocument (if document.truthy then document else .map [])).mapError .document

end Policy
end QueryGate
