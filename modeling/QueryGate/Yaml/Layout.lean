import QueryGate.Yaml.BlockScalar
import QueryGate.Yaml.Property
import QueryGate.Yaml.QuotedScalar
import QueryGate.Yaml.Token

/-!
# The tokens of a configuration text

Whether a token starts the key of an entry shows only at the colon behind it.  `Layout` keeps
the places where a key can have started, one for each level of brackets, and the tokens that wait
for the answer; `Layout.release` gives those that nothing can change anymore.  The other tokens
without a sign of their own are the starts and ends of lists and mappings by indentation, which
follow from the columns of the open ones.
-/

namespace QueryGate
namespace Yaml

/-- A place where a key can have started: the number of its first token, and whether it must be one
because nothing else can stand there. -/
structure PossibleKey where
  number : Nat
  mark : Mark
  required : Bool
  deriving DecidableEq, Repr

/-- What is known at a place of a text. -/
structure Layout where
  cursor : Cursor
  /-- The columns of the open lists and mappings, the innermost first. -/
  blocks : List Nat
  /-- The possible key on this level of brackets. -/
  key : Option PossibleKey
  /-- The possible keys on the levels around, the innermost first. -/
  outerKeys : List (Option PossibleKey)
  /-- Whether a key can start here. -/
  keyAllowed : Bool
  /-- The number of tokens that have been given. -/
  given : Nat
  /-- The tokens that wait. -/
  pending : List Token
  ended : Bool

namespace Layout

/-- The start of a text. -/
def ofText (text : List Char) : Layout := ⟨.ofText text, [], none, [], true, 0, [], false⟩

/-- Whether a place is inside brackets. -/
def inFlow (l : Layout) : Bool := !l.outerKeys.isEmpty

/-- The least column of what belongs to the innermost open list or mapping. -/
def least (l : Layout) : Nat := (l.blocks.head?.map (· + 1)).getD 0

/-- All possible keys. -/
def keys (l : Layout) : List PossibleKey := (l.key :: l.outerKeys).filterMap id

/-- How far behind its start a key can end. -/
def longestKey : Nat := 1024

/-- Whether a possible key is too far behind, on another line or by its length. -/
def isStale (l : Layout) (k : PossibleKey) : Bool :=
  k.mark.line != l.cursor.mark.line || longestKey < l.cursor.mark.index - k.mark.index

/-- Gives the tokens that nothing can change anymore. -/
def release (l : Layout) : List Token × Layout :=
  let ready := match (l.keys.map (·.number)).min? with
    | some first => first - l.given
    | none => l.pending.length
  (l.pending.take ready,
    { l with pending := l.pending.drop ready, given := l.given + min ready l.pending.length })

end Layout

/-- A step through a text. -/
abbrev LayoutStep (α : Type) := StateT Layout (Except Fault) α

namespace LayoutStep

/-- Reads something at the place that has been reached. -/
def reading {α : Type} (r : Reading α) : LayoutStep α := do
  let l ← get
  let (a, cursor) ← r.run l.cursor
  set { l with cursor }
  return a

/-- The place that has been reached. -/
def mark : LayoutStep Mark := return (← get).cursor.mark

/-- Appends a token. -/
def push (kind : TokenKind) (start stop : Mark) : LayoutStep Unit :=
  modify fun l => { l with pending := l.pending ++ [⟨kind, start, stop⟩] }

/-- Appends a token without characters. -/
def pushHere (kind : TokenKind) : LayoutStep Unit := do
  let m ← mark
  push kind m m

/-- Appends a token of a number of characters and goes over them. -/
def pushSign (kind : TokenKind) (width : Nat) : LayoutStep Unit := do
  let start ← mark
  reading (Reading.skip width)
  push kind start (← mark)

/-- Says whether a key can start behind the token. -/
def allowKey (allowed : Bool) : LayoutStep Unit := modify fun l => { l with keyAllowed := allowed }

/-- A fault at the place that has been reached. -/
def failHere {α : Type} (problem : Problem) : LayoutStep α := do
  throw (.misplaced .tokens none problem (← mark))

/-- A key without a colon. -/
def failKey {α : Type} (k : PossibleKey) : LayoutStep α := do
  throw (.misplaced .tokens (some (.simpleKey, some k.mark)) .noColon (← mark))

/-- Gives up the possible keys that are too far behind. -/
def dropStale : LayoutStep Unit := do
  let l ← get
  match l.keys.find? fun k => l.isStale k && k.required with
  | some k => failKey k
  | none =>
    let fresh (k : Option PossibleKey) : Option PossibleKey := k.filter fun k => !l.isStale k
    set { l with key := fresh l.key, outerKeys := l.outerKeys.map fresh }

/-- Gives up the possible key on this level. -/
def dropKey : LayoutStep Unit := do
  match (← get).key with
  | some k =>
    if k.required then failKey k
    modify fun l => { l with key := none }
  | none => return

/-- Notes that a key can start with the next token. -/
def noteKey : LayoutStep Unit := do
  let l ← get
  if l.keyAllowed then
    dropKey
    let m := l.cursor.mark
    let required := !l.inFlow && l.blocks.head? == some m.column
    modify fun l => { l with key := some ⟨l.given + l.pending.length, m, required⟩ }

/-- Ends the lists and mappings that are indented deeper than the columns that `stays` says. -/
def closeBlocks (stays : Nat → Bool) : LayoutStep Unit := do
  let l ← get
  if !l.inFlow then
    let closed := l.blocks.takeWhile fun column => !stays column
    set { l with blocks := l.blocks.drop closed.length }
    closed.forM fun _ => pushHere .blockEnd

/-- Ends all lists and mappings. -/
def closeAllBlocks : LayoutStep Unit := closeBlocks fun _ => false

/-- Opens a list or mapping at a column, unless one is open there, and tells whether it did. -/
def openBlock (column : Nat) : LayoutStep Bool := do
  let l ← get
  if l.least ≤ column then
    set { l with blocks := column :: l.blocks }
    return true
  else return false

/-- Goes over blanks, comments and breaks; behind a break outside of brackets a key can start. -/
def skipToToken : Nat → LayoutStep Unit
  | 0 => return
  | fuel + 1 => do
    reading Reading.skipSpaces
    reading Reading.skipComment
    if (← reading Reading.lineBreak?).isSome then
      if !(← get).inFlow then allowKey true
      skipToToken fuel

/-- Ends the text. -/
def endStream : LayoutStep Unit := do
  closeAllBlocks
  dropKey
  modify fun l =>
    { l with keyAllowed := false, key := none, outerKeys := l.outerKeys.map fun _ => none }
  pushHere .streamEnd
  modify fun l => { l with ended := true }

/-- Takes a directive. -/
def takeDirective : LayoutStep Unit := do
  closeAllBlocks
  dropKey
  allowKey false
  let start ← mark
  let (d, stop) ← reading directiveLine
  push (.directive d) start stop

/-- Takes the mark of a document's start or end. -/
def takeDocumentMark (kind : TokenKind) : LayoutStep Unit := do
  closeAllBlocks
  dropKey
  allowKey false
  pushSign kind 3

/-- Takes an opening bracket. -/
def openFlow (kind : TokenKind) : LayoutStep Unit := do
  noteKey
  modify fun l => { l with key := none, outerKeys := l.key :: l.outerKeys }
  allowKey true
  pushSign kind 1

/-- Takes a closing bracket. -/
def closeFlow (kind : TokenKind) : LayoutStep Unit := do
  dropKey
  modify fun l => { l with key := l.outerKeys.headD none, outerKeys := l.outerKeys.drop 1 }
  allowKey false
  pushSign kind 1

/-- Takes a comma between brackets. -/
def takeFlowEntry : LayoutStep Unit := do
  allowKey true
  dropKey
  pushSign .flowEntry 1

/-- Opens a list or mapping here, where a key could start. -/
def openBlockHere (kind : TokenKind) (problem : Problem) : LayoutStep Unit := do
  let l ← get
  if !l.inFlow then
    if !l.keyAllowed then failHere problem
    if ← openBlock l.cursor.mark.column then pushHere kind

/-- Takes the hyphen of an item. -/
def takeBlockEntry : LayoutStep Unit := do
  openBlockHere .blockSequenceStart .listEntryHere
  allowKey true
  dropKey
  pushSign .blockEntry 1

/-- Takes the question mark of a key. -/
def takeKey : LayoutStep Unit := do
  openBlockHere .blockMappingStart .mappingKeyHere
  allowKey !(← get).inFlow
  dropKey
  pushSign .key 1

/-- Puts a token without characters in front of a possible key. -/
def insertBefore (k : PossibleKey) (kind : TokenKind) : LayoutStep Unit :=
  modify fun l =>
    let (before, behind) := l.pending.splitAt (k.number - l.given)
    { l with pending := before ++ ⟨kind, k.mark, k.mark⟩ :: behind }

/-- Takes the colon of an entry, which shows that the possible key on this level is one. -/
def takeValue : LayoutStep Unit := do
  let l ← get
  match l.key with
  | some k =>
    modify fun l => { l with key := none }
    insertBefore k .key
    if !l.inFlow then
      if ← openBlock k.mark.column then insertBefore k .blockMappingStart
    allowKey false
  | none =>
    openBlockHere .blockMappingStart .mappingValueHere
    allowKey !l.inFlow
    dropKey
  pushSign .value 1

/-- Takes an anchor, a reference or a tag. -/
def takeProperty (kind : Reading TokenKind) : LayoutStep Unit := do
  noteKey
  allowKey false
  let start ← mark
  let kind ← reading kind
  push kind start (← mark)

/-- Takes a scalar of whole lines. -/
def takeBlockScalar : LayoutStep Unit := do
  allowKey true
  dropKey
  let start ← mark
  let text ← reading (blockScalar (← get).least)
  push (.scalar text false) start (← mark)

/-- Takes a scalar between quotes. -/
def takeQuoted : LayoutStep Unit := do
  noteKey
  allowKey false
  let start ← mark
  let text ← reading quotedScalar
  push (.scalar text false) start (← mark)

/-- Takes a scalar without quotes. -/
def takePlain : LayoutStep Unit := do
  noteKey
  let l ← get
  let s ← reading (plainScalar l.inFlow l.least)
  allowKey s.broken
  push (.scalar s.text true) l.cursor.mark s.stop

/-- Whether a scalar without quotes can start here. -/
def startsPlain (inFlow : Bool) (c next : Char) : Bool :=
  if c == '-' then !isGap next
  else if c == '?' || c == ':' then !isGap next && !inFlow
  else !isGap c && !isFlowMark c && !"#&*!|>'\"%@\x60".toList.contains c

/-- Takes the token that starts here. -/
def takeToken : LayoutStep Unit := do
  let l ← get
  let c := l.cursor.peek
  let next := l.cursor.peekAt 1
  let flow := l.inFlow
  let lineStart := l.cursor.mark.column == 0
  if c = endChar then endStream
  else if c = '%' ∧ lineStart then takeDirective
  else if c = '-' ∧ lineStart ∧ l.cursor.atDocumentMark then takeDocumentMark .documentStart
  else if c = '.' ∧ lineStart ∧ l.cursor.atDocumentMark then takeDocumentMark .documentEnd
  else if c = '[' then openFlow .flowSequenceStart
  else if c = Char.ofNat 0x7B then openFlow .flowMappingStart
  else if c = ']' then closeFlow .flowSequenceEnd
  else if c = Char.ofNat 0x7D then closeFlow .flowMappingEnd
  else if c = ',' then takeFlowEntry
  else if c = '-' ∧ isGap next then takeBlockEntry
  else if c = '?' ∧ (flow ∨ isGap next) then takeKey
  else if c = ':' ∧ (flow ∨ isGap next) then takeValue
  else if c = '*' ∨ c = '&' then takeProperty anchorKind
  else if c = '!' then takeProperty tagKind
  else if (c = '|' ∨ c = '>') ∧ !flow then takeBlockScalar
  else if c = '\'' ∨ c = '"' then takeQuoted
  else if startsPlain flow c next then takePlain
  else throw (.misplaced .tokens (some (.nextToken, none)) (.startsNothing c) l.cursor.mark)

/-- Goes to the next token and takes it. -/
def step : LayoutStep Unit := do
  skipToToken ((← get).cursor.rest.length + 1)
  dropStale
  let column := (← mark).column
  closeBlocks fun block => block ≤ column
  takeToken

end LayoutStep

/-- The tokens of a text, up to its end or to the first fault. -/
structure Tokens where
  list : List Token
  fault : Option Fault

/-- Takes tokens up to the end of a text; `soFar` are those that have been given, the latest one
first. -/
def Tokens.take (soFar : List Token) : Nat → Layout → Tokens
  | 0, _ => ⟨soFar.reverse, none⟩
  | fuel + 1, l =>
    match (LayoutStep.step *> LayoutStep.dropStale).run l with
    | .error fault => ⟨soFar.reverse, some fault⟩
    | .ok (_, l) =>
      let (ready, l) := l.release
      let soFar := ready.reverse ++ soFar
      if l.ended then ⟨soFar.reverse, none⟩ else Tokens.take soFar fuel l

/-- The tokens of a text. -/
def Tokens.ofText (text : List Char) : Tokens :=
  let start := Layout.ofText text
  let marked := text.head? = some orderMark
  Tokens.take [] (text.length + 1)
    (if marked then { start with cursor := start.cursor.advance 1 } else start)

end Yaml
end QueryGate
