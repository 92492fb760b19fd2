import QueryGate.Text.Digit
import QueryGate.Text.Utf8
import QueryGate.Yaml.QuotedScalar
import QueryGate.Yaml.Token

/-!
# Anchors, tags and directives

An anchor names a node so that it can be referred to; a tag says of what kind it is; a directive
stands in front of a document and gives the version or a short form for tags.
-/

namespace QueryGate
namespace Yaml

/-- A letter, a digit, a hyphen or an underscore of the ASCII range. -/
def isNameChar (c : Char) : Bool := c.isAlphanum || c == '-' || c == '_'

/-- The characters of an address. -/
def isAddressChar (c : Char) : Bool :=
  isNameChar c || ";/?:@&=+$,.!~*'()[]%".toList.contains c

open Reading

/-- Reads a name that something else may follow only if `follows` says so. -/
def propertyName (activity : Activity) (since : Mark) (follows : Char → Bool) :
    Reading String := do
  let cs ← takeWhile isNameChar
  if cs.isEmpty ∨ !follows (← peek) then unexpected activity since .nameChar
  return String.ofList cs

/-- Whether a character may follow the name of an anchor. -/
def followsAnchor (c : Char) : Bool := isGap c || "?:,]%@\x60\x7d".toList.contains c

/-- A space or the end of a line. -/
def isSpaceOrEnd (c : Char) : Bool := c == ' ' || isLineEnd c

/-- Reads an anchor, or a reference to one. -/
def anchorKind : Reading TokenKind := do
  let since ← mark
  let isReference := (← peek) == '*'
  skip 1
  if isReference then return .reference (← propertyName .reference since followsAnchor)
  else return .anchor (← propertyName .anchor since followsAnchor)

/-- Reads octets that are written with percent signs. -/
def addressEscapes (activity : Activity) (since : Mark) :
    Nat → List UInt8 → Reading (List UInt8)
  | 0, octets => return octets
  | fuel + 1, octets => do
    if (← peek) ≠ '%' then return octets
    skip 1
    let n ← hexNumber activity since .addressEscape 2
    addressEscapes activity since fuel (octets ++ [UInt8.ofNat n])

/-- Reads the pieces of an address. -/
def addressPieces (activity : Activity) (since : Mark) : Nat → List Char → Reading (List Char)
  | 0, soFar => return soFar
  | fuel + 1, soFar => do
    let plain ← takeWhile fun c => isAddressChar c && c != '%'
    if (← peek) ≠ '%' then return soFar ++ plain
    let here ← mark
    match Text.decode (← addressEscapes activity since (← left) []) with
    | .ok escaped => addressPieces activity since fuel (soFar ++ plain ++ escaped)
    | .error fault => throw (.misplaced .tokens (some (activity, some since)) (.notText fault) here)

/-- Reads an address. -/
def tagAddress (inDirective : Bool) (since : Mark) : Reading String := do
  let cs ← addressPieces (if inDirective then .directive else .tag) since ((← left) + 1) []
  if cs.isEmpty then
    unexpected (if inDirective then .directiveAddress else .tagAddress) since .address
  return String.ofList cs

/-- Reads the handle that a tag starts with: exclamation marks around a name, or one alone. -/
def tagHandle (activity : Activity) (since : Mark) : Reading String := do
  if (← peek) ≠ '!' then unexpected activity since .exclamation
  if (← peekAt 1) = ' ' then
    skip 1
    return "!"
  let cs := ((← get).rest.drop 1).takeWhile isNameChar
  skip (1 + cs.length)
  if (← peek) ≠ '!' then unexpected activity since .exclamation
  skip 1
  return String.ofList ('!' :: cs ++ ['!'])

/-- Reads a tag: an address in angles, an exclamation mark alone, or a handle and an address. -/
def tagKind : Reading TokenKind := do
  let since ← mark
  let c ← peekAt 1
  let kind : TokenKind ←
    if c = '<' then do
      skip 2
      let rest ← tagAddress false since
      if (← peek) ≠ '>' then unexpected .tagAddress since .closingAngle
      skip 1
      pure (.tag none rest)
    else if isGap c then do
      skip 1
      pure (.tag none "!")
    else do
      let ahead := ((← get).rest.drop 1).takeWhile fun c => !isSpaceOrEnd c
      let start ← if ahead.contains '!' then tagHandle .tag since else do
        skip 1
        pure "!"
      pure (.tag (some start) (← tagAddress false since))
  if !isSpaceOrEnd (← peek) then unexpected .tag since .space
  return kind

/-- Reads a number of the version. -/
def versionNumber (since : Mark) : Reading Nat := do
  let ds ← takeWhile Text.isAsciiDigit
  if ds.isEmpty then unexpected .directive since .digit
  return Text.digitsValue ds

/-- Reads what a directive says. -/
def directiveBody (since : Mark) (name : String) : Reading Directive := do
  if name = "YAML" then
    skipSpaces
    let major ← versionNumber since
    if (← peek) ≠ '.' then unexpected .directive since .digitOrPoint
    skip 1
    let minor ← versionNumber since
    if !isSpaceOrEnd (← peek) then unexpected .directive since .digitOrSpace
    return .version major minor
  else if name = "TAG" then
    skipSpaces
    let name ← tagHandle .directive since
    if (← peek) ≠ ' ' then unexpected .directive since .space
    skipSpaces
    let full ← tagAddress true since
    if !isSpaceOrEnd (← peek) then unexpected .directive since .space
    return .handle name full
  else
    let _ ← takeWhile fun c => !isLineEnd c
    return .reserved

/-- Reads a directive, with the place where it stops; the rest of its line is gone over. -/
def directiveLine : Reading (Directive × Mark) := do
  let since ← mark
  skip 1
  let name ← propertyName .directive since isSpaceOrEnd
  let body ← directiveBody since name
  let stop ← mark
  restOfLine .directive since
  return (body, stop)

end Yaml
end QueryGate
