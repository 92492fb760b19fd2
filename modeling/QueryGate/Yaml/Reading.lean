import QueryGate.Yaml.Fault

/-!
# Reading a configuration text

A `Reading` goes ahead in a text and gives what it has read, or stops at a fault.
-/

namespace QueryGate
namespace Yaml

/-- Goes ahead in a text and gives something, or stops at a fault. -/
abbrev Reading (α : Type) := StateT Cursor (Except Fault) α

namespace Reading

/-- The place that has been reached. -/
def mark : Reading Mark := return (← get).mark

/-- The next character. -/
def peek : Reading Char := return (← get).peek

/-- The character a number of places ahead. -/
def peekAt (k : Nat) : Reading Char := return (← get).peekAt k

/-- How many characters are left. -/
def left : Reading Nat := return (← get).rest.length

/-- Goes a number of characters ahead. -/
def skip (n : Nat) : Reading Unit := modify (Cursor.advance n)

/-- Reads the characters that satisfy a test. -/
def takeWhile (p : Char → Bool) : Reading (List Char) := do
  let cs := (← get).rest.takeWhile p
  skip cs.length
  return cs

/-- Goes over spaces. -/
def skipSpaces : Reading Unit := do
  let _ ← takeWhile (· == ' ')

/-- Goes over a comment, if one starts here. -/
def skipComment : Reading Unit := do
  if (← peek) == '#' then
    let _ ← takeWhile fun c => !isLineEnd c

/-- Reads a break, if one is here.  All breaks are line feeds but the two separators of the wider
character set, which stand for themselves. -/
def lineBreak? : Reading (Option Char) := do
  let c ← peek
  if !isBreak c then return none
  skip (if c = '\r' ∧ (← peekAt 1) = '\n' then 2 else 1)
  return some (if c.toNat = 0x2028 ∨ c.toNat = 0x2029 then c else '\n')

/-- Whether the mark of a document's start or end is here. -/
def atDocumentMark : Reading Bool := return (← get).atDocumentMark

/-- A fault of the tokens at the place that has been reached. -/
def failAt {α : Type} (activity : Activity) (since : Mark) (problem : Problem) : Reading α := do
  throw (.misplaced .tokens (some (activity, some since)) problem (← mark))

/-- A fault of the tokens: another character than the one that belongs here. -/
def unexpected {α : Type} (activity : Activity) (since : Mark) (expected : Expected) :
    Reading α := do
  failAt activity since (.unexpected expected (← peek))

/-- Goes over spaces and a comment to the end of the line, where nothing else may stand. -/
def restOfLine (activity : Activity) (since : Mark) : Reading Unit := do
  skipSpaces
  skipComment
  if !isLineEnd (← peek) then unexpected activity since .commentOrBreak
  let _ ← lineBreak?

end Reading

end Yaml
end QueryGate
