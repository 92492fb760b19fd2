import QueryGate.Yaml.Reading

/-!
# Scalars without quotes

A scalar without quotes goes on over lines as long as they are indented; a break between two lines
is a space, and empty lines are breaks.  In brackets it also ends at their marks.
-/

namespace QueryGate
namespace Yaml

/-- Brackets and commas. -/
def isFlowMark (c : Char) : Bool :=
  c == ',' || c == '[' || c == ']' || c == Char.ofNat 0x7B || c == Char.ofNat 0x7D

/-- Whether a colon with this behind it separates a key from its value. -/
def separates (inFlow : Bool) (rest : List Char) : Bool :=
  let c := rest.headD endChar
  isGap c || (inFlow && isFlowMark c)

/-- The characters of a scalar up to the next gap. -/
def plainWord (inFlow : Bool) : List Char → List Char
  | [] => []
  | c :: r =>
    if isGap c || (c == ':' && separates inFlow r) || (inFlow && (isFlowMark c || c == '?')) then []
    else c :: plainWord inFlow r

/-- What is between two words of a scalar: the characters that it stands for, none where the scalar
ends, and whether there was a break. -/
structure PlainGap where
  chars : List Char
  broken : Bool
  deriving DecidableEq, Repr

open Reading

/-- The breaks on the lines before the next word, none when a document's mark comes first. -/
def plainBreaks : Nat → Reading (Option (List Char))
  | 0 => return some []
  | fuel + 1 => do
    skipSpaces
    match ← lineBreak? with
    | none => return some []
    | some b =>
      if ← atDocumentMark then return none
      return (← plainBreaks fuel).map (b :: ·)

/-- What a break with further breaks behind it stands for between two words. -/
def foldBreaks (first : Char) (more : List Char) : List Char :=
  if first ≠ '\n' then first :: more else if more.isEmpty then [' '] else more

/-- Reads what is between two words of a scalar. -/
def plainGap : Reading PlainGap := do
  let blanks ← takeWhile (· == ' ')
  match ← lineBreak? with
  | none => return ⟨blanks, false⟩
  | some first =>
    if ← atDocumentMark then return ⟨[], true⟩
    match ← plainBreaks (← left) with
    | none => return ⟨[], true⟩
    | some more => return ⟨foldBreaks first more, true⟩

/-- A scalar without quotes: its text, the place where it stops, and whether the gap behind it goes
over a break. -/
structure PlainScalar where
  text : List Char
  stop : Mark
  broken : Bool
  deriving DecidableEq, Repr

/-- Reads the words of a scalar that goes on behind `gap`; lines belong to it that are indented by
`least` or more.  `stop` and `broken` tell of what has been read. -/
def plainWords (inFlow : Bool) (least : Nat) :
    Nat → List (List Char) → List Char → Mark → Bool → Reading PlainScalar
  | 0, pieces, _, stop, broken => return ⟨pieces.reverse.flatten, stop, broken⟩
  | fuel + 1, pieces, gap, stop, broken => do
    let word := plainWord inFlow (← get).rest
    if word.isEmpty ∨ (← peek) = '#' then return ⟨pieces.reverse.flatten, stop, broken⟩
    skip word.length
    let stop ← mark
    let next ← plainGap
    let pieces := word :: gap :: pieces
    let here ← get
    if next.chars.isEmpty ∨ here.peek = '#' ∨ (!inFlow ∧ here.mark.column < least) then
      return ⟨pieces.reverse.flatten, stop, next.broken⟩
    plainWords inFlow least fuel pieces next.chars stop next.broken

/-- Reads a scalar without quotes. -/
def plainScalar (inFlow : Bool) (least : Nat) : Reading PlainScalar := do
  plainWords inFlow least (← left) [] [] (← mark) false

end Yaml
end QueryGate
