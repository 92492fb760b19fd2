import QueryGate.Text.Digit
import QueryGate.Yaml.PlainScalar

/-!
# Scalars of whole lines

A scalar can be the lines below its mark that are indented deeper than what it belongs to.  Its
breaks are kept or folded, and those at its end are kept, dropped, or reduced to one.
-/

namespace QueryGate
namespace Yaml

/-- What becomes of the breaks at the end of a scalar. -/
inductive Chomping where
  | one
  | keep
  | drop
  deriving DecidableEq, Repr

open Reading

/-- Reads a sign for the breaks at the end, if one is here. -/
def chomping? : Reading (Option Chomping) := do
  match ← peek with
  | '+' => skip 1; return some .keep
  | '-' => skip 1; return some .drop
  | _ => return none

/-- Reads a digit for the indentation, if one is here. -/
def indentation? (since : Mark) : Reading (Option Nat) := do
  let c ← peek
  if !Text.isAsciiDigit c then return none
  if c = '0' then failAt .blockScalar since .zeroIndentation
  skip 1
  return some (c.toNat - 48)

/-- Reads the signs behind the mark of a scalar, in either order. -/
def blockHeader (since : Mark) : Reading (Chomping × Option Nat) := do
  let before ← chomping?
  let indentation ← indentation? since
  let chomping ← if before.isNone ∧ indentation.isSome then chomping? else pure before
  if !((← peek) == ' ' || isLineEnd (← peek)) then unexpected .blockScalar since .blockIndicators
  return (chomping.getD .one, indentation)

/-- Reads the empty lines in front, and finds the deepest column of their ends. -/
def leadingBreaks : Nat → Nat → List Char → Reading (List Char × Nat)
  | 0, deepest, breaks => return (breaks, deepest)
  | fuel + 1, deepest, breaks => do
    skipSpaces
    let deepest := max deepest (← mark).column
    match ← lineBreak? with
    | none => return (breaks, deepest)
    | some b => leadingBreaks fuel deepest (breaks ++ [b])

/-- Goes over spaces up to a column. -/
def skipIndentation (column : Nat) : Reading Unit := do
  let here ← get
  skip ((here.rest.take (column - here.mark.column)).takeWhile (· == ' ')).length

/-- Reads empty lines between lines that are indented to a column. -/
def blockBreaks (column : Nat) : Nat → List Char → Reading (List Char)
  | 0, breaks => return breaks
  | fuel + 1, breaks => do
    skipIndentation column
    match ← lineBreak? with
    | none => return breaks
    | some b => blockBreaks column fuel (breaks ++ [b])

/-- Whether a line at the column is here. -/
def atLine (column : Nat) : Reading Bool := do
  return (← mark).column == column && (← peek) != endChar

/-- The lines of a scalar, with the break behind the last one and the breaks on the empty lines
that follow. -/
structure BlockLines where
  text : List Char
  last : List Char
  breaks : List Char
  deriving DecidableEq, Repr

/-- Reads the lines of a scalar at a column, behind pieces that have been read and the breaks on
empty lines in front. -/
def blockLines (folded : Bool) (column : Nat) :
    Nat → List (List Char) → List Char → Reading BlockLines
  | 0, pieces, breaks => return ⟨pieces.reverse.flatten, [], breaks⟩
  | fuel + 1, pieces, breaks => do
    if !(← atLine column) then return ⟨pieces.reverse.flatten, [], breaks⟩
    let inked := (← peek) != ' ' && (← peek) != '\t'
    let line ← takeWhile fun c => !isLineEnd c
    let last := (← lineBreak?).toList
    let pieces := line :: breaks :: pieces
    let breaks ← blockBreaks column (← left) []
    if !(← atLine column) then return ⟨pieces.reverse.flatten, last, breaks⟩
    let joint :=
      if folded && last == ['\n'] && inked && (← peek) != ' ' && (← peek) != '\t' then
        if breaks.isEmpty then [' '] else []
      else last
    blockLines folded column fuel (joint :: pieces) breaks

/-- Reads a scalar of whole lines, of which at least `least` columns are indentation. -/
def blockScalar (least : Nat) : Reading (List Char) := do
  let since ← mark
  let folded := (← peek) == '>'
  skip 1
  let (chomping, indentation) ← blockHeader since
  restOfLine .blockScalar since
  let least := max least 1
  let (breaks, column) ← match indentation with
    | some n => do
      let column := least + n - 1
      pure (← blockBreaks column (← left) [], column)
    | none => do
      let (breaks, deepest) ← leadingBreaks (← left) 0 []
      pure (breaks, max least deepest)
  let lines ← blockLines folded column (← left) [] breaks
  return match chomping with
    | .one => lines.text ++ lines.last
    | .keep => lines.text ++ lines.last ++ lines.breaks
    | .drop => lines.text

end Yaml
end QueryGate
