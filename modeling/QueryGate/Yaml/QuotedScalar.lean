import QueryGate.Text.Digit
import QueryGate.Yaml.PlainScalar

/-!
# Scalars between quotes

Between single quotes a doubled quote stands for one, between double quotes a backslash starts an
escape.  Breaks are folded as in scalars without quotes, and blanks around them do not count.
-/

namespace QueryGate
namespace Yaml

/-- The character that a letter behind a backslash stands for. -/
def escape? : Char → Option Char
  | '0' => some (Char.ofNat 0)
  | 'a' => some (Char.ofNat 7)
  | 'b' => some (Char.ofNat 8)
  | 't' => some '\t'
  | '\t' => some '\t'
  | 'n' => some '\n'
  | 'v' => some (Char.ofNat 11)
  | 'f' => some (Char.ofNat 12)
  | 'r' => some '\r'
  | 'e' => some (Char.ofNat 27)
  | ' ' => some ' '
  | '"' => some '"'
  | '\\' => some '\\'
  | '/' => some '/'
  | 'N' => some (Char.ofNat 0x85)
  | '_' => some (Char.ofNat 0xA0)
  | 'L' => some (Char.ofNat 0x2028)
  | 'P' => some (Char.ofNat 0x2029)
  | _ => none

/-- The number of digits of an escape by code point. -/
def escapeWidth : Char → Nat
  | 'x' => 2
  | 'u' => 4
  | 'U' => 8
  | _ => 0

/-- Whether a character stands for itself between quotes of any kind. -/
def isOrdinary (c : Char) : Bool := !isGap c && c != '\'' && c != '"' && c != '\\'

open Reading

/-- The breaks on empty lines; the mark of a document must not come. -/
def quotedBreaks (since : Mark) : Nat → Reading (List Char)
  | 0 => return []
  | fuel + 1 => do
    if ← atDocumentMark then failAt .quoted since .documentMarkInside
    let _ ← takeWhile fun c => c == ' ' || c == '\t'
    match ← lineBreak? with
    | none => return []
    | some b => return b :: (← quotedBreaks since fuel)

/-- Reads digits of base sixteen, as many as an escape has; the first character that is none is the
fault. -/
def hexNumber (activity : Activity) (since : Mark) (expected : Expected) (width : Nat) :
    Reading Nat := do
  let cs := ((← get).rest.take width)
  let padded := cs ++ List.replicate (width - cs.length) endChar
  match padded.find? fun c => (Text.hexValue? c).isNone with
  | some found => failAt activity since (.unexpected expected found)
  | none =>
    skip width
    return cs.foldl (fun n c => 16 * n + (Text.hexValue? c).getD 0) 0

/-- Whether a code point is the first half of a pair. -/
def isHighHalf (n : Nat) : Bool := decide (0xD800 ≤ n ∧ n < 0xDC00)

/-- Whether a code point is the second half of a pair. -/
def isLowHalf (n : Nat) : Bool := decide (0xDC00 ≤ n ∧ n < 0xE000)

/-- The second half of a pair, when the next characters are an escape of one. -/
def lowHalfAhead? : List Char → Option Nat
  | '\\' :: 'u' :: a :: b :: c :: d :: _ => do
    let digits ← [a, b, c, d].mapM Text.hexValue?
    let n := digits.foldl (fun n d => 16 * n + d) 0
    if isLowHalf n then some n else none
  | _ => none

/-- The character of a code point in an escape.  Two halves of a pair are one character, and a half
alone has none of its own. -/
def codePoint (n : Nat) : Reading Char := do
  if isHighHalf n then
    match lowHalfAhead? (← get).rest with
    | some low =>
      skip 6
      return Char.ofNat (0x10000 + 0x400 * (n - 0xD800) + (low - 0xDC00))
    | none => return Text.replacementChar
  if isLowHalf n then return Text.replacementChar
  if n < 0x110000 then return Char.ofNat n
  throw (.scalar (if n < 0x80000000 then .codePoint else .largeCodePoint))

/-- Reads an escape behind its backslash. -/
def escape (since : Mark) : Reading (List Char) := do
  let c ← peek
  match escape? c with
  | some meant =>
    skip 1
    return [meant]
  | none =>
    let width := escapeWidth c
    if 0 < width then
      skip 1
      let n ← hexNumber .doubleQuoted since (.escapeDigits width) width
      return [← codePoint n]
    match ← lineBreak? with
    | some _ => quotedBreaks since (← left)
    | none => failAt .doubleQuoted since (.unknownEscape c)

/-- Reads the pieces of a scalar up to the next gap or the closing quote, the latest one first. -/
def quotedWord (quote : Char) (since : Mark) :
    Nat → List (List Char) → Reading (List (List Char))
  | 0, pieces => return pieces
  | fuel + 1, pieces => do
    let pieces := (← takeWhile isOrdinary) :: pieces
    let c ← peek
    if c = '\'' ∧ quote = '\'' ∧ (← peekAt 1) = '\'' then
      skip 2
      quotedWord quote since fuel (['\''] :: pieces)
    else if c = '\\' ∧ quote = '"' then
      skip 1
      let meant ← escape since
      quotedWord quote since fuel (meant :: pieces)
    else if isGap c ∨ c = quote then return pieces
    else
      skip 1
      quotedWord quote since fuel ([c] :: pieces)

/-- Reads the gap between two words of a scalar. -/
def quotedGap (since : Mark) : Reading (List Char) := do
  let blanks ← takeWhile fun c => c == ' ' || c == '\t'
  if (← peek) = endChar then failAt .quoted since .endOfStream
  match ← lineBreak? with
  | none => return blanks
  | some first => return foldBreaks first (← quotedBreaks since (← left))

/-- Reads the words and gaps of a scalar up to the closing quote. -/
def quotedWords (quote : Char) (since : Mark) : Nat → List (List Char) → Reading (List Char)
  | 0, pieces => return pieces.reverse.flatten
  | fuel + 1, pieces => do
    let pieces ← quotedWord quote since ((← left) + 1) pieces
    if (← peek) = quote then return pieces.reverse.flatten
    let gap ← quotedGap since
    quotedWords quote since fuel (gap :: pieces)

/-- Reads a scalar between quotes of the kind that is here. -/
def quotedScalar : Reading (List Char) := do
  let since ← mark
  let quote ← peek
  skip 1
  let text ← quotedWords quote since ((← left) + 1) []
  skip 1
  return text

end Yaml
end QueryGate
