import QueryGate.Number.Binary64
import QueryGate.Text.Blank
import QueryGate.Text.Case
import QueryGate.Text.Digit

/-!
# Decimal numbers

Numbers as they are written: a sign, a coefficient and a power of ten, so that `1.50` and `1.5`
stay apart.  `ofText?` reads the numeral grammar, `text` writes it, and `toBinary64` gives the
nearest double.
-/

namespace QueryGate

/-- A decimal: `± coefficient * 10 ^ exponent`, an infinity, or not a number. -/
inductive Decimal where
  | finite (negative : Bool) (coefficient : Nat) (exponent : Int)
  | infinite (negative : Bool)
  | nan (negative signaling : Bool) (payload : Nat)
  deriving DecidableEq, Repr, Inhabited

namespace Decimal

open Text

/-- The largest exponent of a first digit. -/
def maxFirst : Int := 999999999999999999

/-- The smallest exponent of a last digit. -/
def minLast : Int := -1999999999999999997

/-- The exponent of the first digit of a coefficient. -/
def firstExponent (coefficient : Nat) (exponent : Int) : Int :=
  exponent + ((Nat.toDigits 10 coefficient).length : Int) - 1

/-- A sign in front of a text. -/
def splitSign : List Char → Bool × List Char
  | '-' :: r => (true, r)
  | '+' :: r => (false, r)
  | r => (false, r)

/-- An exponent part: nothing, or `e` with a signed run of digits. -/
def exponent? : List Char → Option Int
  | [] => some 0
  | 'e' :: r =>
    let (negative, ds) := splitSign r
    if isDigits ds then
      let n : Int := digitsValue ds
      some (if negative then -n else n)
    else none
  | _ => none

/-- An unsigned numeral of any scale: digits with at most one point, then an exponent part. -/
def numeral? (negative : Bool) (cs : List Char) : Option Decimal :=
  let whole := cs.takeWhile isAsciiDigit
  let rest := cs.dropWhile isAsciiDigit
  let (places, tail) := match rest with
    | '.' :: r => (r.takeWhile isAsciiDigit, r.dropWhile isAsciiDigit)
    | r => ([], r)
  if whole.isEmpty && places.isEmpty then none
  else
    (exponent? tail).map fun e =>
      .finite negative (digitsValue (whole ++ places)) (e - (places.length : Int))

/-- Whether the scale of a decimal is one that is kept. -/
def isKept : Decimal → Bool
  | .finite _ coefficient exponent =>
    decide (minLast ≤ exponent ∧ firstExponent coefficient exponent ≤ maxFirst)
  | _ => true

/-- An unsigned numeral of a scale that is kept. -/
def unsigned? (negative : Bool) (cs : List Char) : Option Decimal :=
  (numeral? negative cs).filter isKept

/-- The words for infinities and for what is not a number, with an optional payload. -/
def special? (negative : Bool) (cs : List Char) : Option Decimal :=
  if cs = ['i', 'n', 'f'] ∨ cs = ['i', 'n', 'f', 'i', 'n', 'i', 't', 'y'] then
    some (.infinite negative)
  else
    match cs with
    | 'n' :: 'a' :: 'n' :: ds =>
      if ds.all isAsciiDigit then some (.nan negative false (digitsValue ds)) else none
    | 's' :: 'n' :: 'a' :: 'n' :: ds =>
      if ds.all isAsciiDigit then some (.nan negative true (digitsValue ds)) else none
    | _ => none

/-- Reads a numeral.  Blanks around it and underscores anywhere are ignored, the digits of every
script count, and so do the words for infinity and for what is not a number. -/
def ofText? (cs : List Char) : Option Decimal :=
  let plain := (asciiDigits (trim cs)).filter (· != '_') |>.map Char.toLower
  let (negative, r) := splitSign plain
  match unsigned? negative r with
  | some d => some d
  | none => special? negative r

/-- The double nearest to a decimal. -/
def toBinary64 : Decimal → Binary64
  | .nan _ _ _ => .nan
  | .infinite negative => .infinite negative
  | .finite negative coefficient exponent =>
    if coefficient = 0 then .ofRatio negative 0 1
    else
      let first := firstExponent coefficient exponent
      if 400 < first then .infinite negative
      else if first < -400 then .ofRatio negative 0 1
      else if 0 ≤ exponent then .ofRatio negative (coefficient * Nat.pow 10 exponent.toNat) 1
      else .ofRatio negative coefficient (Nat.pow 10 (-exponent).toNat)

/-- The unsigned text of a finite decimal: positional for small scales, else with an exponent. -/
def unsignedText (coefficient : Nat) (exponent : Int) : List Char :=
  let ds := Nat.toDigits 10 coefficient
  let first := firstExponent coefficient exponent
  if exponent ≤ 0 ∧ -6 ≤ first then
    let places := (-exponent).toNat
    if places = 0 then ds
    else if places < ds.length then
      ds.take (ds.length - places) ++ '.' :: ds.drop (ds.length - places)
    else '0' :: '.' :: List.replicate (places - ds.length) '0' ++ ds
  else
    let mantissa := match ds with
      | c :: d :: r => c :: '.' :: d :: r
      | ds => ds
    mantissa ++ 'E' :: (if first < 0 then '-' else '+') :: Nat.toDigits 10 first.natAbs

/-- The text of a decimal, with all its digits. -/
def text (d : Decimal) : String :=
  let sign (negative : Bool) (cs : List Char) : List Char := if negative then '-' :: cs else cs
  match d with
  | .finite negative coefficient exponent =>
    String.ofList (sign negative (unsignedText coefficient exponent))
  | .infinite negative => String.ofList (sign negative "Infinity".toList)
  | .nan negative signaling payload =>
    let tail := if payload = 0 then [] else Nat.toDigits 10 payload
    String.ofList (sign negative ((if signaling then "sNaN" else "NaN").toList ++ tail))

/-- The whole number left when a finite decimal loses its fraction. -/
def truncate? : Decimal → Option Int
  | .finite negative coefficient exponent =>
    let n : Nat :=
      if 0 ≤ exponent then coefficient * Nat.pow 10 exponent.toNat
      else if firstExponent coefficient exponent < 0 then 0
      else coefficient / Nat.pow 10 (-exponent).toNat
    some (if negative then -(n : Int) else n)
  | _ => none

end Decimal
end QueryGate
