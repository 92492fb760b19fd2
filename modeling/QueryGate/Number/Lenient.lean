import QueryGate.Number.Decimal
import QueryGate.Number.Whole

/-!
# Numbers of variables and requests

The numerals that are accepted where a setting or a field of a request is a number: ASCII digits
with more freedom around them than a strict reader has.
-/

namespace QueryGate
namespace Lenient

open Text

/-- Why a text is no whole number. -/
inductive WholeFault where
  | malformed
  | tooLong
  deriving DecidableEq, Repr

/-- The largest number of characters of a whole number, zeros in front not counted. -/
def maxLength : Nat := 4300

/-- A numeral without a fraction of nothing but zeros.  A fraction has a digit: the point alone is
none. -/
def withoutZeroFraction (cs : List Char) : List Char :=
  match cs.dropWhile (· != '.') with
  | _ :: place :: places =>
    if (place :: places).all (· == '0') then cs.takeWhile (· != '.') else cs
  | _ => cs

/-- What stands behind zeros and the underscores among them; a zero with nothing or a point behind
it is kept, since it is the whole part. -/
def behindZeros? : List Char → Option (List Char)
  | [] => none
  | ['0'] => some ['0']
  | '0' :: '.' :: r => some ('0' :: '.' :: r)
  | c :: r =>
    if c = '0' ∨ c = '_' then behindZeros? r
    else if isAsciiDigit c then some (c :: r)
    else none

/-- An unsigned numeral without the zeros in front of it, which begins with a digit. -/
def withoutLeadingZeros? (cs : List Char) : Option (List Char) :=
  if cs.head? = some '_' then none else behindZeros? cs

/-- Whether no two underscores are neighbours. -/
def singleUnderscores : List Char → Bool
  | '_' :: '_' :: _ => false
  | _ :: r => singleUnderscores r
  | [] => true

/-- A numeral without underscores, if they stand alone and none is the last character. -/
def ungrouped? (cs : List Char) : Option (List Char) :=
  if singleUnderscores cs && cs.getLast? != some '_' then some (cs.filter (· != '_')) else none

/-- The number that digits write, if none of them is a zero in front of others.  Too many digits
are found before anything else that stands behind them. -/
def wholeOfDigits (negative : Bool) (cs : List Char) : Except WholeFault Int :=
  let digits := cs.takeWhile isAsciiDigit
  if cs = ['0'] then .ok 0
  else if digits.isEmpty || digits.head? = some '0' then .error .malformed
  else if maxLength < digits.length + (if negative then 1 else 0) then .error .tooLong
  else if digits.length < cs.length then .error .malformed
  else
    let n : Int := digitsValue digits
    .ok (if negative then -n else n)

/-- Reads a whole number: blanks around it, a sign, zeros in front, digits with single underscores
between them, and a fraction of zeros. -/
def whole (text : String) : Except WholeFault Int :=
  let (negative, r) := Decimal.splitSign (Whole.trimNumeral text.toList)
  match withoutLeadingZeros? r with
  | none => .error .malformed
  | some cs =>
    let cs := withoutZeroFraction cs
    wholeOfDigits negative ((ungrouped? cs).getD cs)

/-- A signed numeral, infinity or what is not a number. -/
def signedNumber? (cs : List Char) : Option Binary64 :=
  let (negative, r) := Decimal.splitSign (cs.map Char.toLower)
  match Decimal.numeral? negative r with
  | some d => some d.toBinary64
  | none =>
    if r = "nan".toList then some .nan
    else if r = "inf".toList ∨ r = "infinity".toList then some (.infinite negative)
    else none

/-- Reads a double with blanks around it.  Where none is written, underscores are left out, but then
no blanks may be around it and the first character is none of them. -/
def number? (text : String) : Option Binary64 :=
  match signedNumber? (Whole.trimNumeral text.toList) with
  | some x => some x
  | none =>
    if text.toList.head? = some '_' then none
    else (ungrouped? text.toList).bind signedNumber?

end Lenient
end QueryGate
