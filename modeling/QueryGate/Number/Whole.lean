import QueryGate.Text.Blank
import QueryGate.Text.Digit
import QueryGate.Text.Quoted

/-!
# Whole numbers in text

Numerals of whole numbers: blanks around, a sign, digits of any script, and single underscores
between digits.
-/

namespace QueryGate
namespace Whole

open Text

/-- Why a text is no whole number. -/
inductive Fault where
  | malformed (shown : String)
  | tooLong (digits : Nat)
  deriving DecidableEq, Repr

/-- The largest number of digits that is read. -/
def maxDigits : Nat := 4300

/-- The number of characters of a malformed numeral that a message shows. -/
def shownLength : Nat := 200

/-- The message of a fault. -/
def Fault.message : Fault → String
  | .malformed shown =>
    "invalid literal for int() with base 10: " ++ String.ofList (shown.toList.take shownLength)
  | .tooLong digits =>
    "Exceeds the limit (4300 digits) for integer string conversion: value has "
      ++ toString digits ++ " digits; use sys.set_int_max_str_digits() to increase the limit"

/-- The blanks that may stand around a numeral: all but the four ASCII separators. -/
def isNumeralBlank (c : Char) : Bool := isBlank c && !(28 ≤ c.toNat && c.toNat ≤ 31)

/-- A numeral without the blanks around it. -/
def trimNumeral (cs : List Char) : List Char :=
  ((cs.dropWhile isNumeralBlank).reverse.dropWhile isNumeralBlank).reverse

/-- The digits of a numeral, where an underscore may stand between two digits. -/
def groupedDigits? : List Char → Option (List Char)
  | [] => none
  | [c] => if isAsciiDigit c then some [c] else none
  | c :: '_' :: r => if isAsciiDigit c then (groupedDigits? r).map (c :: ·) else none
  | c :: d :: r => if isAsciiDigit c then (groupedDigits? (d :: r)).map (c :: ·) else none

/-- Reads a numeral; `shown` is the quoted form of what was given, for the message. -/
def ofText (shown : String) (cs : List Char) : Except Fault Int :=
  let plain := asciiDigits (trimNumeral cs)
  let (negative, r) : Bool × List Char := match plain with
    | '-' :: r => (true, r)
    | '+' :: r => (false, r)
    | r => (false, r)
  match groupedDigits? r with
  | none => .error (.malformed shown)
  | some ds =>
    if maxDigits < ds.length then .error (.tooLong ds.length)
    else
      let n : Int := digitsValue ds
      .ok (if negative then -n else n)

end Whole
end QueryGate
