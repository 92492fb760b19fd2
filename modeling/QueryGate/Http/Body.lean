import QueryGate.Text.Utf8
import QueryGate.Value.Basic

/-!
# Values in bodies

A body holds texts, numbers, truth values, lists and objects.  `bodyValue` gives any other value the
form that it has there, and every key is a text.
-/

namespace QueryGate
namespace Http

open Text

/-- A number with the letter of its unit, or nothing where it is zero. -/
def unitChars (n : Nat) (unit : Char) : List Char :=
  if n = 0 then [] else Nat.toDigits 10 n ++ [unit]

/-- A fraction of a second in microseconds without the zeros at its end, behind a point. -/
def fractionChars (micros : Nat) : List Char :=
  if micros = 0 then []
  else '.' :: ((Date.padded 6 micros).reverse.dropWhile (· == '0')).reverse

/-- The ISO form of a length of time: years of 365 days, days, hours, minutes and seconds. -/
def spanText (t : TimeSpan) : String :=
  let n := t.micros.natAbs
  let days := n / microsPerDay.toNat
  let seconds := n / 1000000 % 86400
  let micros := n % 1000000
  let second :=
    if seconds % 60 = 0 ∧ micros = 0 then []
    else Nat.toDigits 10 (seconds % 60) ++ fractionChars micros ++ ['S']
  let clock := unitChars (seconds / 3600) 'H' ++ unitChars (seconds / 60 % 60) 'M' ++ second
  let whole := unitChars (days / 365) 'Y' ++ unitChars (days % 365) 'D'
  let parts :=
    if n = 0 then "T0S".toList else if clock.isEmpty then whole else whole ++ 'T' :: clock
  String.ofList ((if t.micros < 0 then ['-', 'P'] else ['P']) ++ parts)

/-- The ISO form of a clock reading, in which universal time is `Z`. -/
def momentText (m : Moment) : String :=
  if m.offset = some ⟨0⟩ then { m with offset := none }.iso ++ "Z" else m.iso

/-- The text of a key. -/
def keyText : Value → String
  | .bool b => if b then "true" else "false"
  | .moment m => momentText m
  | .span t => spanText t
  | .bytes octets => String.ofList (decodeLossy octets)
  | v => v.shown

mutual

/-- A value as a body holds it; infinities and what is not a number are nothing there. -/
def bodyValue : Value → Value
  | .float x => if x.isFinite then .float x else .null
  | .decimal d => .text d.text
  | .date d => .text d.iso
  | .moment m => .text (momentText m)
  | .span t => .text (spanText t)
  | .bytes octets => .text (String.ofList (decodeLossy octets))
  | .list items => .list (bodyItems items)
  | .map entries => .mapOf (bodyEntries entries)
  | v => v

/-- The items of a list as a body holds them. -/
def bodyItems : List Value → List Value
  | [] => []
  | v :: rest => bodyValue v :: bodyItems rest

/-- The entries of a mapping as a body holds them. -/
def bodyEntries : List (Value × Value) → List (Value × Value)
  | [] => []
  | (k, v) :: rest => (.text (keyText k), bodyValue v) :: bodyEntries rest

end

end Http
end QueryGate
