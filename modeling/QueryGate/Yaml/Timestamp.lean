import QueryGate.Calendar.Moment
import QueryGate.Yaml.Fault

/-!
# Days and points in time

The notation of days and points in time: numbers between signs, whose values are checked only
afterwards, so that a text can be in the notation without being a day of the calendar.
-/

namespace QueryGate
namespace Yaml

open Text

/-- The clock part of a point in time.  `ahead` is how far the clock is ahead of universal time, in
minutes. -/
structure ClockReading where
  hour : Nat
  minute : Nat
  second : Nat
  fraction : List Char
  ahead : Option Int
  deriving DecidableEq, Repr

/-- The numbers of a day or a point in time.  `padded` says that month and day have two digits. -/
structure Timestamp where
  year : Nat
  month : Nat
  day : Nat
  padded : Bool
  clock : Option ClockReading
  deriving DecidableEq, Repr

namespace Timestamp

/-- Reads digits, at least `least` and at most `most`. -/
def digits? (least most : Nat) (cs : List Char) : Option (List Char × List Char) :=
  let ds := (cs.take most).takeWhile isAsciiDigit
  if ds.length < least then none else some (ds, cs.drop ds.length)

/-- Reads one of some signs. -/
def sign? (signs : List Char) : List Char → Option (List Char)
  | c :: r => if signs.contains c then some r else none
  | [] => none

/-- A space or a tab. -/
def isSpacing (c : Char) : Bool := c == ' ' || c == '\t'

/-- Reads the end of a clock reading: nothing, `Z`, or a sign with hours and optional minutes. -/
def ahead? (cs : List Char) : Option (Option Int) :=
  match cs.dropWhile isSpacing with
  | [] => if cs.isEmpty then some none else none
  | ['Z'] => some (some 0)
  | c :: r => do
    let _ ← sign? ['-', '+'] [c]
    let (hours, r) ← digits? 1 2 r
    let minutes ← match r with
      | [] => some []
      | _ => do
        let r ← sign? [':'] r
        let (minutes, r) ← digits? 2 2 r
        if r.isEmpty then some minutes else none
    let n : Int := digitsValue hours * 60 + digitsValue minutes
    some (some (if c = '-' then -n else n))

/-- Reads a clock reading. -/
def clock? (cs : List Char) : Option ClockReading := do
  let (hour, r) ← digits? 1 2 cs
  let (minute, r) ← digits? 2 2 (← sign? [':'] r)
  let (second, r) ← digits? 2 2 (← sign? [':'] r)
  let (fraction, r) := match r with
    | '.' :: r => (r.takeWhile isAsciiDigit, r.dropWhile isAsciiDigit)
    | r => ([], r)
  let ahead ← ahead? r
  some ⟨digitsValue hour, digitsValue minute, digitsValue second, fraction, ahead⟩

/-- Reads a day or a point in time. -/
def ofText? (cs : List Char) : Option Timestamp := do
  let (year, r) ← digits? 4 4 cs
  let (month, r) ← digits? 1 2 (← sign? ['-'] r)
  let (day, r) ← digits? 1 2 (← sign? ['-'] r)
  let padded := month.length == 2 && day.length == 2
  let clock ← match r with
    | [] => some none
    | c :: more =>
      if c = 'T' ∨ c = 't' then (clock? more).map some
      else if isSpacing c then (clock? (more.dropWhile isSpacing)).map some
      else none
  some ⟨digitsValue year, digitsValue month, digitsValue day, padded, clock⟩

/-- Whether a text is in the notation; a day alone has two digits for month and day. -/
def isNotation (cs : List Char) : Bool :=
  match ofText? cs with
  | some t => t.padded || t.clock.isSome
  | none => false

/-- The day of the calendar, or which of its numbers is none. -/
def date (t : Timestamp) : Except ScalarFault Date :=
  if t.year = 0 then .error (.year 0)
  else if t.month < 1 ∨ 12 < t.month then .error .month
  else
    match Date.ofParts? t.year t.month t.day with
    | some d => .ok d
    | none => .error .day

/-- The number of minutes of a day. -/
def minutesPerDay : Int := 1440

/-- How far a clock is ahead of universal time: less than a day. -/
def offset (ahead : Option Int) : Except ScalarFault (Option TimeSpan) :=
  match ahead with
  | none => .ok none
  | some minutes =>
    let span : TimeSpan := ⟨minutes * 60 * microsPerSecond⟩
    if -minutesPerDay < minutes ∧ minutes < minutesPerDay then .ok (some span)
    else .error (.clockOffset span.described)

/-- The value of a day or a point in time. -/
def value (t : Timestamp) : Except ScalarFault (Date ⊕ Moment) := do
  match t.clock with
  | none => return .inl (← t.date)
  | some c =>
    let offset ← offset c.ahead
    let date ← t.date
    if 23 < c.hour then throw .hour
    if 59 < c.minute then throw .minute
    if 59 < c.second then throw .second
    let seconds := c.hour * 3600 + c.minute * 60 + c.second
    return .inr ⟨date, seconds * 1000000 + Moment.fraction c.fraction, offset⟩

end Timestamp

end Yaml
end QueryGate
