import QueryGate.Calendar.Date

/-!
# Points in time and lengths of time

A `Moment` is a clock reading: a day, a time of day and, if known, how far the clock is ahead of
universal time.  A reading without that is taken as universal time.  A `TimeSpan` is a signed
length of time.  Both count microseconds.
-/

namespace QueryGate

/-- The microseconds of a second. -/
def microsPerSecond : Int := 1000000

/-- The microseconds of a day. -/
def microsPerDay : Int := 86400 * microsPerSecond

/-- A length of time in microseconds. -/
structure TimeSpan where
  micros : Int
  deriving DecidableEq, Repr

namespace TimeSpan

open Date in
/-- Hours, minutes and seconds of a number of microseconds, the hours in at least `width` digits. -/
def clock (width : Nat) (micros : Nat) : List Char :=
  let seconds := micros / 1000000
  let fraction := micros % 1000000
  padded width (seconds / 3600) ++ ':' :: padded 2 (seconds / 60 % 60)
    ++ ':' :: padded 2 (seconds % 60)
    ++ (if fraction = 0 then [] else '.' :: padded 6 fraction)

/-- Whole days, then the time that is left, which is never negative. -/
def text (t : TimeSpan) : String :=
  let days := t.micros.fdiv microsPerDay
  let rest := (t.micros.fmod microsPerDay).toNat
  let unit := if days.natAbs = 1 then " day, " else " days, "
  (if days = 0 then "" else toString days ++ unit) ++ String.ofList (clock 1 rest)

/-- The written form that names the parts. -/
def described (t : TimeSpan) : String :=
  let days := t.micros.fdiv microsPerDay
  let rest := t.micros.fmod microsPerDay
  let seconds := rest / microsPerSecond
  let micros := rest % microsPerSecond
  let parts := [("days=", days), ("seconds=", seconds), ("microseconds=", micros)]
  let shown := (parts.filter (·.2 != 0)).map fun p => p.1 ++ toString p.2
  "datetime.timedelta(" ++ (if shown.isEmpty then "0" else ", ".intercalate shown) ++ ")"

end TimeSpan

/-- A clock reading; `offset` is how far the clock is ahead of universal time. -/
structure Moment where
  date : Date
  micros : Nat
  offset : Option TimeSpan
  deriving DecidableEq

namespace Moment

/-- The day in universal time, unless it lies beyond the calendar. -/
def utcDate? (m : Moment) : Option Date :=
  match m.offset with
  | none => some m.date
  | some ahead => m.date.addDays? (((m.micros : Int) - ahead.micros).fdiv microsPerDay)

/-- The microseconds in universal time, if it is known how far the clock is ahead of it. -/
def utcMicros? (m : Moment) : Option Int :=
  m.offset.map fun ahead => (m.date.ordinal : Int) * microsPerDay + m.micros - ahead.micros

/-- Whether two readings are of one point in time; where that is not known they have to be the same
reading. -/
def sameInstant (a b : Moment) : Bool :=
  match a.utcMicros?, b.utcMicros? with
  | some x, some y => x == y
  | _, _ => decide (a = b)

/-- Sign, hours, minutes and, where there are any, seconds of an offset. -/
def offsetChars (ahead : TimeSpan) : List Char :=
  let n := ahead.micros.natAbs
  let full := TimeSpan.clock 2 n
  (if ahead.micros < 0 then '-' else '+') :: (if n % 60000000 = 0 then full.take 5 else full)

/-- The reading with the given character between day and time. -/
def chars (between : Char) (m : Moment) : List Char :=
  m.date.isoChars ++ between :: TimeSpan.clock 2 m.micros ++ (m.offset.map offsetChars).getD []

/-- The ISO form. -/
def iso (m : Moment) : String := String.ofList (m.chars 'T')

/-- The form for readers, with a space between day and time. -/
def text (m : Moment) : String := String.ofList (m.chars ' ')

/-- The written form that names the parts. -/
def described (m : Moment) : String :=
  let seconds := m.micros / 1000000
  let fraction := m.micros % 1000000
  let below :=
    if fraction ≠ 0 then [seconds % 60, fraction]
    else if seconds % 60 ≠ 0 then [seconds % 60]
    else []
  let parts := [m.date.year, m.date.month, m.date.day, seconds / 3600, seconds / 60 % 60] ++ below
  let zone := match m.offset with
    | none => []
    | some ahead =>
      if ahead.micros = 0 then ["tzinfo=datetime.timezone.utc"]
      else ["tzinfo=datetime.timezone(" ++ ahead.described ++ ")"]
  "datetime.datetime(" ++ ", ".intercalate (parts.map toString ++ zone) ++ ")"

open Text

/-- Reads a two-digit number below the bound. -/
def twoDigits? (bound : Nat) (a b : Char) : Option Nat :=
  if isAsciiDigit a && isAsciiDigit b && decide (digitsValue [a, b] < bound) then
    some (digitsValue [a, b])
  else none

/-- Reads a fraction of a second of up to six digits, in microseconds. -/
def fraction (ds : List Char) : Nat :=
  digitsValue ((ds ++ List.replicate (6 - ds.length) '0').take 6)

/-- Reads the next two digits of a clock reading, behind a colon where they are `spaced`, and gives
what follows. -/
def nextDigits? (spaced : Bool) (bound : Nat) (cs : List Char) : Option (Nat × List Char) :=
  match (if spaced then cs.drop 1 else cs) with
  | a :: b :: rest =>
    if spaced && cs.head? != some ':' then none
    else (twoDigits? bound a b).map fun n => (n, rest)
  | _ => none

/-- Reads hours with optional minutes, seconds and fraction, and gives what follows.  Colons stand
between all of them or none. -/
def clock? (cs : List Char) : Option (Nat × List Char) := do
  let (hours, rest) ← nextDigits? false 24 cs
  let spaced := rest.head? == some ':'
  let micros (seconds : Nat) : Nat := seconds * 1000000
  match nextDigits? spaced 60 rest with
  | none => some (micros (hours * 3600), rest)
  | some (minutes, rest) =>
    match nextDigits? spaced 60 rest with
    | none => some (micros (hours * 3600 + minutes * 60), rest)
    | some (seconds, rest) =>
      let whole := micros (hours * 3600 + minutes * 60 + seconds)
      match rest with
      | c :: tail =>
        if c = '.' ∨ c = ',' then
          some (whole + fraction (tail.takeWhile isAsciiDigit), tail.dropWhile isAsciiDigit)
        else some (whole, rest)
      | [] => some (whole, [])

/-- Reads the end of a reading: nothing, `Z`, or a signed offset. -/
def offset? : List Char → Option (Option TimeSpan)
  | [] => some none
  | ['Z'] => some (some ⟨0⟩)
  | '+' :: r => match clock? r with
    | some (n, []) => some (some ⟨n⟩)
    | _ => none
  | '-' :: r => match clock? r with
    | some (n, []) => some (some ⟨-(n : Int)⟩)
    | _ => none
  | _ => none

/-- Reads a day, with or without hyphens between its numbers, and gives what follows. -/
def day? (cs : List Char) : Option (Date × List Char) :=
  if cs[4]? = some '-' then (Date.ofIso? (cs.take 10)).map fun d => (d, cs.drop 10)
  else if isDigits (cs.take 8) && 8 ≤ cs.length then
    let number (start width : Nat) : Nat := digitsValue ((cs.drop start).take width)
    (Date.ofParts? (number 0 4) (number 4 2) (number 6 2)).map fun d => (d, cs.drop 8)
  else none

/-- Reads the ISO form; a day alone is its midnight. -/
def ofIso? (cs : List Char) : Option Moment := do
  let (date, rest) ← day? cs
  match rest with
  | [] => some ⟨date, 0, none⟩
  | _ :: rest =>
    let (micros, tail) ← clock? rest
    let offset ← offset? tail
    some ⟨date, micros, offset⟩

end Moment
end QueryGate
