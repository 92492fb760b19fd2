import QueryGate.Text.Digit

/-!
# Calendar days

Days of the proleptic Gregorian calendar in the years 1 to 9999, with the count of days from
1 January of year 1 as their second description.  `ordinal` gives the count, `ofOrdinal?` the day,
and day arithmetic goes through the two; it has no result beyond the calendar.
-/

namespace QueryGate

/-- Whether a year has a 29 February. -/
def isLeapYear (year : Nat) : Bool := year % 4 == 0 && (year % 100 != 0 || year % 400 == 0)

/-- The lengths of the months of a year. -/
def monthLengths (year : Nat) : List Nat :=
  [31, if isLeapYear year then 29 else 28, 31, 30, 31, 30, 31, 31, 30, 31, 30, 31]

/-- The length of a month, zero when there is no such month. -/
def monthLength (year month : Nat) : Nat :=
  if month = 0 then 0 else ((monthLengths year)[month - 1]?).getD 0

/-- Whether year, month and day name a day of the calendar. -/
def isCalendarDay (year month day : Nat) : Bool :=
  decide (1 ≤ year ∧ year ≤ 9999 ∧ 1 ≤ day ∧ day ≤ monthLength year month)

/-- A day of the calendar. -/
structure Date where
  year : Nat
  month : Nat
  day : Nat
  valid : isCalendarDay year month day = true
  deriving DecidableEq

namespace Date

/-- The day of the given year, month and day of the month. -/
def ofParts? (year month day : Nat) : Option Date :=
  if h : isCalendarDay year month day = true then some ⟨year, month, day, h⟩ else none

/-- The number of days before a year. -/
def daysBeforeYear (year : Nat) : Nat :=
  let y := year - 1
  y * 365 + y / 4 - y / 100 + y / 400

/-- The number of days of a year before a month. -/
def daysBeforeMonth (year month : Nat) : Nat :=
  ((monthLengths year).take (month - 1)).foldl (· + ·) 0

/-- The count of days up to and including the day; 1 January of year 1 is day 1. -/
def ordinal (d : Date) : Nat := daysBeforeYear d.year + daysBeforeMonth d.year d.month + d.day

/-- The year of a count of days, and the days of that year that come before. -/
def splitYear (count : Nat) : Nat × Nat :=
  let n := count - 1
  let cycles := n / 146097
  let inCycle := n % 146097
  let centuries := min 3 (inCycle / 36524)
  let inCentury := inCycle - centuries * 36524
  let leaps := inCentury / 1461
  let inLeap := inCentury % 1461
  let years := min 3 (inLeap / 365)
  (400 * cycles + 100 * centuries + 4 * leaps + years + 1, inLeap - years * 365)

/-- The month that a number of days leads into, and the days of that month that come before. -/
def splitMonth : List Nat → Nat → Nat × Nat
  | [], rest => (1, rest)
  | length :: more, rest =>
    if rest < length then (1, rest)
    else
      let (month, days) := splitMonth more (rest - length)
      (month + 1, days)

/-- The day with the given count, if the calendar has one. -/
def ofOrdinal? (count : Int) : Option Date :=
  if count < 1 then none
  else
    let (year, rest) := splitYear count.toNat
    let (month, days) := splitMonth (monthLengths year) rest
    ofParts? year month (days + 1)

/-- The day a number of days later, or earlier when it is negative. -/
def addDays? (d : Date) (days : Int) : Option Date := ofOrdinal? ((d.ordinal : Int) + days)

/-- Days are ordered by their counts. -/
instance : LT Date := ⟨fun a b => a.ordinal < b.ordinal⟩

instance : LE Date := ⟨fun a b => a.ordinal ≤ b.ordinal⟩

instance (a b : Date) : Decidable (a < b) := inferInstanceAs (Decidable (a.ordinal < b.ordinal))

instance (a b : Date) : Decidable (a ≤ b) := inferInstanceAs (Decidable (a.ordinal ≤ b.ordinal))

/-- The decimal digits of a number, with zeros in front up to the given width. -/
def padded (width n : Nat) : List Char :=
  let ds := Nat.toDigits 10 n
  List.replicate (width - ds.length) '0' ++ ds

/-- The characters of the ISO form, year, month and day. -/
def isoChars (d : Date) : List Char :=
  padded 4 d.year ++ '-' :: padded 2 d.month ++ '-' :: padded 2 d.day

/-- The ISO form, year, month and day. -/
def iso (d : Date) : String := String.ofList d.isoChars

open Text

/-- Reads four, two and two digits with hyphens between. -/
def ofIso? : List Char → Option Date
  | [y1, y2, y3, y4, '-', m1, m2, '-', d1, d2] =>
    if [y1, y2, y3, y4, m1, m2, d1, d2].all isAsciiDigit then
      ofParts? (digitsValue [y1, y2, y3, y4]) (digitsValue [m1, m2]) (digitsValue [d1, d2])
    else none
  | _ => none

end Date
end QueryGate
