import QueryGate.Calendar.Date

/-!
# Periods

A period is a run of whole days: it holds its first day and stops short of the day `stop`, and it is
never empty.  `days`, `last` and `describe` give its length and its inclusive form.
-/

namespace QueryGate

/-- The days from `start` up to, but not including, `stop`. -/
structure Period where
  start : Date
  stop : Date
  label : Option String
  start_lt_stop : start < stop
  deriving DecidableEq

namespace Period

/-- Two days that do not make a period, because the first is not before the second. -/
structure OrderFault where
  start : Date
  stop : Date
  deriving DecidableEq

/-- The message of the fault. -/
def OrderFault.message (f : OrderFault) : String :=
  "DateRange start " ++ f.start.iso ++ " must be before end " ++ f.stop.iso

/-- The period between two days. -/
def between (start stop : Date) (label : Option String) : Except OrderFault Period :=
  if h : start < stop then .ok ⟨start, stop, label, h⟩ else .error ⟨start, stop⟩

/-- The period of a number of days from a day on, if the calendar has all of it and its end. -/
def window? (start : Date) (days : Int) (label : String) : Option Period :=
  match start.addDays? days with
  | none => none
  | some stop => if h : start < stop then some ⟨start, stop, some label, h⟩ else none

/-- The number of days. -/
def days (p : Period) : Nat := p.stop.ordinal - p.start.ordinal

/-- The last day. -/
def last (p : Period) : Date := (p.stop.addDays? (-1)).getD p.start

/-- The period for readers: its only day, or its first and last day. -/
def describe (p : Period) : String :=
  if p.days = 1 then p.start.iso else p.start.iso ++ " to " ++ p.last.iso

/-- The period for readers, unless the calendar has no day before its end. -/
def describe? (p : Period) : Option String :=
  if p.days = 1 then some p.start.iso
  else (p.stop.addDays? (-1)).map fun last => p.start.iso ++ " to " ++ last.iso

/-- Whether a day belongs to the period. -/
def contains (p : Period) (d : Date) : Bool := decide (p.start ≤ d ∧ d < p.stop)

end Period
end QueryGate
