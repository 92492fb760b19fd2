import QueryGate.Question.Phrase
import QueryGate.Value.Basic

/-!
# Resolving the period of a question

`period?` gives the period that a question names; this module goes the way there step by step, with
what fails at each step.  The kinds of phrases are tried in a fixed order.  A kind whose words occur
with a text that is no date is passed over, and the first phrase that is found is turned into a
period.  Counting days can leave the calendar, and that ends the search.
-/

namespace QueryGate
namespace Question

open Text

/-- What fails while days are counted. -/
inductive Fault where
  /-- A number of days too large for a length of time. -/
  | longSpan
  /-- A day before the first or after the last of the calendar. -/
  | beyondCalendar
  /-- Two days that make no period. -/
  | noPeriod (fault : Period.OrderFault)
  deriving DecidableEq

/-- The largest number of days of a length of time. -/
def longestSpan : Nat := 999999999

/-- The day a number of days later. -/
def later (d : Date) (days : Int) : Except Fault Date :=
  if longestSpan < days.natAbs then .error .longSpan
  else
    match d.addDays? days with
    | some e => .ok e
    | none => .error .beyondCalendar

/-- The period from one day to another. -/
def span (start stop : Date) (label : String) : Except Fault Period :=
  match Period.between start stop (some label) with
  | .ok p => .ok p
  | .error fault => .error (.noPeriod fault)

/-- The period of a number of days from a day on. -/
def window (start : Date) (days : Int) (label : String) : Except Fault Period := do
  let stop ← later start days
  span start stop label

namespace Phrase

/-- The words that name the period of a phrase. -/
def label : Phrase → String
  | .today => "today"
  | .yesterday => "yesterday"
  | .lastWeek => "last week"
  | .daysAgo n => toString n ++ " days ago"
  | .weeksAgo n => toString n ++ " weeks ago"
  | .between _ _ => "between"
  | .on_ _ => "on"
  | .weekOf _ => "week of"

/-- The days that a phrase names on a given day. -/
def resolve (today : Date) (phrase : Phrase) : Except Fault Period :=
  match phrase with
  | .today => window today 1 phrase.label
  | .yesterday => do window (← later today (-1)) 1 phrase.label
  | .lastWeek => do window (← later today (-7)) 7 phrase.label
  | .daysAgo n => do window (← later today (-n)) 1 phrase.label
  | .weeksAgo n => do window (← later today (-(7 * n))) 1 phrase.label
  | .between a b => do
    let first := if a ≤ b then a else b
    let last := if a ≤ b then b else a
    let stop ← later last 1
    span first stop phrase.label
  | .on_ d => window d 1 phrase.label
  | .weekOf d => window d 7 phrase.label

end Phrase

/-- The kinds of phrases. -/
inductive Kind where
  | today
  | yesterday
  | lastWeek
  | daysAgo
  | weeksAgo
  | between
  | on_
  | weekOf
  deriving DecidableEq, Repr

/-- What a text has of a kind of phrase. -/
inductive Found where
  /-- The words do not occur. -/
  | absent
  /-- The words occur first with a text that is no date. -/
  | unreal
  /-- The first occurrence of the words makes a phrase. -/
  | phrase (p : Phrase)
  deriving DecidableEq

/-- A phrase without dates, if its words occur. -/
def Found.ofOption : Option Phrase → Found
  | none => .absent
  | some p => .phrase p

/-- A phrase whose words occur, if its dates are real. -/
def Found.ofDates : Option Phrase → Found
  | none => .unreal
  | some p => .phrase p

/-- The phrase of the date behind the first occurrence of the words. -/
def findDated (words : List String) (phrase : Date → Phrase) (q : List Char) : Found :=
  match firstMatch? (readOn? words) q with
  | none => .absent
  | some run => .ofDates ((date? run).map phrase)

namespace Kind

/-- Every kind in the order in which they are tried. -/
def order : List Kind := [today, yesterday, lastWeek, daysAgo, weeksAgo, between, on_, weekOf]

/-- What a lower-case text has of a kind. -/
def find (q : List Char) : Kind → Found
  | today => .ofOption (if containsExactWord "today".toList q then some .today else none)
  | yesterday => .ofOption (if containsExactWord "yesterday".toList q then some .yesterday else none)
  | lastWeek => .ofOption ((firstMatch? readLastWeek? q).map fun _ => .lastWeek)
  | daysAgo => .ofOption ((firstMatch? (readAgo? "day") q).map .daysAgo)
  | weeksAgo => .ofOption ((firstMatch? (readAgo? "week") q).map .weeksAgo)
  | between =>
    match firstMatch? readBetween? q with
    | none => .absent
    | some (a, b) => .ofDates (do some (.between (← date? a) (← date? b)))
  | on_ => findDated ["on"] .on_ q
  | weekOf => findDated ["week", "of"] .weekOf q

end Kind

/-- The period that a lower-case text names on a given day by one of the kinds. -/
def search (q : List Char) (today : Date) : List Kind → Except Fault (Option Period)
  | [] => .ok none
  | kind :: more =>
    match kind.find q with
    | .absent | .unreal => search q today more
    | .phrase p => (p.resolve today).map some

/-- The day of a moment in universal time. -/
def utcDay (now : Moment) : Except Fault Date :=
  match now.utcDate? with
  | some today => .ok today
  | none => .error .beyondCalendar

/-- The period that a text names at a moment by one of the kinds. -/
def searchAt (kinds : List Kind) (question : String) (now : Moment) :
    Except Fault (Option Period) := do
  let today ← utcDay now
  search (lower question.toList) today kinds

/-- The period that a question names at a moment by one of the kinds: nothing when it is no text, and
nothing when counting days fails. -/
def resolveBy (kinds : List Kind) (question : Value) (now : Moment) :
    Except Fault (Option Period) :=
  match question with
  | .text s =>
    if s.isEmpty then .ok none
    else
      match searchAt kinds s now with
      | .ok found => .ok found
      | .error .longSpan | .error .beyondCalendar | .error (.noPeriod _) => .ok none
  | _ => .ok none

/-- The period that a question names at a moment. -/
def resolve (question : Value) (now : Moment) : Except Fault (Option Period) :=
  resolveBy Kind.order question now

end Question
end QueryGate
