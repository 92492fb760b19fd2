import QueryGate.Calendar.Moment
import QueryGate.Calendar.Period
import QueryGate.Text.WordSearch

/-!
# Phrases that name a period

A question can say which days it is about: today, yesterday, last week, so many days or weeks
ago, between two dates, on a date, or the week of a date.  The first kind of phrase that occurs
decides, in that order; a phrase with dates counts only if they are real ones.  Days are those of
universal time.
-/

namespace QueryGate
namespace Question

open Text

/-- A phrase that names a period. -/
inductive Phrase where
  | today
  | yesterday
  | lastWeek
  | daysAgo (n : Nat)
  | weeksAgo (n : Nat)
  | between (a b : Date)
  | on_ (d : Date)
  | weekOf (d : Date)
  deriving DecidableEq

/-- The separators of a date whose day comes first. -/
def isDateSeparator (c : Char) : Bool := c == '/' || c == '-'

/-- A number of one or two digits in front of a separator, and what follows the separator. -/
def shortNumber? : List Char → Option (Nat × List Char)
  | a :: b :: r =>
    if !isAsciiDigit a then none
    else if isDateSeparator b then some (digitsValue [a], r)
    else
      match r with
      | s :: rest =>
        if isAsciiDigit b && isDateSeparator s then some (digitsValue [a, b], rest) else none
      | [] => none
  | _ => none

/-- A date with the day in front, the month behind it and four digits of the year at the end. -/
def dayFirst? (cs : List Char) : Option Date := do
  let (day, rest) ← shortNumber? cs
  let (month, rest) ← shortNumber? rest
  if rest.length = 4 && rest.all isAsciiDigit then Date.ofParts? (digitsValue rest) month day
  else none

/-- The date that a text writes, in the ISO form or with the day first; a line break may follow. -/
def date? (cs : List Char) : Option Date :=
  let cs := withoutLineBreak cs
  (Date.ofIso? cs).or (dayFirst? cs)

/-- Characters of written dates. -/
def isDateChar (c : Char) : Bool := isAsciiDigit c || isDateSeparator c

/-- Whether the first `n` characters of a text end at an edge of a word. -/
def endsAtEdge (cs : List Char) (n : Nat) : Bool :=
  n != 0 && wordEdge cs[n - 1]? cs[n]?

/-- The longest run of date characters, of `least` to `most`, that ends at an edge of a word. -/
def dateRun? (least most : Nat) (cs : List Char) : Option (List Char) :=
  let available := min most (cs.takeWhile isDateChar).length
  let lengths := (List.range (available + 1)).reverse
  (lengths.find? fun n => decide (least ≤ n) && endsAtEdge cs n).map fun n => cs.take n

/-- What follows the words, with blanks between them and behind the last. -/
def afterWords? : List String → List Char → Option (List Char)
  | [], cs => some cs
  | w :: ws, cs => do
    let rest ← afterChars? w.toList cs
    let rest ← afterBlanks? rest
    afterWords? ws rest

/-- Reads `last week`. -/
def readLastWeek? (cs : List Char) : Option Unit := do
  let rest ← afterWords? ["last"] cs
  if wordHere (fun a b => a == b) none "week".toList rest then some () else none

/-- Reads a number of units followed by `ago`; the unit may end in `s`. -/
def readAgo? (unit : String) (cs : List Char) : Option Nat := do
  let ds := cs.takeWhile isAsciiDigit
  if ds.isEmpty || 9 < ds.length then none
  else
    let rest ← afterBlanks? (cs.dropWhile isAsciiDigit)
    let rest ← afterChars? unit.toList rest
    let rest := match rest with
      | 's' :: r => r
      | r => r
    let rest ← afterBlanks? rest
    if wordHere (fun a b => a == b) none "ago".toList rest then some (digitsValue ds) else none

/-- Reads `between` with two runs of date characters. -/
def readBetween? (cs : List Char) : Option (List Char × List Char) := do
  let rest ← afterWords? ["between"] cs
  let first := rest.takeWhile isDateChar
  if first.isEmpty then none
  else
    let rest ← afterBlanks? (rest.dropWhile isDateChar)
    let rest ← afterWords? ["and"] rest
    let second ← dateRun? 1 rest.length rest
    some (first, second)

/-- Reads words followed by a run of date characters of the length of a date. -/
def readOn? (words : List String) (cs : List Char) : Option (List Char) := do
  let rest ← afterWords? words cs
  dateRun? 8 10 rest

/-- The dates of the first `between`, if both are real. -/
def between? (q : List Char) : Option Phrase := do
  let (a, b) ← firstMatch? readBetween? q
  let first ← date? a
  let second ← date? b
  some (.between first second)

/-- The date behind the first occurrence of the words, if it is real. -/
def dated? (words : List String) (phrase : Date → Phrase) (q : List Char) : Option Phrase := do
  let run ← firstMatch? (readOn? words) q
  let d ← date? run
  some (phrase d)

namespace Phrase

/-- The phrase that decides in a lower-case text. -/
def ofLower? (q : List Char) : Option Phrase :=
  if containsExactWord "today".toList q then some .today
  else if containsExactWord "yesterday".toList q then some .yesterday
  else if (firstMatch? readLastWeek? q).isSome then some .lastWeek
  else
    match firstMatch? (readAgo? "day") q with
    | some n => some (.daysAgo n)
    | none =>
      match firstMatch? (readAgo? "week") q with
      | some n => some (.weeksAgo n)
      | none =>
        (between? q).or ((dated? ["on"] .on_ q).or (dated? ["week", "of"] .weekOf q))

/-- The phrase that decides in a question. -/
def ofText? (question : List Char) : Option Phrase := ofLower? (lower question)

/-- The days that a phrase names on a given day, if the calendar has them all. -/
def period? (today : Date) : Phrase → Option Period
  | .today => Period.window? today 1 "today"
  | .yesterday => (today.addDays? (-1)).bind fun d => Period.window? d 1 "yesterday"
  | .lastWeek => (today.addDays? (-7)).bind fun d => Period.window? d 7 "last week"
  | .daysAgo n =>
    (today.addDays? (-(n : Int))).bind fun d => Period.window? d 1 (toString n ++ " days ago")
  | .weeksAgo n =>
    (today.addDays? (-(7 * n : Int))).bind fun d => Period.window? d 1 (toString n ++ " weeks ago")
  | .between a b =>
    let first := if a ≤ b then a else b
    let last := if a ≤ b then b else a
    Period.window? first ((last.ordinal : Int) - first.ordinal + 1) "between"
  | .on_ d => Period.window? d 1 "on"
  | .weekOf d => Period.window? d 7 "week of"

end Phrase

/-- The period that a question names at a moment. -/
def period? (question : String) (now : Moment) : Option Period := do
  let today ← now.utcDate?
  let phrase ← Phrase.ofText? question.toList
  phrase.period? today

/-- The day of a moment as a period. -/
def today? (now : Moment) : Option Period := do
  let today ← now.utcDate?
  Period.window? today 1 "today"

end Question
end QueryGate
