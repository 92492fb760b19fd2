import QueryGate.Assistant.Model
import QueryGate.Calendar.Period
import QueryGate.Guard.Check
import QueryGate.Policy.Completion
import QueryGate.Policy.Shipped
import QueryGate.Value.Json

/-!
# Summaries

The answer to a question in words.  A result that is one number is answered with the number; any
other result with the number of rows, a tally of what the completion rules say about them, and the
latest time in them.  A language model can be asked instead; if it fails, the plain summary
stands.
-/

namespace QueryGate
namespace Summary

open Text

/-- The answer when there are no rows. -/
def noData : String := "No data found."

/-- The columns that hold times, in the order in which they are looked for. -/
def timeColumns : List String :=
  ["check_time", "recorded_at", "created_time", "start_time", "end_time", "created_at"]

/-- The period as part of a sentence. -/
def periodPhrase : Option Period → String
  | none => ""
  | some p => if p.days = 1 then " on " ++ p.describe else " for " ++ p.describe

/-- A column name in words. -/
def inWords (column : String) : String :=
  String.ofList (trim (column.toList.map fun c => if c = '_' then ' ' else c))

/-- The text of a number, without a fraction if it is whole. -/
def numberText (x : Binary64) : String :=
  match x.toInt? with
  | some n => toString n
  | none => x.text

/-- The answer when the result is one number. -/
def countAnswer (column : String) (x : Binary64) (tenant : Int) (period : String) : String :=
  let what := inWords column ++ " for restaurant " ++ toString tenant ++ period ++ "."
  if x.equalsInt 0 then "No " ++ what else "Yes, " ++ numberText x ++ " " ++ what

/-- The number that a result consists of. -/
def onlyNumber? : List Row → Option (String × Binary64)
  | [[(column, value)]] => (Completion.number? value).map fun x => (column, x)
  | _ => none

/-- What has been counted of the rows of a table: the completed, the failed and the unknown ones. -/
structure Tally where
  completed : Nat
  failed : Nat
  unknown : Nat
  deriving DecidableEq, Repr

namespace Tally

/-- Counts a row.  One that is not known to be completed or not is unknown, and one that is
completed is not looked at again. -/
def add (rules : List (String × CompletionRule)) (table : String) (t : Tally) (row : Row) : Tally :=
  match Completion.isCompleted rules table row with
  | none => { t with unknown := t.unknown + 1 }
  | some true => { t with completed := t.completed + 1 }
  | some false =>
    if Completion.isFailed rules table row = some true then { t with failed := t.failed + 1 } else t

/-- The rows that are left of all when the counted ones are taken away. -/
def pending (t : Tally) (rows : Nat) : Int := (rows : Int) - t.completed - t.failed - t.unknown

/-- The counts as a sentence; those that are zero are left out, that of completed rows excepted. -/
def text (t : Tally) (rows : Nat) : String :=
  toString t.completed ++ " completed"
    ++ (if t.failed = 0 then "" else ", " ++ toString t.failed ++ " failed")
    ++ (if t.pending rows = 0 then "" else ", " ++ toString (t.pending rows) ++ " not completed")
    ++ (if t.unknown = 0 then "" else ", " ++ toString t.unknown ++ " with unknown status")
    ++ "."

end Tally

/-- Counts the rows of a table one after another. -/
def tally (rules : List (String × CompletionRule)) (table : String) (rows : List Row) : Tally :=
  rows.foldl (Tally.add rules table) ⟨0, 0, 0⟩

/-- The values of a column, nothing left out. -/
def columnTexts (rows : List Row) (column : String) : List String :=
  rows.filterMap fun row =>
    match Completion.cell row column with
    | .null => none
    | v => some v.shown

/-- The last of several texts in the order of their code points. -/
def lastText? : List String → Option String
  | [] => none
  | s :: rest => some (rest.foldl (fun best t => if best < t then t else best) s)

/-- The latest time in the first time column that has any. -/
def latestTime? (rows : List Row) : Option String :=
  timeColumns.findSome? fun column => lastText? (columnTexts rows column)

/-- What the answer begins with when the result is more than one number. -/
def foundText (tables : List String) (rows : Nat) (tenant : Int) (period : String) : String :=
  "Found " ++ toString rows ++ " row" ++ (if rows = 1 then "" else "s") ++ " from "
    ++ (if tables.isEmpty then "the query" else ", ".intercalate tables.eraseDups)
    ++ " for restaurant " ++ toString tenant ++ period ++ "."

/-- The tally in words, unless nothing is known of any row. -/
def tallyText? (rules : List (String × CompletionRule)) (table : String) (rows : List Row) :
    Option String :=
  let counts := tally rules table rows
  if counts.unknown < rows.length then some (counts.text rows.length) else none

/-- The latest time in words, if there is one. -/
def latestText? (rows : List Row) : Option String :=
  match latestTime? rows with
  | some t => if t.isEmpty then none else some ("Most recent: " ++ t ++ ".")
  | none => none

/-- The table whose rule is applied, the empty text if there is none. -/
def primary (sql : String) : String := (Guard.tablesOf sql.toList).head?.getD ""

/-- The answer when the result is more than one number. -/
def tallyAnswer (sql : String) (rows : List Row) (tenant : Int) (period : String) : String :=
  " ".intercalate (foundText (Guard.tablesOf sql.toList) rows.length tenant period ::
    ((tallyText? Policy.shipped.completionRules (primary sql) rows).toList
      ++ (latestText? rows).toList))

/-- The plain summary. -/
def plain (sql : String) (rows : List Row) (tenant : Int) (period : Option Period) : String :=
  if rows.isEmpty then noData
  else
    match onlyNumber? rows with
    | some (column, x) => countAnswer column x tenant (periodPhrase period)
    | none => tallyAnswer sql rows tenant (periodPhrase period)

/-- A row as a mapping. -/
def rowValue (row : Row) : Value := .map (row.map fun (column, value) => (.text column, value))

/-- The number of characters of the rows that a model is shown. -/
def rowsLength : Nat := 30000

/-- The rows as a model is shown them, unless they hold a mapping that JSON cannot write. -/
def rowsText? (rows : List Row) : Option String :=
  (Value.list (rows.map rowValue)).json?.map fun s => String.ofList (s.toList.take rowsLength)

/-- What a model is asked for. -/
def prompt (question sql rowsText : String) (tenant : Int) (period : Option Period) : String :=
  "Question: " ++ question ++ "\n"
    ++ "Restaurant: " ++ toString tenant ++ "\n"
    ++ "SQL: " ++ sql ++ "\n"
    ++ (match period with
      | some p => "Period: " ++ p.describe ++ " (ISO dates, inclusive).\n"
      | none => "")
    ++ "Rows: " ++ rowsText ++ "\n\n"
    ++ "Write a concise, business-friendly answer.\n\n"
    ++ "Completion rules:\n"
    ++ Completion.describe Policy.shipped.completionRules ++ "\n\n"
    ++ "If the SQL is a COUNT, answer naturally (e.g. \"Yes, 12 ...\").\n"
    ++ "If rows include a time column (check_time, recorded_at, ...), include it.\n"
    ++ "If there are no rows, say \"No data found.\"\n"
    ++ "If a period is given, restate it using ISO dates, e.g. "
    ++ "\"for 2025-09-01 to 2025-09-07\".\n"
    ++ "If counts are all zero, say no checks were logged for those tables in that "
    ++ "period for restaurant " ++ toString tenant ++ "."

/-- The summary of a result in the given mode: `mock` is the plain one, any other mode the name of a
provider.  There is none when the rows cannot be shown to a model. -/
def ofRows? (backend : Assistant.Backend) (history : Assistant.History) (mode question sql : String)
    (rows : List Row) (tenant : Int) (period : Option Period) :
    Option String × Assistant.History :=
  if mode = "mock" then (some (plain sql rows tenant period), history)
  else if rows.isEmpty then (some noData, history)
  else
    match rowsText? rows with
    | none => (none, history)
    | some shown =>
      match Assistant.ask backend history mode (prompt question sql shown tenant period) "" with
      | (.ok answer, history) => (some answer, history)
      | (.error _, history) => (some (plain sql rows tenant period), history)

end Summary
end QueryGate
