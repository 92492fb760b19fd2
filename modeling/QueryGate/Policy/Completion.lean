import QueryGate.Policy.AllowList
import QueryGate.Text.Utf8

/-!
# Completion of a row

Whether the job that a row of a table stands for was completed or failed.  A verdict has three
values: a row without a numeric value in any of the columns that matter is unknown, never a failure.
-/

namespace QueryGate

/-- A row of a result: its columns with their values, each column once. -/
abbrev Row := List (String × Value)

namespace Completion

open Text

/-- The double that a numeral writes, if it is finite. -/
def numeral? (cs : List Char) : Option Binary64 :=
  let cs := trim cs
  if cs.isEmpty then none
  else
    match Decimal.ofText? cs with
    | some d => if d.toBinary64.isFinite then some d.toBinary64 else none
    | none => none

/-- A double, unless it is infinite or not a number. -/
def finite? (x : Binary64) : Option Binary64 := if x.isFinite then some x else none

/-- The number that a value has: of numbers and truth values their own, of texts and octets the one
they write. -/
def number? : Value → Option Binary64
  | .bool b => some (.ofInt (if b then 1 else 0))
  | .int n => finite? (.ofInt n)
  | .float x => finite? x
  | .decimal d => finite? d.toBinary64
  | .text s => numeral? s.toList
  | .bytes octets => numeral? (decodeLossy octets)
  | _ => none

/-- The value of a column, nothing when the row does not have the column. -/
def cell (row : Row) (column : String) : Value := (row.lookup column).getD .null

/-- The numbers that a row has in the columns that matter, each with the values that count. -/
def readings (accepted : AcceptedValues) (row : Row) : List (Binary64 × List Int) :=
  accepted.filterMap fun (column, values) => (number? (cell row column)).map fun x => (x, values)

/-- Whether one of the columns holds a value that counts; unknown when none holds a number. -/
def holds? (accepted : AcceptedValues) (row : Row) : Option Bool :=
  let found := readings accepted row
  if found.any fun (x, values) => values.any x.equalsInt then some true
  else if found.isEmpty then none
  else some false

/-- The rule of a table; letter case does not count, and no name has no rule. -/
def ruleFor (rules : List (String × CompletionRule)) (table : String) : Option CompletionRule :=
  if table.isEmpty then none else rules.lookup (lowerText table)

/-- The verdict that a part of the rule of a table gives, unknown when the rule has no such part. -/
def verdict (part : CompletionRule → AcceptedValues) (rules : List (String × CompletionRule))
    (table : String) (row : Row) : Option Bool :=
  match ruleFor rules table with
  | none => none
  | some rule => if (part rule).isEmpty then none else holds? (part rule) row

/-- Whether the job of a row was completed. -/
def isCompleted (rules : List (String × CompletionRule)) (table : String) (row : Row) :
    Option Bool :=
  verdict CompletionRule.completedWhen rules table row

/-- Whether the job of a row failed. -/
def isFailed (rules : List (String × CompletionRule)) (table : String) (row : Row) : Option Bool :=
  verdict CompletionRule.failedWhen rules table row

/-- Whole numbers in order. -/
def sortedValues (values : List Int) : List Int := values.mergeSort fun a b => decide (a ≤ b)

/-- The values that count, column by column. -/
def describeValues (accepted : AcceptedValues) : String :=
  " OR ".intercalate (accepted.map fun (column, values) =>
    column ++ " = " ++ "/".intercalate ((sortedValues values).map toString))

/-- One line about the rule of a table. -/
def describeRule (table : String) (rule : CompletionRule) : String :=
  "- " ++ table ++ ": completed when " ++ describeValues rule.completedWhen
    ++ (if rule.failedWhen.isEmpty then "" else "; failed when " ++ describeValues rule.failedWhen)
    ++ (if rule.description.truthy then " (" ++ rule.description.shown ++ ")" else "")

/-- One line about each rule. -/
def describeLines (rules : List (String × CompletionRule)) : List String :=
  rules.map fun (table, rule) => describeRule table rule

/-- The rules for readers. -/
def describe (rules : List (String × CompletionRule)) : String :=
  "\n".intercalate (describeLines rules)

end Completion
end QueryGate
