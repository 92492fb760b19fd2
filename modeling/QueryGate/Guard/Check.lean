import QueryGate.Guard.Projection
import QueryGate.Text.Blank
import QueryGate.Text.WordSearch

/-!
# The guard

The guard reads a statement as text, with runs of white space collapsed, and rejects whatever it
does not positively recognise.  The checks come in a fixed order and the first that fails decides:
the shape of the text, the forbidden words, the tokens and blocks, the tables, the select lists, the
join conditions, and the limit on the number of rows.
-/

namespace QueryGate
namespace Guard

open Sql

variable (a : AllowList)

/-- What may occur nowhere in a statement: its end, comments and escapes. -/
def terminators : List String := [";", "--", "/*", "*/", "#", "\\"]

/-- Checks the shape of a collapsed text. -/
def checkShape (text : List Char) : Except Rejection Unit :=
  if text.isEmpty then .error .empty
  else if !"SELECT ".toList.isPrefixOf (Text.upper text) then .error .notSelect
  else if terminators.any fun part => Text.containsText part.toList text then .error .terminator
  else .ok ()

/-- Checks that no forbidden word occurs, not even inside quotes. -/
def checkKeywords (text : List Char) : Except Rejection Unit :=
  match a.forbiddenKeywords.find? fun word => Text.containsWord word.toList text with
  | some word => .error (.keyword word)
  | none => .ok ()

/-- Checks that every block reads tables and all of them are allowed. -/
def checkTables (queries : List Query) : Except Rejection Unit :=
  if queries.any fun q => q.tables.isEmpty then .error .noTables
  else
    match (queries.flatMap Query.tables).filter fun table => !a.hasTable table with
    | [] => .ok ()
    | unknown => .error (.unknownTables unknown)

/-- Checks the condition of a join. -/
def checkJoin (q : Query) (join : Join) : Except Rejection Unit :=
  match join.on_ with
  | [leftName, .dot, leftColumn, .operator .eq, rightName, .dot, rightColumn] =>
    if [leftName, leftColumn, rightName, rightColumn].all Token.isIdentifier then
      match q.tableNamed? leftName.name, q.tableNamed? rightName.name with
      | some leftTable, some rightTable =>
        if (a.findJoin leftTable leftColumn.name rightTable rightColumn.name).isSome then .ok ()
        else .error (.joinNotAllowed leftTable leftColumn.name rightTable rightColumn.name)
      | _, _ => .error (.joinQualifier leftName leftColumn rightName rightColumn)
    else .error (.joinCondition join.on_)
  | on_ => .error (.joinCondition on_)

/-- Checks the conditions of the joins of a block. -/
def checkJoins (q : Query) : Except Rejection Unit := q.joins.forM (checkJoin a q)

/-- The number that a count of rows writes: at most eighteen digits. -/
def rowCount? : Token → Option Nat
  | .number digits =>
    if Text.isDigits digits && digits.length ≤ 18 then some (Text.digitsValue digits) else none
  | _ => none

/-- The number of rows of a limit: alone, behind the offset and a comma, or in front of `OFFSET`. -/
def limitRows? : List Token → Option Nat
  | [n] => rowCount? n
  | [m, between, n] =>
    match rowCount? m, rowCount? n with
    | some first, some second =>
      if between = .comma then some second
      else if between.isKeyword .offset then some first
      else none
    | _, _ => none
  | _ => none

/-- Checks the limit of a block that has one. -/
def checkRows (q : Query) : Except Rejection Unit :=
  match q.limit with
  | none => .ok ()
  | some limit =>
    match limitRows? limit with
    | none => .error .rowCount
    | some rows => if a.maxLimit < rows then .error (.tooManyRows rows a.maxLimit) else .ok ()

/-- Checks that the last block has a limit and that no limit is too large. -/
def checkLimit (queries : List Query) : Except Rejection Unit :=
  match queries.getLast?.bind Query.limit with
  | none => .error .missingLimit
  | some _ => queries.forM (checkRows a)

/-- Checks query blocks. -/
def checkQueries (queries : List Query) : Except Rejection Unit := do
  checkTables a queries
  queries.forM (checkProjection a)
  queries.forM (checkJoins a)
  checkLimit a queries

/-- Checks a statement. -/
def check (sql : List Char) : Except Rejection Unit := do
  let text := Text.squeeze sql
  checkShape text
  checkKeywords a text
  let queries ← queriesOf text
  checkQueries a queries

/-- Whether a statement passes. -/
def accepts (sql : List Char) : Bool :=
  match check a sql with
  | .ok _ => true
  | .error _ => false

/-- The tables that a statement reads, in order; none when it cannot be read. -/
def tablesOf (sql : List Char) : List String :=
  match queriesOf (Text.squeeze sql) with
  | .ok queries => queries.flatMap Query.tables
  | .error _ => []

end Guard

/-- The guard's answer. -/
inductive Verdict where
  | accepted
  | rejected (why : Guard.Rejection)
  deriving DecidableEq

namespace Verdict

/-- Whether the statement passed. -/
def ok : Verdict → Bool
  | accepted => true
  | rejected _ => false

/-- The message of a rejection. -/
def reason : Verdict → Option String
  | accepted => none
  | rejected why => some why.message

/-- The guard's answer to a statement. -/
def ofText (a : AllowList) (sql : String) : Verdict :=
  match Guard.check a sql.toList with
  | .ok _ => accepted
  | .error why => rejected why

theorem ofText_eq_accepted_iff {a : AllowList} {sql : String} :
    ofText a sql = accepted ↔ Guard.accepts a sql.toList = true := by
  unfold ofText Guard.accepts
  cases Guard.check a sql.toList with
  | ok _ => exact iff_of_true rfl rfl
  | error why => exact iff_of_false nofun nofun

/-- The guard's answer to any value; only a text can be a statement. -/
def ofValue (a : AllowList) : Value → Verdict
  | .text sql => ofText a sql
  | _ => rejected .empty

end Verdict
end QueryGate
