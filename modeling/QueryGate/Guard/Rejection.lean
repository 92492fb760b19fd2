import QueryGate.Sql.SyntaxFault
import QueryGate.Sql.Token

/-!
# Rejections

Why the guard turns a statement down.  The message of a rejection is for people: it names the check
that failed and what it failed on.
-/

namespace QueryGate
namespace Guard

open Sql

/-- A failed check. -/
inductive Rejection where
  /-- There is no statement. -/
  | empty
  /-- A block is no `SELECT`. -/
  | notSelect
  /-- The text holds the end of a statement, a comment or an escape. -/
  | terminator
  | keyword (word : String)
  | malformed (fault : SyntaxFault)
  | subquery
  | missingTable
  | derivedTable
  | notATable (near : Token)
  /-- A table with the name of a database in front. -/
  | qualifiedTable (written : List Token)
  | missingAlias (table : String)
  /-- A name that stands for two tables. -/
  | ambiguousAlias (name : String)
  | commaJoin
  | unsupportedFrom (near : Token)
  | joinWithoutOn (table : String)
  /-- A block that reads no table. -/
  | noTables
  | unknownTables (tables : List String)
  | badAlias (near : Token)
  | unknownColumns (items : List (List Token))
  /-- A join condition that is no equality of two qualified columns. -/
  | joinCondition (on_ : List Token)
  /-- A join condition on a name that stands for no table of the block. -/
  | joinQualifier (leftName leftColumn rightName rightColumn : Token)
  | joinNotAllowed (leftTable leftColumn rightTable rightColumn : String)
  /-- A limit that is no number of rows. -/
  | rowCount
  | missingLimit
  | tooManyRows (rows : Nat) (bound : Int)
  deriving DecidableEq

/-- A select item for readers. -/
def itemText (item : List Token) : String :=
  if item.isEmpty then "<empty>" else writtenWith " " item

/-- The message of a rejection. -/
def Rejection.message : Rejection → String
  | .empty => "empty"
  | .notSelect => "not SELECT"
  | .terminator => "contains terminators/comments"
  | .keyword word => "disallowed keyword: " ++ word
  | .malformed fault => "unparseable SQL: " ++ fault.message
  | .subquery => "subqueries not allowed"
  | .missingTable => "missing table name"
  | .derivedTable => "derived tables not allowed"
  | .notATable near => "expected table name near '" ++ near.writtenText ++ "'"
  | .qualifiedTable written => "table not allowed: " ++ lowerText (writtenWith "" written)
  | .missingAlias table => "expected alias after AS for " ++ table
  | .ambiguousAlias name => "ambiguous alias: " ++ name
  | .commaJoin => "comma joins not allowed"
  | .unsupportedFrom near => "unsupported FROM clause near '" ++ near.writtenText ++ "'"
  | .joinWithoutOn table => "join without ON condition: " ++ table
  | .noTables => "no tables"
  | .unknownTables tables => "table not allowed: " ++ ", ".intercalate tables
  | .badAlias near => "bad alias '" ++ near.writtenText ++ "'"
  | .unknownColumns items => "unknown select col(s): " ++ ", ".intercalate (items.map itemText)
  | .joinCondition on_ => "join condition must be table.col = table.col: " ++ writtenWith " " on_
  | .joinQualifier leftName leftColumn rightName rightColumn =>
    "unknown join qualifier in " ++ leftName.writtenText ++ "." ++ leftColumn.writtenText ++ " = "
      ++ rightName.writtenText ++ "." ++ rightColumn.writtenText
  | .joinNotAllowed leftTable leftColumn rightTable rightColumn =>
    "join not allowed: " ++ leftTable ++ "." ++ leftColumn ++ "=" ++ rightTable ++ "."
      ++ rightColumn
  | .rowCount => "non-numeric LIMIT"
  | .missingLimit => "missing LIMIT"
  | .tooManyRows rows bound =>
    "LIMIT exceeds bound (" ++ toString rows ++ " > " ++ toString bound ++ ")"

end Guard
end QueryGate
