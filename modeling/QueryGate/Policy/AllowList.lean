import QueryGate.Text.Case
import QueryGate.Value.Basic

/-!
# Allow-lists

An allow-list says what a query may read: the tables and the columns of each, the joins between
them, the words that may not occur, the functions that may be called on times, the largest number of
rows and the column that every query has to pin to its tenant.  It also says, table by table, which
values of a row mean that its job was completed or failed.  All names are in lower case and all
words in upper case.
-/

namespace QueryGate

/-- An equality between columns of two tables on which they may be joined. -/
structure JoinShape where
  leftTable : String
  leftColumn : String
  rightTable : String
  rightColumn : String
  deriving DecidableEq, Repr

namespace JoinShape

/-- Whether an equality is the shape, written in either order. -/
def covers (j : JoinShape) (aTable aColumn bTable bColumn : String) : Bool :=
  j == ⟨aTable, aColumn, bTable, bColumn⟩ || j == ⟨bTable, bColumn, aTable, aColumn⟩

/-- The equality. -/
def text (j : JoinShape) : String :=
  j.leftTable ++ "." ++ j.leftColumn ++ " = " ++ j.rightTable ++ "." ++ j.rightColumn

end JoinShape

/-- For each column the values that count. -/
abbrev AcceptedValues := List (String × List Int)

/-- What the values of a row of a table say about its completion. -/
structure CompletionRule where
  table : String
  description : Value
  completedWhen : AcceptedValues
  failedWhen : AcceptedValues

/-- What queries may read. -/
structure AllowList where
  version : Value
  tenantColumn : String
  maxLimit : Int
  tables : List (String × List String)
  joins : List JoinShape
  forbiddenKeywords : List String
  timeFunctions : List String
  completionRules : List (String × CompletionRule)

namespace AllowList

/-- The columns of a table given by its lower-case name. -/
def columns (a : AllowList) (table : String) : List String := (a.tables.lookup table).getD []

/-- Whether a lower-case name is the name of a table. -/
def hasTable (a : AllowList) (table : String) : Bool := (a.tables.lookup table).isSome

/-- A table of an allow-list is listed with its columns. -/
theorem exists_mem_of_hasTable {a : AllowList} {table : String} (h : a.hasTable table = true) :
    ∃ columns, (table, columns) ∈ a.tables := by
  obtain ⟨columns, hcolumns⟩ := Option.isSome_iff_exists.mp h
  obtain ⟨before, after, htables, _⟩ := List.lookup_eq_some_iff.mp hcolumns
  exact ⟨columns, by rw [htables]; simp⟩

/-- The columns of a table; letter case does not count. -/
def columnsFor (a : AllowList) (table : String) : List String := a.columns (lowerText table)

/-- Whether a name is the name of a table; letter case does not count. -/
def isAllowedTable (a : AllowList) (table : String) : Bool := a.hasTable (lowerText table)

/-- The first shape that covers an equality. -/
def findJoin (a : AllowList) (aTable aColumn bTable bColumn : String) : Option JoinShape :=
  a.joins.find? fun j => j.covers aTable aColumn bTable bColumn

/-- Texts in the order of their code points. -/
def sorted (names : List String) : List String := names.mergeSort fun x y => !decide (y < x)

/-- The names of the tables in order. -/
def tableNames (a : AllowList) : List String := sorted (a.tables.map (·.1))

end AllowList
end QueryGate
