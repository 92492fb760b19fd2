import QueryGate.Cache
import QueryGate.Policy.AllowList
import QueryGate.Text.Blank
import QueryGate.Text.Quoted

/-!
# The catalogue of the database

Which tables the database has, and which columns an allowed table has.  The answers come out of a
cache; only when it has none is the database looked at.  Every call says which lookups it made.
-/

namespace QueryGate
namespace Catalogue

/-- A column of a table. -/
structure Column where
  name : String
  type : String
  nullable : Bool
  deriving DecidableEq, Repr

/-- What a database has: its tables, the columns of some of them, and the message with which
every lookup fails, if it does. -/
structure Database where
  tables : List String
  columns : List (String × List Column)
  failure : Option String

/-- A lookup in the database. -/
inductive Lookup where
  | tableNames
  | columnsOf (table : String)
  deriving DecidableEq, Repr

/-- The written form of a lookup. -/
def Lookup.text : Lookup → String
  | .tableNames => "get_table_names"
  | .columnsOf table => "get_columns " ++ table

/-- The key that the answer to a lookup is remembered under. -/
def Lookup.key : Lookup → String
  | .tableNames => "tables"
  | .columnsOf table => "columns:" ++ table

/-- A remembered answer. -/
inductive Answer where
  | tables (names : List String)
  | columns (columns : List Column)
  deriving DecidableEq, Repr

/-- Why a call has no answer. -/
inductive Fault where
  /-- The table is neither a text nor nothing. -/
  | illTyped
  /-- The table, shown as given, is no plain name. -/
  | invalidName (shown : String)
  | notAllowed (table : String)
  /-- The lookup failed with the given message. -/
  | failed (message : String)
  deriving DecidableEq

/-- The message of a fault. -/
def Fault.message : Fault → String
  | .illTyped => ""
  | .invalidName shown => "Invalid table name: " ++ shown
  | .notAllowed table => "Table not allowed: " ++ table
  | .failed message => message

/-- The cache of the catalogue. -/
abbrev Store := Cache Answer

/-- What a lookup finds. -/
def Database.answer (db : Database) (l : Lookup) : Except Fault (Option Answer) :=
  match db.failure with
  | some message => .error (.failed message)
  | none =>
    match l with
    | .tableNames => .ok (some (.tables (AllowList.sorted db.tables)))
    | .columnsOf table => .ok (some (.columns ((db.columns.lookup table).getD [])))

/-- What a call gave, the lookups it made, and the cache behind it. -/
structure Outcome where
  result : Except Fault Answer
  lookups : List Lookup
  store : Store

/-- Answers a lookup out of the cache, which is asked at one moment, or out of the database, whose
answer comes at another, and into the cache. -/
def lookUp (db : Database) (store : Store) (asked answered : Binary64) (l : Lookup) : Outcome :=
  let loaded := store.getOrLoad asked answered l.key (db.answer l)
  { result := loaded.result.map fun answer => answer.getD (.tables [])
    lookups := if loaded.asked then [l] else []
    store := loaded.cache }

/-- The names of all tables. -/
def listTables (db : Database) (store : Store) (asked answered : Binary64) : Outcome :=
  lookUp db store asked answered .tableNames

/-- Characters of plain names. -/
def isNameChar (c : Char) : Bool := c.isAlphanum || c == '_'

/-- Whether a text is a plain name, which a line break may follow. -/
def isPlainName (cs : List Char) : Bool :=
  let name := Text.withoutLineBreak cs
  !name.isEmpty && name.all isNameChar

/-- The columns of an allowed table; letter case does not count. -/
def listColumns (a : AllowList) (db : Database) (store : Store) (asked answered : Binary64)
    (table : String) : Outcome :=
  if !isPlainName table.toList then ⟨.error (.invalidName (quotedText table)), [], store⟩
  else
    let name := lowerText table
    if !a.isAllowedTable name then ⟨.error (.notAllowed name), [], store⟩
    else lookUp db store asked answered (.columnsOf name)

/-- The columns of the table that a value names; only a text can name one. -/
def listColumnsOf (a : AllowList) (db : Database) (store : Store) (asked answered : Binary64)
    (table : Value) : Outcome :=
  match table with
  | .text name => listColumns a db store asked answered name
  | v => ⟨.error (if v.truthy then .illTyped else .invalidName v.quoted), [], store⟩

end Catalogue
end QueryGate
