import QueryGate.Policy.Completion
import QueryGate.Policy.Document

/-!
# Read-only sessions

A statement is run on a connection of its own.  The transaction is made read-only before anything
else and given a time limit, the statement is sent exactly as it is, and whatever happens, the
transaction is rolled back before the connection is closed.  The calls to the database are recorded;
which of them fail is not known here but given by a `Failures`.
-/

namespace QueryGate
namespace Database

/-- A call to the database. -/
inductive Call where
  | connect
  | readOnly
  | timeLimit (milliseconds : Int)
  | verbatim
  | query (sql : String)
  | fetch
  | rollback
  | close
  deriving DecidableEq, Repr

/-- The statement that makes a transaction read-only. -/
def readOnlyStatement : String := "SET TRANSACTION READ ONLY"

/-- The statement that a call sends, if it sends one. -/
def Call.statement? : Call → Option String
  | .readOnly => some readOnlyStatement
  | .timeLimit milliseconds =>
    some ("SET SESSION MAX_EXECUTION_TIME = " ++ toString milliseconds)
  | .query sql => some sql
  | .connect | .verbatim | .fetch | .rollback | .close => none

/-- Whether a call fails and with which message, given the calls made before. -/
abbrev Failures := List Call → Call → Option String

/-- The table that a query yields. -/
structure ResultTable where
  columns : List String
  rows : List (List Value)

/-- How a database behaves: which calls fail, and what a query yields. -/
structure Behaviour where
  fails : Failures
  table : ResultTable

/-- Why a statement yields no rows. -/
inductive Fault where
  /-- A call failed with the given message. -/
  | failed (message : String)
  /-- The time limit is no whole number. -/
  | timeLimit (fault : Policy.DocumentFault)
  /-- A number in a row signals that it must not be used. -/
  | signalingNumber
  deriving DecidableEq

/-- The message of a fault. -/
def Fault.message : Fault → String
  | .failed message => message
  | .timeLimit fault => fault.message
  | .signalingNumber => "cannot convert signaling NaN to float"

/-- The calls made so far. -/
abbrev Trace := List Call

/-- Makes a call. -/
def perform (db : Behaviour) (trace : Trace) (call : Call) : Except Fault Unit × Trace :=
  match db.fails trace call with
  | some message => (.error (.failed message), trace ++ [call])
  | none => (.ok (), trace ++ [call])

/-- The value of a cell as it is handed on: numbers as doubles, days and times as text, octets as
the text they write. -/
def plainCell : Value → Except Fault Value
  | .decimal (.nan _ true _) => .error .signalingNumber
  | .decimal d => .ok (.float d.toBinary64)
  | .date d => .ok (.text d.iso)
  | .moment m => .ok (.text m.iso)
  | .span t => .ok (.text t.text)
  | .bytes octets => .ok (.text (String.ofList (Text.decodeLossy octets)))
  | v => .ok v

/-- A row of a result; of columns with one name the first gives the place, the last the value. -/
def rowOf (columns : List String) (cells : List Value) : Except Fault Row := do
  let cells ← (columns.zip cells).mapM fun (column, v) => do
    let cell ← plainCell v
    pure (column, cell)
  pure (Policy.namedOf cells)

/-- Makes a call and, if it succeeds, goes on. -/
def andThen {α : Type} (db : Behaviour) (trace : Trace) (call : Call)
    (next : Trace → Except Fault α × Trace) : Except Fault α × Trace :=
  match perform db trace call with
  | (.error e, trace) => (.error e, trace)
  | (.ok _, trace) => next trace

/-- What happens on an open connection before it is given back. -/
def statements (db : Behaviour) (sql : String) (limit : Value) (trace : Trace) :
    Except Fault (List Row) × Trace :=
  andThen db trace .readOnly fun trace =>
    match Policy.wholeNumber limit with
    | .error e => (.error (.timeLimit e), trace)
    | .ok milliseconds =>
      andThen db trace (.timeLimit milliseconds) fun trace =>
        andThen db trace .verbatim fun trace =>
          andThen db trace (.query sql) fun trace =>
            andThen db trace .fetch fun trace =>
              (db.table.rows.mapM (rowOf db.table.columns), trace)

/-- Rolls back and closes; a failure of either takes the place of the result. -/
def giveBack {α : Type} (db : Behaviour) (result : Except Fault α) (trace : Trace) :
    Except Fault α × Trace :=
  andThen db trace .rollback fun trace => andThen db trace .close fun trace => (result, trace)

/-- Runs a statement with a time limit in milliseconds. -/
def execute (db : Behaviour) (sql : String) (limit : Value) (trace : Trace) :
    Except Fault (List Row) × Trace :=
  andThen db trace .connect fun trace =>
    let (result, trace) := statements db sql limit trace
    giveBack db result trace

/-- A database in which nothing fails but, if a message is given, the query. -/
def answering (table : ResultTable) (failure : Option String) : Behaviour :=
  { table
    fails := fun _ call =>
      match call with
      | .query _ => failure
      | _ => none }

end Database
end QueryGate
