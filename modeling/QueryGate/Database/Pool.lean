import QueryGate.Record
import QueryGate.Settings

/-!
# The pool of connections

The pool is made when it is first needed and kept until it is disposed of.  Every new connection of
a pool is told the time zone; a server that does not know the zone leaves the connection usable.
-/

namespace QueryGate
namespace Database

/-- A call that concerns the pool. -/
inductive PoolCall where
  /-- A pool is made for the database at an address. -/
  | create (url : String)
  /-- The pool is told to report new connections. -/
  | listen
  /-- A new connection is told the time zone. -/
  | setTimeZone (zone : String)
  /-- The work on a new connection is done. -/
  | closeCursor
  | dispose
  deriving DecidableEq, Repr

/-- The statement that sets the time zone. -/
def timeZoneStatement : String := "SET time_zone = %s"

/-- The statement that a call sends, if it sends one. -/
def PoolCall.statement? : PoolCall → Option String
  | .setTimeZone _ => some timeZoneStatement
  | .create _ | .listen | .closeCursor | .dispose => none

/-- The options of a pool. -/
def poolOptions : List (String × Value) :=
  [("echo", .bool false), ("max_overflow", .int 0), ("pool_pre_ping", .bool true),
    ("pool_recycle", .int 3600), ("pool_size", .int 10)]

/-- The state of the pool: whether there is one, the time zone of the last one made, the calls so
far and what was written down. -/
structure Pool where
  isOpen : Bool
  timeZone : Option String
  calls : List PoolCall
  records : List Record

namespace Pool

/-- No pool has been made. -/
def none : Pool := ⟨false, Option.none, [], []⟩

/-- Makes the pool unless there is one. -/
def get (s : Settings) (p : Pool) : Pool :=
  if p.isOpen then p
  else
    { isOpen := true
      timeZone := some s.dbTimeZone
      calls := p.calls ++ [.create s.databaseUrl, .listen]
      records := p.records ++ [.operation .info
        ("DB engine created  host=" ++ s.dbHost ++ "  db=" ++ s.dbName)] }

/-- What is done with a new connection; `failure` is the message with which the server refuses the
time zone, if it does. -/
def connected (failure : Option String) (p : Pool) : Pool :=
  match p.timeZone with
  | Option.none => p
  | some zone =>
    { p with
      calls := p.calls ++ [.setTimeZone zone, .closeCursor]
      records := p.records ++ match failure with
        | Option.none => []
        | some message =>
          [.operation .error ("Failed to set time_zone " ++ zone ++ ": " ++ message)] }

/-- Disposes of the pool if there is one. -/
def dispose (p : Pool) : Pool :=
  if p.isOpen then { p with isOpen := false, calls := p.calls ++ [.dispose] } else p

end Pool
end Database
end QueryGate
