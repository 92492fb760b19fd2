import QueryGate.Guard.Source
import QueryGate.Sql.Block

/-!
# Query blocks as the guard sees them

Of a block the guard looks at the select list, the tables and the limit.  What stands in the other
clauses is free, but no second `SELECT` may occur anywhere in a block.
-/

namespace QueryGate
namespace Guard

open Sql

/-- A query block: its select list, its tables if it has any, and what follows `LIMIT`. -/
structure Query where
  select : List Token
  source : Option Source
  limit : Option (List Token)
  deriving DecidableEq, Repr

namespace Query

/-- The tables with their aliases. -/
def refs (q : Query) : List TableRef := (q.source.map Source.refs).getD []

/-- The tables in the order in which they are named. -/
def tables (q : Query) : List String := q.refs.map (·.table)

/-- The joins in order. -/
def joins (q : Query) : List Join := (q.source.map (·.joins)).getD []

/-- The table that a name stands for. -/
def tableNamed? (q : Query) (name : String) : Option String := Guard.tableNamed? q.refs name

/-- Reads a query block. -/
def ofBlock (block : List Token) : Except Rejection Query :=
  match block with
  | [] => .error .notSelect
  | t :: r =>
    if !t.isKeyword .select then .error .notSelect
    else if r.any fun u => u.isKeyword .select then .error .subquery
    else
      match splitClauses block with
      | .error fault => .error (.malformed fault)
      | .ok sections =>
        let select := body .select sections
        let limit := body? .limit sections
        match body .from_ sections with
        | [] => .ok ⟨select, none, limit⟩
        | ts =>
          match sourceOf ts with
          | .error e => .error e
          | .ok source => .ok ⟨select, some source, limit⟩

end Query

/-- Reads the query blocks of a text. -/
def queriesOf (text : List Char) : Except Rejection (List Query) :=
  match tokenize text with
  | .error fault => .error (.malformed fault)
  | .ok ts =>
    match splitUnion ts with
    | .error fault => .error (.malformed fault)
    | .ok blocks => blocks.mapM Query.ofBlock

end Guard
end QueryGate
