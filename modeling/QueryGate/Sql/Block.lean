import QueryGate.Sql.Lexer
import QueryGate.Sql.Structure

/-!
# Query blocks and their clauses

A statement is one query block or several with `UNION` between them, and a block is a list of
clauses.  Both are found at depth zero only, so what stands in parentheses stays whole.
-/

namespace QueryGate
namespace Sql

/-- The blocks between the outermost unions, when the first token stands at the given depth.  The
word right after a union that says what happens to duplicates belongs to it. -/
def blocksFrom (afterUnion : Bool) (depth : Int) : List Token → List (List Token)
  | [] => [[]]
  | t :: r =>
    if afterUnion && t.isOneOf [.all, .distinct] then blocksFrom false (depthAfter depth t) r
    else if depthAt depth t = 0 ∧ t.isKeyword .union then
      [] :: blocksFrom true (depthAfter depth t) r
    else consFirst t (blocksFrom false (depthAfter depth t) r)

/-- Splits a statement into its query blocks, none of which may be empty. -/
def splitUnion (ts : List Token) : Except SyntaxFault (List (List Token)) :=
  let blocks := blocksFrom false 0 ts
  if blocks.any List.isEmpty then .error .malformedUnion else .ok blocks

/-- A clause and what follows its keyword. -/
structure Section where
  clause : Clause
  body : List Token
  deriving DecidableEq, Repr

/-- The rest of the body of a clause, and the clauses after it.  A clause comes at most once and
none comes after one of higher rank. -/
def sectionsFrom (current : Clause) (depth : Int) :
    List Token → Except SyntaxFault (List Token × List Section)
  | [] => .ok ([], [])
  | t :: r =>
    match (if depthAt depth t = 0 then t.clause? else none) with
    | none =>
      match sectionsFrom current (depthAfter depth t) r with
      | .error fault => .error fault
      | .ok (body, more) => .ok (t :: body, more)
    | some next =>
      if next.rank ≤ current.rank then .error (.unexpectedClause next)
      else if next.needsBy then
        match r with
        | [] => .error (.missingBy next)
        | b :: rest =>
          if b.isKeyword .by_ then
            match sectionsFrom next 0 rest with
            | .error fault => .error fault
            | .ok (body, more) => .ok ([], ⟨next, body⟩ :: more)
          else .error (.missingBy next)
      else
        match sectionsFrom next 0 r with
        | .error fault => .error fault
        | .ok (body, more) => .ok ([], ⟨next, body⟩ :: more)

/-- Splits a query block into its clauses, the first of which is the select list. -/
def splitClauses : List Token → Except SyntaxFault (List Section)
  | [] => .error .noSelect
  | t :: r =>
    if t.isKeyword .select then
      match sectionsFrom .select 0 r with
      | .error fault => .error fault
      | .ok (body, more) => .ok (⟨.select, body⟩ :: more)
    else .error .noSelect

theorem splitClauses_eq_ok {block : List Token} {sections : List Section}
    (h : splitClauses block = .ok sections) :
    ∃ t r items more, block = t :: r ∧ t.isKeyword .select = true ∧
      sectionsFrom .select 0 r = .ok (items, more) ∧ sections = ⟨.select, items⟩ :: more := by
  cases block with
  | nil => cases h
  | cons t r =>
    rw [splitClauses] at h
    split at h
    · rename_i hselect
      split at h
      · cases h
      · rename_i items more hread
        cases h
        exact ⟨t, r, items, more, rfl, hselect, hread, rfl⟩
    · cases h

/-- The body of a clause, if the block has the clause. -/
def body? (clause : Clause) (sections : List Section) : Option (List Token) :=
  (sections.find? fun s => s.clause == clause).map (·.body)

/-- The body of a clause, empty if the block does not have it. -/
def body (clause : Clause) (sections : List Section) : List Token := (body? clause sections).getD []

end Sql
end QueryGate
