import QueryGate.Sql.Keyword
import QueryGate.Text.Quoted

/-!
# Malformed queries

Why a text is no sequence of tokens, or a sequence of tokens no sequence of query blocks.
-/

namespace QueryGate
namespace Sql

/-- What is wrong with a query text. -/
inductive SyntaxFault where
  /-- A character that starts no token, or a quote that is never closed. -/
  | unexpected (c : Char) (offset : Nat)
  /-- A quoted name without a name. -/
  | emptyName (offset : Nat)
  /-- A closing parenthesis without an opening one. -/
  | unopened (offset : Nat)
  /-- An opening parenthesis without a closing one. -/
  | unclosed
  /-- A union with nothing on one side. -/
  | malformedUnion
  /-- A query block that does not start with `SELECT`. -/
  | noSelect
  /-- A clause that comes twice or too late. -/
  | unexpectedClause (c : Clause)
  /-- A `GROUP` or `ORDER` without `BY`. -/
  | missingBy (c : Clause)
  deriving DecidableEq, Repr

/-- The message of a fault. -/
def SyntaxFault.message : SyntaxFault → String
  | .unexpected c offset =>
    "unexpected character " ++ String.ofList (Text.quoted [c]) ++ " at offset " ++ toString offset
  | .emptyName offset => "empty quoted identifier at offset " ++ toString offset
  | .unopened offset => "unbalanced ')' at offset " ++ toString offset
  | .unclosed => "unbalanced '('"
  | .malformedUnion => "malformed UNION"
  | .noSelect => "query block must start with SELECT"
  | .unexpectedClause c => "unexpected " ++ c.name ++ " clause"
  | .missingBy c => "expected BY after " ++ c.name

end Sql
end QueryGate
