/-!
# Keywords of the query language

Words that have a meaning in a query.  A word is a keyword whatever its letter case, and only its
ASCII letters have one.  Most keywords are reserved: they end a table reference or a select item and
can never be an alias unless they are quoted.
-/

namespace QueryGate
namespace Sql

/-- A word with a meaning of its own. -/
inductive Keyword where
  | select | distinct | all | from_ | where_ | group | having | order | by_ | limit | offset
  | union | join | inner | left | right | outer | cross | natural | straightJoin | on_ | using_
  | as_ | and | or | xor | not | window | for_ | into | lock | procedure
  | in_ | like | between | is_ | regexp | rlike | sounds | member
  deriving DecidableEq, Repr

namespace Keyword

/-- Every keyword once. -/
def list : List Keyword :=
  [select, distinct, all, from_, where_, group, having, order, by_, limit, offset, union, join,
    inner, left, right, outer, cross, natural, straightJoin, on_, using_, as_, and, or, xor, not,
    window, for_, into, lock, procedure, in_, like, between, is_, regexp, rlike, sounds, member]

/-- The upper-case spelling. -/
def spelling : Keyword → String
  | select => "SELECT"
  | distinct => "DISTINCT"
  | all => "ALL"
  | from_ => "FROM"
  | where_ => "WHERE"
  | group => "GROUP"
  | having => "HAVING"
  | order => "ORDER"
  | by_ => "BY"
  | limit => "LIMIT"
  | offset => "OFFSET"
  | union => "UNION"
  | join => "JOIN"
  | inner => "INNER"
  | left => "LEFT"
  | right => "RIGHT"
  | outer => "OUTER"
  | cross => "CROSS"
  | natural => "NATURAL"
  | straightJoin => "STRAIGHT_JOIN"
  | on_ => "ON"
  | using_ => "USING"
  | as_ => "AS"
  | and => "AND"
  | or => "OR"
  | xor => "XOR"
  | not => "NOT"
  | window => "WINDOW"
  | for_ => "FOR"
  | into => "INTO"
  | lock => "LOCK"
  | procedure => "PROCEDURE"
  | in_ => "IN"
  | like => "LIKE"
  | between => "BETWEEN"
  | is_ => "IS"
  | regexp => "REGEXP"
  | rlike => "RLIKE"
  | sounds => "SOUNDS"
  | member => "MEMBER"

/-- Whether the keyword can stand for nothing else. -/
def reserved : Keyword → Bool
  | in_ | like | between | is_ | regexp | rlike | sounds | member => false
  | _ => true

/-- Whether the keyword, put after a column, makes a predicate other than equality or membership. -/
def startsPredicate : Keyword → Bool
  | not | like | between | is_ | regexp | rlike | sounds | member => true
  | _ => false

/-- The keyword that a word is. -/
def ofWord? (word : List Char) : Option Keyword :=
  list.find? fun k => k.spelling.toList == word.map Char.toUpper

end Keyword

/-- The clauses of a query block, in the order in which they may appear. -/
inductive Clause where
  | select | from_ | where_ | group | having | order | limit
  deriving DecidableEq, Repr

namespace Clause

/-- The place of a clause in the order. -/
def rank : Clause → Nat
  | select => 0
  | from_ => 1
  | where_ => 2
  | group => 3
  | having => 4
  | order => 5
  | limit => 6

/-- The keyword that opens a clause. -/
def keyword : Clause → Keyword
  | select => .select
  | from_ => .from_
  | where_ => .where_
  | group => .group
  | having => .having
  | order => .order
  | limit => .limit

/-- The name of a clause. -/
def name (c : Clause) : String := c.keyword.spelling

/-- Whether the opening keyword has to be followed by `BY`. -/
def needsBy : Clause → Bool
  | group | order => true
  | _ => false

/-- The clause that a keyword opens. -/
def ofKeyword? : Keyword → Option Clause
  | .select => some select
  | .from_ => some from_
  | .where_ => some where_
  | .group => some group
  | .having => some having
  | .order => some order
  | .limit => some limit
  | _ => none

@[simp] theorem ofKeyword?_keyword (c : Clause) : ofKeyword? c.keyword = some c := by
  cases c <;> rfl

end Clause
end Sql
end QueryGate
