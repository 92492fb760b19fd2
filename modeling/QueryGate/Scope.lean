import QueryGate.Policy.AllowList
import QueryGate.Sql.Block
import QueryGate.Text.Digit

/-!
# Tenant scope

A statement is scoped to a tenant when every query block is pinned to it.  The check knows nothing
of the guard.  A block has to have a condition whose outermost conjunction contains the tenant
column of the block's first table, equal to the tenant or in a list of nothing but the tenant; and
wherever in the statement the tenant column is compared, it is compared in that way.

Literals are compared with the tenant as numbers here.  `Indexed.checkScope` compares them as texts,
as it is done when the check runs, and has no answer where a tenant has too many digits to be
written; what it accepts is accepted here.
-/

namespace QueryGate
namespace Scope

open Sql

variable (column : String) (tenant : Int)

/-- The number that a token writes, as a number or between quotes, if it is one run of digits. -/
def digitsOf? : Token → Option (List Char)
  | .number digits => some digits
  | .literal _ body => some body
  | _ => none

/-- Whether a token writes the tenant. -/
def isTenant (t : Token) : Bool :=
  match digitsOf? t with
  | some digits => Text.isDigits digits && (Text.digitsValue digits : Int) == tenant
  | none => false

/-- Reads the rest of a list of tenants behind an opening parenthesis or a comma, and gives the
tokens behind its end. -/
def tenantList? : List Token → Option (List Token)
  | t :: .rparen :: rest => if isTenant tenant t then some rest else none
  | t :: .comma :: rest => if isTenant tenant t then tenantList? rest else none
  | _ => none

/-- Reads a list of tenants in parentheses, and gives the tokens behind it. -/
def tenants? : List Token → Option (List Token)
  | .lparen :: rest => tenantList? tenant rest
  | _ => none

/-- Whether the tenant column stands in front of the given tokens, and neither qualifies nor calls
anything. -/
def isColumn (t : Token) (rest : List Token) : Bool :=
  t.isIdentifier && t.name == column && rest.head? != some .dot && rest.head? != some .lparen

/-- Whether a token, standing in front of the tenant column, compares something with it. -/
def comparesBefore : Token → Bool
  | .operator _ => true
  | t => match t.keyword? with
    | some k => k.startsPredicate || k == .in_
    | none => false

/-- The token in front of a column reference; `before` is what stands in front of the column,
nearest first. -/
def leftNeighbour : List Token → Option Token
  | .dot :: _ :: t :: _ => some t
  | [.dot, _] => none
  | [.dot] => none
  | t :: _ => some t
  | [] => none

/-- Whether what follows the tenant column compares it, if at all, with the tenant only. -/
def pinnedAfter : List Token → Bool
  | [] => true
  | .operator op :: rest => op == .eq && (rest.head?.map (isTenant tenant)).getD false
  | t :: rest =>
    match t.keyword? with
    | some .in_ => (tenants? tenant rest).isSome
    | some k => !k.startsPredicate
    | none => true

/-- Whether every use of the tenant column is pinned; `before` is what stands in front, nearest
first. -/
def usesPinned (before : List Token) : List Token → Bool
  | [] => true
  | t :: rest =>
    (!isColumn column t rest ||
      (!((leftNeighbour before).map comparesBefore).getD false && pinnedAfter tenant rest))
      && usesPinned (t :: before) rest

/-- The names of the first table of a block: its own and its alias. -/
def firstNames : List Token → List String
  | [] => []
  | t :: r =>
    if t.isIdentifier then
      let r := match r with
        | w :: more => if w.isKeyword .as_ then more else r
        | [] => []
      match r with
      | n :: _ => if n.isPlainIdentifier then [t.name, n.name] else [t.name]
      | [] => [t.name]
    else []

/-- The conjuncts of a condition from some depth on, the first of which is under way; none when a
disjunction binds less than they do.  The `AND` of a `BETWEEN` separates nothing. -/
def conjunctsFrom (depth : Int) (between : Bool) : List Token → Option (List (List Token))
  | [] => some [[]]
  | t :: r =>
    let next := depthAfter depth t
    if depthAt depth t = 0 then
      match t.keyword? with
      | some .or | some .xor => none
      | some .between => (conjunctsFrom next true r).map (consFirst t)
      | some .and =>
        if between then (conjunctsFrom next false r).map (consFirst t)
        else (conjunctsFrom next false r).map ([] :: ·)
      | _ => (conjunctsFrom next between r).map (consFirst t)
    else (conjunctsFrom next between r).map (consFirst t)

/-- The conjuncts of a condition; none when it has an outermost `OR` or `XOR`. -/
def conjuncts (condition : List Token) : Option (List (List Token)) :=
  conjunctsFrom 0 false condition

/-- Whether tokens say that the column in front of them is the tenant. -/
def bindsTenant : List Token → Bool
  | [.operator .eq, t] => isTenant tenant t
  | t :: rest => t.isKeyword .in_ && tenants? tenant rest == some []
  | [] => false

/-- Whether a conjunct says that the tenant column is the tenant; a qualifier has to be one of
`owners`. -/
def pins (owners : List String) : List Token → Bool
  | q :: .dot :: c :: rest =>
    q.isIdentifier && owners.contains q.name && isColumn column c rest && bindsTenant tenant rest
  | c :: rest => isColumn column c rest && bindsTenant tenant rest
  | [] => false

/-- Why a statement is not scoped to a tenant. -/
inductive Fault where
  /-- The tenant is no whole number. -/
  | noTenant
  /-- There is no statement. -/
  | noStatement
  | malformed (fault : SyntaxFault)
  /-- Somewhere the tenant column is compared with something else. -/
  | otherComparison
  /-- A block has no condition. -/
  | noCondition
  /-- A block has a condition with an outermost disjunction. -/
  | disjunction
  /-- A block has a condition that does not pin the tenant column. -/
  | notPinned
  deriving DecidableEq

/-- Checks a block. -/
def checkBlock (sections : List Section) : Except Fault Unit :=
  match body .where_ sections with
  | [] => .error .noCondition
  | condition =>
    match conjuncts condition with
    | none => .error .disjunction
    | some parts =>
      if parts.any (pins column tenant (firstNames (body .from_ sections))) then .ok ()
      else .error .notPinned

/-- The tokens of a statement and the clauses of its blocks. -/
def blocksOf (sql : List Char) : Except SyntaxFault (List Token × List (List Section)) := do
  let ts ← tokenize sql
  let blocks ← splitUnion ts
  let clauses ← blocks.mapM splitClauses
  pure (ts, clauses)

/-- Checks that a statement is scoped to a tenant. -/
def check (sql : List Char) : Except Fault Unit :=
  if (Text.trim sql).isEmpty then .error .noStatement
  else
    match blocksOf sql with
    | .error fault => .error (.malformed fault)
    | .ok (ts, blocks) =>
      if usesPinned column tenant [] ts then blocks.forM (checkBlock column tenant)
      else .error .otherComparison

/-- Whether a statement is scoped to a tenant. -/
def holds (sql : List Char) : Bool :=
  match check column tenant sql with
  | .ok _ => true
  | .error _ => false

theorem holds_iff {sql : List Char} :
    holds column tenant sql = true ↔ check column tenant sql = .ok () := by
  unfold holds
  cases check column tenant sql with
  | ok _ => exact iff_of_true rfl rfl
  | error fault => exact iff_of_false nofun nofun

/-- Checks that any value is a statement that is scoped to any other; only a whole number can be
a tenant and only a text a statement. -/
def checkValues (sql tenant : Value) : Except Fault Unit :=
  match tenant, sql with
  | .int n, .text s => check column n s.toList
  | .int _, _ => .error .noStatement
  | _, _ => .error .noTenant

/-- The warning that a fault is recorded with, if it is. -/
def Fault.warning? : Fault → Option String
  | .noTenant | .noStatement => none
  | .malformed fault => some ("Tenant scope check could not tokenize SQL: " ++ fault.message)
  | .otherComparison =>
    some
      ("Tenant column " ++ column ++ " compared against something other than " ++ toString tenant)
  | .noCondition => some "Query block without WHERE clause -- not tenant scoped"
  | .disjunction => some "Top-level OR in WHERE clause -- tenant predicate not binding"
  | .notPinned =>
    some ("No " ++ column ++ " predicate for tenant " ++ toString tenant ++ " in query block")

end Scope
end QueryGate
