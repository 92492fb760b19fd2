import QueryGate.Indexed.Structure
import QueryGate.Scope
import QueryGate.Text.Blank

/-!
# Tenant scope by place

The check that a statement is scoped to a tenant as it runs.  Literals are compared as texts, so
that only the tenant has to be written and no literal is ever read as a number.
-/

namespace QueryGate
namespace Indexed

open Sql

section Column

variable (column : String) (tenant : Int)

/-- Whether a token writes the tenant. -/
def isTenant (t : Token) : Run Bool :=
  match Scope.digitsOf? t with
  | none => .ok false
  | some digits =>
    guarded (Text.isDigits digits) (do
      let text ← decimalText tenant
      .ok (Text.withoutZeros digits == text.toList))

/-- Whether the token at a place writes the tenant. -/
def tenantAt (ts : List Token) (place : Nat) : Run Bool := do
  let t ← item ts place
  isTenant tenant t

/-- Reads a list of tenants from a place behind its opening parenthesis on, and gives the place
behind its end; `literal` says whether a literal comes next or what is between two of them. -/
def tenantListFrom (ts : List Token) (place : Nat) (literal : Bool) : Run (Option Nat) :=
  if place < ts.length then do
    let t ← item ts place
    if literal then
      let ok ← isTenant tenant t
      if ok then tenantListFrom ts (place + 1) false else .ok none
    else if t = .rparen then .ok (some (place + 1))
    else if t = .comma then tenantListFrom ts (place + 1) true
    else .ok none
  else .ok none
  termination_by ts.length - place

/-- Reads a list of tenants in parentheses, and gives the place behind it. -/
def tenantsAt (ts : List Token) (place : Nat) : Run (Option Nat) := do
  let opens ← itemIs ts place (· == .lparen)
  if opens then tenantListFrom tenant ts (place + 1) true else .ok none

/-- Whether the tenant column stands at a place and neither qualifies nor calls anything. -/
def columnAt (ts : List Token) (place : Nat) : Run Bool := do
  let named ← itemHas ts place fun t => t.isIdentifier && t.name == column
  guarded named (do
    let more ← itemIs ts (place + 1) fun u => u == .dot || u == .lparen
    .ok (!more))

/-- The token in front of the column reference that ends at a place. -/
def neighbourAt (ts : List Token) (place : Nat) : Run (Option Token) :=
  if place = 0 then .ok none
  else do
    let t ← item ts ((place : Int) - 1)
    if t = .dot then
      if 3 ≤ place then do
        let u ← item ts ((place : Int) - 3)
        .ok (some u)
      else .ok none
    else .ok (some t)

/-- Whether what follows the tenant column at a place compares it, if at all, with the tenant. -/
def pinnedBehind (ts : List Token) (place : Nat) : Run Bool :=
  if place + 1 < ts.length then do
    let t ← item ts (place + 1 : Nat)
    match t with
    | .operator op => guarded (op == .eq && place + 2 < ts.length) (tenantAt tenant ts (place + 2))
    | t =>
      if t.isKeyword .in_ then
        let stop ← tenantsAt tenant ts (place + 2)
        .ok stop.isSome
      else .ok !((t.keyword?.map Keyword.startsPredicate).getD false)
  else .ok true

/-- Whether the use of the tenant column at a place, if there is one, is pinned. -/
def usePinned (ts : List Token) (place : Nat) : Run Bool := do
  let used ← columnAt column ts place
  if used then
    let before ← neighbourAt ts place
    if (before.map Scope.comparesBefore).getD false then .ok false
    else pinnedBehind tenant ts place
  else .ok true

/-- Whether every use of the tenant column from a place on is pinned. -/
def usesPinnedFrom (ts : List Token) (place : Nat) : Run Bool :=
  if place < ts.length then do
    let pinned ← usePinned column tenant ts place
    if pinned then usesPinnedFrom ts (place + 1) else .ok false
  else .ok true
  termination_by ts.length - place

/-- The names of the first table of a block: its own and its alias. -/
def firstNames (ts : List Token) : Run (List String) := do
  let named ← itemIs ts 0 (·.isIdentifier)
  if named then
    let t ← item ts 0
    let announced ← itemIs (ts.drop 1) 0 (·.isKeyword .as_)
    let rest := if announced then ts.drop 2 else ts.drop 1
    let aliased ← itemIs rest 0 (·.isPlainIdentifier)
    if aliased then
      let n ← item rest 0
      .ok [t.name, n.name]
    else .ok [t.name]
  else .ok []

/-- A disjunction at depth zero ends the cutting, and an `AND` there that belongs to no `BETWEEN`
starts a new part. -/
def conjunctStep (s : Int × Bool) (t : Token) : Option ((Int × Bool) × Move) :=
  let next := depthAfter s.1 t
  if depthAt s.1 t = 0 then
    if t.isOneOf [.or, .xor] then none
    else if t.isKeyword .between then some ((next, true), .keep)
    else if t.isKeyword .and then some ((next, false), if s.2 then .keep else .start)
    else some ((next, s.2), .keep)
  else some ((next, s.2), .keep)

/-- The conjuncts of a condition; none when it has an outermost `OR` or `XOR`. -/
def conjuncts (condition : List Token) : Run (Option (List (List Token))) :=
  cutInto conjunctStep [[]] (0, false) condition

/-- Whether tokens say that the column in front of them is the tenant. -/
def bindsTenant (ts : List Token) : Run Bool := do
  let equals ← guarded (ts.length = 2) (itemHas ts 0 (· == .operator .eq))
  if equals then tenantAt tenant ts 1
  else
    let lists ← itemIs ts 0 (·.isKeyword .in_)
    guarded lists (do
      let stop ← tenantsAt tenant ts 1
      .ok (stop == some ts.length))

/-- Whether the reference to the tenant column at a place is all of a conjunct but for what says
that it is the tenant. -/
def pinsAt (part : List Token) (place : Nat) : Run Bool := do
  let there ← guarded (place < part.length) (columnAt column part place)
  guarded there (bindsTenant tenant (part.drop (place + 1)))

/-- Whether a conjunct says that the tenant column is the tenant; a qualifier has to be one of
`owners`. -/
def pins (owners : List String) (part : List Token) : Run Bool := do
  let qualified ← guarded (3 ≤ part.length) (itemHas part 1 (· == .dot))
  if qualified then
    let owned ← itemHas part 0 fun q => q.isIdentifier && owners.contains q.name
    guarded owned (pinsAt column tenant part 2)
  else pinsAt column tenant part 0

/-- Whether one of several conjuncts pins the tenant column; the first one ends the search. -/
def anyPins (owners : List String) : List (List Token) → Run Bool
  | [] => .ok false
  | part :: parts => do
    let pinned ← pins column tenant owners part
    if pinned then .ok true else anyPins owners parts

/-- Checks a block. -/
def checkBlock (sections : List Section) : Run (Except Scope.Fault Unit) :=
  match body? .where_ sections with
  | some (t :: r) => do
    let parts ← conjuncts (t :: r)
    match parts with
    | none => .ok (.error .disjunction)
    | some parts =>
      let owners ← firstNames (body .from_ sections)
      let pinned ← anyPins column tenant owners parts
      .ok (if pinned then .ok () else .error .notPinned)
  | _ => .ok (.error .noCondition)

/-- Checks blocks; the first that fails ends the check. -/
def checkBlocks : List (List Section) → Run (Except Scope.Fault Unit)
  | [] => .ok (.ok ())
  | sections :: more => do
    let checked ← checkBlock column tenant sections
    match checked with
    | .ok _ => checkBlocks more
    | .error fault => .ok (.error fault)

end Column

/-- The tokens of a statement and the clauses of its blocks, or why it is malformed. -/
def readStatement (sql : List Char) : Run (Except SyntaxFault (List Token × List (List Section))) :=
  let run : Run (List Token × List (List Section)) := do
    let ts ← tokensOf sql
    let raws ← splitUnion ts
    let blocks ← raws.mapM splitClauses
    .ok (ts, blocks)
  match run with
  | .ok read => .ok (.ok read)
  | .error (.malformed fault) => .ok (.error fault)
  | .error e => .error e

/-- Checks that a statement is scoped to a tenant. -/
def checkScope (column : String) (tenant : Int) (sql : List Char) : Run (Except Scope.Fault Unit) :=
  if (Text.trim sql).isEmpty then .ok (.error .noStatement)
  else do
    let read ← readStatement sql
    match read with
    | .error fault => .ok (.error (.malformed fault))
    | .ok (ts, blocks) =>
      let pinned ← usesPinnedFrom column tenant ts 0
      if pinned then checkBlocks column tenant blocks else .ok (.error .otherComparison)

/-- Checks that any value is a statement that is scoped to any other; only a whole number can be
a tenant and only a text a statement. -/
def checkValues (column : String) (sql tenant : Value) : Run (Except Scope.Fault Unit) :=
  match tenant, sql with
  | .int n, .text s => checkScope column n s.toList
  | .int _, _ => .ok (.error .noStatement)
  | _, _ => .ok (.error .noTenant)

end Indexed
end QueryGate
