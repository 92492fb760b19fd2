import QueryGate.Indexed.Run
import QueryGate.Sql.Block

/-!
# Cutting tokens by place

The loops that cut the tokens of a statement into blocks, clauses and parts.  A loop holds what it
has cut so far and adds the next token to the last part, or to the clause that it is in.
-/

namespace QueryGate
namespace Indexed

open Sql

/-- The tokens of a text. -/
def tokensOf (text : List Char) : Run (List Token) := ofReading (tokenize text)

/-- What becomes of a token: it is added to the last part, left out, or starts a new part in which
it does not stand. -/
inductive Move where
  | keep | skip | start
  deriving DecidableEq

section Cutting

variable {σ : Type} (step : σ → Token → Option (σ × Move))

/-- Cuts tokens into parts, the last of which is under way; `step` says what becomes of a token, or
ends the cutting with nothing. -/
def cutInto (parts : List (List Token)) (s : σ) : List Token → Run (Option (List (List Token)))
  | [] => .ok (some parts)
  | t :: r =>
    match step s t with
    | none => .ok none
    | some (next, .skip) => cutInto parts next r
    | some (next, .start) => cutInto (parts ++ [[]]) next r
    | some (next, .keep) => do
      let parts ← appendLast parts t
      cutInto parts next r

end Cutting

/-- Separators at depth zero start a new part. -/
def separatorStep (separates : Token → Bool) (depth : Int) (t : Token) : Option (Int × Move) :=
  some (depthAfter depth t, if depthAt depth t = 0 ∧ separates t then .start else .keep)

/-- The parts between the separators that no parenthesis surrounds. -/
def splitTopLevel (separates : Token → Bool) (ts : List Token) : Run (List (List Token)) := do
  let parts ← cutInto (separatorStep separates) [[]] 0 ts
  .ok (parts.getD [])

/-- A union at depth zero starts a new block; the word right behind it that says what happens to
duplicates is left out. -/
def unionStep (s : Bool × Int) (t : Token) : Option ((Bool × Int) × Move) :=
  let next := depthAfter s.2 t
  if s.1 && t.isOneOf [.all, .distinct] then some ((false, next), .skip)
  else if depthAt s.2 t = 0 ∧ t.isKeyword .union then some ((true, next), .start)
  else some ((false, next), .keep)

/-- Splits a statement into its query blocks, none of which may be empty. -/
def splitUnion (ts : List Token) : Run (List (List Token)) := do
  let blocks ← cutInto unionStep [[]] (false, 0) ts
  if (blocks.getD []).any List.isEmpty then .error (.malformed .malformedUnion)
  else .ok (blocks.getD [])

/-- The place of the parenthesis that brings the depth to zero, from a place on. -/
def closingAt (ts : List Token) (depth : Int) (place : Nat) : Run (Option Nat) :=
  if place < ts.length then do
    let t ← item ts place
    if t = .lparen then closingAt ts (depth + 1) (place + 1)
    else if t = .rparen then
      if depth - 1 = 0 then .ok (some place) else closingAt ts (depth - 1) (place + 1)
    else closingAt ts depth (place + 1)
  else .ok none
  termination_by ts.length - place

/-- The place of the parenthesis that closes the one at `start`. -/
def matchingParen (ts : List Token) (start : Nat) : Run (Option Nat) := closingAt ts 0 start

/-- The clauses of a block that have been read. -/
structure Clauses where
  /-- The clauses in the order in which they came. -/
  sections : List Section
  /-- The clause that tokens belong to, once there is one. -/
  current : Option Clause
  /-- The rank of the last clause, below zero before the first. -/
  lastRank : Int
  /-- The clause whose keyword still waits for its `BY`. -/
  waiting : Option Clause
  deriving DecidableEq

namespace Clauses

/-- No clause yet. -/
def empty : Clauses := ⟨[], none, -1, none⟩

/-- Whether a clause has been read. -/
def has (cs : Clauses) (c : Clause) : Bool := cs.sections.any fun s => s.clause == c

/-- Adds a token to the clause that is under way. -/
def add (cs : Clauses) (t : Token) : Run Clauses :=
  match cs.current with
  | none => .error .noEntry
  | some c =>
    if cs.has c then
      .ok { cs with
        sections := cs.sections.map fun s =>
          if s.clause = c then { s with body := s.body ++ [t] } else s }
    else .error .noEntry

/-- Opens a clause, which may come only once and after those of lower rank. -/
def start (cs : Clauses) (c : Clause) : Run Clauses :=
  if cs.has c ∨ (c.rank : Int) ≤ cs.lastRank then .error (.malformed (.unexpectedClause c))
  else
    .ok ⟨cs.sections ++ [⟨c, []⟩], some c, c.rank, if c.needsBy then some c else none⟩

/-- Takes the next token, which stands at the given depth. -/
def take (cs : Clauses) (depth : Int) (t : Token) : Run Clauses :=
  match cs.waiting with
  | some c =>
    if t.isKeyword .by_ then .ok { cs with waiting := none } else .error (.malformed (.missingBy c))
  | none =>
    match t.clause? with
    | some c => if depth = 0 then cs.start c else cs.add t
    | none => cs.add t

/-- Reads the tokens that are left, the first of which is read at the given depth. -/
def readFrom (cs : Clauses) (depth : Int) : List Token → Run (List Section)
  | [] =>
    match cs.waiting with
    | some c => .error (.malformed (.missingBy c))
    | none => .ok cs.sections
  | t :: r => do
    let cs ← cs.take (depthAt depth t) t
    cs.readFrom (depthAfter depth t) r

end Clauses

/-- Splits a query block into its clauses, the first of which is the select list. -/
def splitClauses (block : List Token) : Run (List Section) := do
  let selects ← itemIs block 0 (·.isKeyword .select)
  if selects then Clauses.empty.readFrom 0 block else .error (.malformed .noSelect)

end Indexed
end QueryGate
