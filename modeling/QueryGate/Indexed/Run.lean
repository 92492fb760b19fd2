import QueryGate.Guard.Rejection
import QueryGate.Number.Whole
import QueryGate.Run

/-!
# Runs that read lists by place

The checks of a statement walk over lists of tokens by place, look clauses up by name, read counts
of rows and write numbers into messages.  Each of these can go wrong, and then the run ends with
nothing but the reason.  The two reasons that the checks mean to give, a rejection and a malformed
statement, are ends of a run like any other until somebody turns them into an answer.
-/

namespace QueryGate
namespace Indexed

/-- What ends a run without a result. -/
inductive Raised where
  | rejected (why : Guard.Rejection)
  | malformed (fault : Sql.SyntaxFault)
  /-- There is no item at a place. -/
  | noItem
  /-- There is nothing under a key. -/
  | noEntry
  /-- A text is no whole number. -/
  | noNumeral
  /-- A whole number has too many digits to be read or written. -/
  | longNumber
  deriving DecidableEq

/-- A run: a result, or what ended it. -/
abbrev Run := Except Raised

variable {α : Type}

/-- A run that ends in a rejection. -/
def reject (why : Guard.Rejection) : Run α := .error (.rejected why)

/-- The run of a check that reads nothing by place. -/
def ofCheck (checked : Except Guard.Rejection α) : Run α :=
  match checked with
  | .ok x => .ok x
  | .error why => reject why

/-- The run of a reading that reads nothing by place. -/
def ofReading (read : Except Sql.SyntaxFault α) : Run α :=
  match read with
  | .ok x => .ok x
  | .error fault => .error (.malformed fault)

/-- A run whose malformed statements are rejected. -/
def rejecting (run : Run α) : Run α :=
  match run with
  | .error (.malformed fault) => reject (.malformed fault)
  | run => run

/-- The item at a place; a place below zero counts from the end. -/
def item (xs : List α) (place : Int) : Run α :=
  let start := if place < 0 then place + xs.length else place
  if start < 0 then .error .noItem
  else
    match xs[start.toNat]? with
    | some x => .ok x
    | none => .error .noItem

/-- The item at a place, and behind the end of the list the given one. -/
def itemOr (xs : List α) (place : Nat) (other : α) : Run α :=
  if place < xs.length then item xs place else .ok other

/-- The answer of a test that is made only on a condition; otherwise the answer is no. -/
def guarded (condition : Bool) (test : Run Bool) : Run Bool :=
  if condition then test else .ok false

/-- Whether the item at a place is as asked. -/
def itemHas (xs : List α) (place : Int) (p : α → Bool) : Run Bool := do
  let x ← item xs place
  .ok (p x)

/-- Whether there is an item at a place, and it is as asked. -/
def itemIs (xs : List α) (place : Nat) (p : α → Bool) : Run Bool :=
  guarded (place < xs.length) (itemHas xs place p)

/-- Whether the items from a place on meet the tests one after another; the first that fails ends
the reading. -/
def itemsMeet (xs : List α) (place : Nat) : List (α → Bool) → Run Bool
  | [] => .ok true
  | p :: ps => do
    let ok ← itemHas xs place p
    if ok then itemsMeet xs (place + 1) ps else .ok false

/-- The items from a place up to another one. -/
def slice (xs : List α) (start stop : Nat) : List α := (xs.drop start).take (stop - start)

/-- Adds an item to the last of several lists. -/
def appendLast (parts : List (List α)) (x : α) : Run (List (List α)) := do
  let last ← item parts (-1)
  .ok (parts.dropLast ++ [last ++ [x]])

/-- Whether a whole number has few enough digits to be written. -/
def HasText (n : Int) : Prop := n.natAbs < Nat.pow 10 Whole.maxDigits

instance (n : Int) : Decidable (HasText n) := inferInstanceAs (Decidable (_ < _))

/-- The decimal text of a whole number. -/
def decimalText (n : Int) : Run String :=
  if HasText n then .ok (toString n) else .error .longNumber

/-- The whole number that a text writes. -/
def wholeNumber (cs : List Char) : Run Int :=
  match Whole.ofText (quotedText (String.ofList cs)) cs with
  | .ok n => .ok n
  | .error (.malformed _) => .error .noNumeral
  | .error (.tooLong _) => .error .longNumber

end Indexed
end QueryGate
