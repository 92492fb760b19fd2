import QueryGate.Sql.Token

/-!
# The nesting of tokens

The depth of a token counts the parentheses around it; a parenthesis itself has the depth of what
is outside it.  On the depth rest the splitting of a token list at its outermost separators and
the search for the parenthesis that closes another.
-/

namespace QueryGate
namespace Sql

/-- The depth behind a token at the given depth. -/
def depthAfter (depth : Int) (t : Token) : Int := depth + t.depthChange

/-- The depth that a token reports when the depth in front of it is given. -/
def depthAt (depth : Int) (t : Token) : Int := if t = .rparen then depth - 1 else depth

/-- The depth of every token, when the first one stands at the given depth. -/
def depthsFrom (depth : Int) : List Token → List Int
  | [] => []
  | t :: r => depthAt depth t :: depthsFrom (depthAfter depth t) r

/-- The depth of every token. -/
def depths (ts : List Token) : List Int := depthsFrom 0 ts

/-- Puts a token in front of the first of several parts. -/
def consFirst (t : Token) : List (List Token) → List (List Token)
  | [] => [[t]]
  | part :: more => (t :: part) :: more

/-- The parts between outermost separators, when the first token stands at the given depth. -/
def splitTopLevelFrom (separates : Token → Bool) (depth : Int) : List Token → List (List Token)
  | [] => [[]]
  | t :: r =>
    let more := splitTopLevelFrom separates (depthAfter depth t) r
    if depthAt depth t = 0 ∧ separates t then [] :: more else consFirst t more

/-- The parts between the separators that no parenthesis surrounds. -/
def splitTopLevel (separates : Token → Bool) (ts : List Token) : List (List Token) :=
  splitTopLevelFrom separates 0 ts

/-- The place of the first closing parenthesis that brings the depth to zero. -/
def closingFrom (depth : Int) (place : Nat) : List Token → Option Nat
  | [] => none
  | .lparen :: r => closingFrom (depth + 1) (place + 1) r
  | .rparen :: r => if depth = 1 then some place else closingFrom (depth - 1) (place + 1) r
  | _ :: r => closingFrom depth (place + 1) r

/-- The place of the parenthesis that closes the one at `start`. -/
def matchingParen (ts : List Token) (start : Nat) : Option Nat :=
  closingFrom 0 start (ts.drop start)

end Sql
end QueryGate
