import QueryGate.Record
import QueryGate.Text.Digit
import QueryGate.Text.WordSearch

/-!
# The tenant of a request

A request belongs to exactly one restaurant.  An id in the question comes first, then the one that
the caller sends, then the configured fallback; a request with none of the three is refused.
-/

namespace QueryGate
namespace Question

open Text

/-- Puts the right spelling in place of a wrong one wherever a word starts with it; `before` is the
character in front. -/
def respell (wrong right : List Char) (skip : Nat) (before : Option Char) : List Char → List Char
  | [] => []
  | c :: r =>
    if 0 < skip then respell wrong right (skip - 1) (some c) r
    else if wordEdge before (some c) && wrong.isPrefixOf (c :: r) then
      right ++ respell wrong right (wrong.length - 1) (some c) r
    else c :: respell wrong right 0 (some c) r

/-- A lower-case question with the common misspellings of `restaurant` put right. -/
def spelled (q : List Char) : List Char :=
  let right := "restaurant".toList
  respell "restuarant".toList right 0 none (respell "resturant".toList right 0 none q)

/-- An id at the front of a text: one to eighteen digits that no word character follows. -/
def idHere? (cs : List Char) : Option Nat :=
  let ds := cs.takeWhile isAsciiDigit
  if ds.isEmpty || 18 < ds.length || isWordChar? (cs.dropWhile isAsciiDigit).head? then none
  else some (digitsValue ds)

/-- What follows one of the marks, if one stands at the front of a text. -/
def afterMark (marks : List Char) : List Char → List Char
  | c :: r => if marks.contains c then r else c :: r
  | [] => []

/-- An id behind an optional mark with blanks around it. -/
def markedId? (marks : List Char) (cs : List Char) : Option Nat :=
  idHere? (trimLeft (afterMark marks (trimLeft cs)))

/-- Reads `restaurant id` with an id. -/
def readRestaurantId? (cs : List Char) : Option Nat := do
  let rest ← afterChars? "restaurant".toList cs
  let rest ← afterChars? "id".toList (rest.dropWhile fun c => isBlank c || c == '_')
  markedId? [':', '='] rest

/-- Reads `restaurant` with an id. -/
def readRestaurant? (cs : List Char) : Option Nat := do
  let rest ← afterChars? "restaurant".toList cs
  markedId? [':', '=', '#'] rest

/-- The id that a question states. -/
def tenant? (question : List Char) : Option Nat :=
  let q := spelled (lower question)
  (firstMatch? readRestaurantId? q).or (firstMatch? readRestaurant? q)

/-- The id that a caller sends: a whole number that is not negative, or its digits. -/
def callerTenant? : Value → Option Nat
  | .int n => if 0 ≤ n then some n.toNat else none
  | .text s =>
    let cs := trim s.toList
    if isDigits cs && cs.length ≤ 18 then some (digitsValue cs) else none
  | _ => none

/-- Where the id of a tenant comes from. -/
inductive TenantSource where
  | question
  | caller
  | fallback
  deriving DecidableEq, Repr

/-- The name of a source. -/
def TenantSource.name : TenantSource → String
  | .question => "question"
  | .caller => "caller"
  | .fallback => "default"

/-- The tenant of a request. -/
structure Tenant where
  id : Int
  source : TenantSource
  deriving DecidableEq, Repr

/-- The message of a request that belongs to no tenant. -/
def noTenantMessage : String :=
  "Could not determine the restaurant. Mention it in the question "
    ++ "(e.g. 'for restaurant 74') or pass restaurant_id."

/-- The tenant of a request, if there is one: of the question, of the caller, or the fallback. -/
def resolveTenant? (question : List Char) (caller : Value) (fallback : Option Int) :
    Option Tenant :=
  match tenant? question with
  | some n => some ⟨n, .question⟩
  | none =>
    match callerTenant? caller with
    | some n => some ⟨n, .caller⟩
    | none => fallback.map fun n => ⟨n, .fallback⟩

/-- Whether a caller sent anything. -/
def isSent : Value → Bool
  | .null => false
  | _ => true

/-- What is written down while the tenant is looked for. -/
def tenantRecords (question : List Char) (caller : Value) (fallback : Option Int) : List Record :=
  match tenant? question with
  | some n =>
    if isSent caller && callerTenant? caller != some n then
      [.operation .info ("Question names restaurant " ++ toString n
        ++ "; overriding caller value " ++ caller.quoted)]
    else []
  | none =>
    if (callerTenant? caller).isSome then []
    else
      (if isSent caller then
        [.operation .warning ("Ignoring malformed caller restaurant id " ++ caller.quoted)] else [])
      ++ match fallback with
        | some n =>
          [.operation .warning
              ("No restaurant id in request -- falling back to DEFAULT_TENANT_ID=" ++ toString n),
            .audit "default_tenant_used" [("tenant_id", .int n)]]
        | none => []

end Question
end QueryGate
