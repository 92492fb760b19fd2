import QueryGate.Number.Lenient
import QueryGate.Value.Basic

/-!
# The fields of a question request

The body of a request is an object with the question, the restaurant, the mode and whether the
statement is to be run.  Every field is read on its own, and all faults are reported in the order
of the fields.
-/

namespace QueryGate
namespace Http

/-- What is wrong with a field or a body. -/
inductive FormFault where
  | missing
  | notAnObject
  | notText
  | tooShort
  | tooLong
  | notWhole
  | wholeNumeral
  | largeNumeral
  | fractional
  | infinite
  | negative
  | notTruth
  | truthWord
  deriving DecidableEq, Repr

/-- The name of a fault in a report. -/
def FormFault.name : FormFault → String
  | .missing => "missing"
  | .notAnObject => "model_attributes_type"
  | .notText => "string_type"
  | .tooShort => "string_too_short"
  | .tooLong => "string_too_long"
  | .notWhole => "int_type"
  | .wholeNumeral => "int_parsing"
  | .largeNumeral => "int_parsing_size"
  | .fractional => "int_from_float"
  | .infinite => "finite_number"
  | .negative => "greater_than_equal"
  | .notTruth => "bool_type"
  | .truthWord => "bool_parsing"

/-- A fault and where it is. -/
structure Located where
  path : List String
  fault : FormFault
  deriving DecidableEq, Repr

/-- The fields of a request. -/
structure Form where
  question : String
  restaurant : Option Int
  mode : Option String
  execute : Bool
  deriving DecidableEq, Repr

/-- The largest number of characters of a question. -/
def maxQuestion : Nat := 1000

/-- Reads the question. -/
def question : Option Value → Except FormFault String
  | none => .error .missing
  | some (.text s) =>
    if s.isEmpty then .error .tooShort
    else if maxQuestion < s.length then .error .tooLong
    else .ok s
  | some _ => .error .notText

/-- Whether a number is one of 64 bits, the largest and the smallest ones apart. -/
def isNarrow (n : Int) : Bool := decide (-(Nat.pow 2 63) < n ∧ n < Nat.pow 2 63)

/-- Reads a whole number; texts and doubles of 64 bits that are whole count. -/
def whole : Value → Except FormFault Int
  | .int n => .ok n
  | .bool b => .ok (if b then 1 else 0)
  | .text s =>
    (Lenient.whole s).mapError fun
      | .malformed => .wholeNumeral
      | .tooLong => .largeNumeral
  | .float x =>
    match x.toInt? with
    | some n => if isNarrow n then .ok n else .error .largeNumeral
    | none => .error (if x.isFinite then .fractional else .infinite)
  | _ => .error .notWhole

/-- Reads the restaurant, which need not be given and is not negative. -/
def restaurant : Option Value → Except FormFault (Option Int)
  | none | some .null => .ok none
  | some v =>
    match whole v with
    | .error e => .error e
    | .ok n => if n < 0 then .error .negative else .ok (some n)

/-- Reads the mode, which need not be given. -/
def mode : Option Value → Except FormFault (Option String)
  | none | some .null => .ok none
  | some (.text s) => .ok (some s)
  | some _ => .error .notText

/-- The truth value that a word stands for. -/
def truthWord? (word : String) : Option Bool :=
  let w := String.ofList (word.toList.map Char.toLower)
  if ["1", "on", "t", "true", "y", "yes"].contains w then some true
  else if ["0", "off", "f", "false", "n", "no"].contains w then some false
  else none

/-- The truth value of a number; zero and one count. -/
def truthNumber (n : Int) : Except FormFault Bool :=
  if n = 0 then .ok false
  else if n = 1 then .ok true
  else .error (if isNarrow n then .truthWord else .notTruth)

/-- Reads a truth value; the numbers zero and one and some words count. -/
def truth : Value → Except FormFault Bool
  | .bool b => .ok b
  | .int n => truthNumber n
  | .float x =>
    match x.toInt? with
    | some n => truthNumber n
    | none => .error .notTruth
  | .text s =>
    match truthWord? s with
    | some b => .ok b
    | none => .error .truthWord
  | _ => .error .notTruth

/-- Reads whether the statement is to be run; it is unless the request says otherwise. -/
def execute : Option Value → Except FormFault Bool
  | none => .ok true
  | some v => truth v

/-- The fault of a field, if it has one. -/
def faultAt {α : Type} (field : String) : Except FormFault α → List Located
  | .ok _ => []
  | .error e => [⟨["body", field], e⟩]

/-- Reads a body. -/
def formOf : Option Value → Except (List Located) Form
  | none | some .null => .error [⟨["body"], .missing⟩]
  | some (.map entries) =>
    let q := question (Value.field? "question" entries)
    let r := restaurant (Value.field? "restaurant_id" entries)
    let m := mode (Value.field? "mode" entries)
    let e := execute (Value.field? "execute" entries)
    match q, r, m, e with
    | .ok q, .ok r, .ok m, .ok e => .ok ⟨q, r, m, e⟩
    | _, _, _, _ =>
      .error (faultAt "question" q ++ faultAt "restaurant_id" r ++ faultAt "mode" m
        ++ faultAt "execute" e)
  | some _ => .error [⟨["body"], .notAnObject⟩]

end Http
end QueryGate
