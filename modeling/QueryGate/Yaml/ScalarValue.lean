import QueryGate.Number.Decimal
import QueryGate.Number.Whole
import QueryGate.Value.Basic
import QueryGate.Yaml.Tag

/-!
# Values of scalars

What the text of a scalar stands for under its tag.  Underscores in numbers do not count, and the
parts of a number between colons are in base sixty.
-/

namespace QueryGate
namespace Yaml
namespace ScalarValue

open Text

/-- The digit of a base that a character is. -/
def digit? (base : Nat) (c : Char) : Option Nat :=
  let n := c.toLower.toNat
  let d := if 48 ≤ n ∧ n < 58 then n - 48 else if 97 ≤ n ∧ n < 123 then n - 87 else base
  if d < base then some d else none

/-- The letter that marks the numerals of a base, behind a zero. -/
def baseLetter (base : Nat) : Char := if base = 2 then 'b' else if base = 8 then 'o' else 'x'

/-- A numeral without the mark of its base. -/
def withoutBaseMark (base : Nat) : List Char → List Char
  | '0' :: c :: r => if c.toLower = baseLetter base then r else '0' :: c :: r
  | r => r

/-- The number that a numeral of base two, eight or sixteen writes: blanks around it, a sign, the
mark of the base, and digits. -/
def inBase (base : Nat) (cs : List Char) : Except ScalarFault Int :=
  let (negative, r) := Decimal.splitSign (asciiDigits (Whole.trimNumeral cs))
  let digits := withoutBaseMark base r
  let step (n : Nat) (c : Char) : Option Nat := (digit? base c).map fun d => base * n + d
  match (if digits.isEmpty then none else digits.foldlM step 0) with
  | some n => .ok (if negative then -n else n)
  | none => .error (.notWhole base (quotedText (String.ofList cs)))

/-- The number that a decimal numeral writes. -/
def inTen (cs : List Char) : Except ScalarFault Int :=
  match Whole.ofText (quotedText (String.ofList cs)) cs with
  | .ok n => .ok n
  | .error (.malformed shown) => .error (.notWhole 10 shown)
  | .error (.tooLong digits) => .error (.longNumeral digits)

/-- A text without underscores, split into its sign and the rest. -/
def signed (cs : List Char) : Except ScalarFault (Bool × List Char) :=
  match cs.filter (· != '_') with
  | [] => .error .emptyNumeral
  | '-' :: r => .ok (true, r)
  | '+' :: r => .ok (false, r)
  | r => .ok (false, r)

/-- A whole number without its sign. -/
def magnitude (body : List Char) : Except ScalarFault Int :=
  match body with
  | ['0'] => .ok 0
  | '0' :: 'b' :: ds => inBase 2 ds
  | '0' :: 'x' :: ds => inBase 16 ds
  | '0' :: _ => inBase 8 body
  | [] => .error .emptyNumeral
  | _ =>
    match Tag.colonParts body with
    | [_] => inTen body
    | parts => do
      let digits ← parts.mapM inTen
      return digits.foldl (fun n d => 60 * n + d) 0

/-- The value of a whole number. -/
def whole (cs : List Char) : Except ScalarFault Int := do
  let (negative, body) ← signed cs
  let n ← magnitude body
  return if negative then -n else n

/-- The number that a decimal numeral with a point writes. -/
def pointed (cs : List Char) : Except ScalarFault Binary64 :=
  let plain := asciiDigits (Whole.trimNumeral cs)
  let (negative, r) := Decimal.splitSign plain
  match Decimal.numeral? negative r with
  | some d => .ok d.toBinary64
  | none =>
    if r = "inf".toList ∨ r = "infinity".toList then .ok (.infinite negative)
    else if r = "nan".toList then .ok .nan
    else .error (.notNumber (quotedText (String.ofList cs)))

/-- Adds parts of a number in base sixty, the last one first; `scale` is what the next one
counts. -/
def addSixtieths (scale : Nat) (sum : Binary64) : List Binary64 → Except ScalarFault Binary64
  | [] => .ok sum
  | part :: more =>
    let factor := Binary64.ofInt scale
    if factor.isFinite then addSixtieths (60 * scale) (sum.add (part.mul factor)) more
    else .error .largeScale

/-- The value of a number with a point. -/
def real (cs : List Char) : Except ScalarFault Binary64 := do
  let (negative, body) ← signed (lower cs)
  let x ←
    if body = ".inf".toList then pure (.infinite false)
    else if body = ".nan".toList then pure .nan
    else
      match Tag.colonParts body with
      | [_] => pointed body
      | parts => do
        let values ← parts.mapM pointed
        addSixtieths 1 .zero values.reverse
  return if negative then x.neg else x

/-- The value of a truth word in any case. -/
def truth (cs : List Char) : Except ScalarFault Bool :=
  let word := lowerText (String.ofList cs)
  if ["yes", "true", "on"].contains word then .ok true
  else if ["no", "false", "off"].contains word then .ok false
  else .error .otherKind

/-- The value of a day or a point in time, which a line break may follow. -/
def time (cs : List Char) : Except ScalarFault Value :=
  match Timestamp.ofText? (withoutLineBreak cs) with
  | none => .error .otherKind
  | some t =>
    t.value.map fun
      | .inl d => .date d
      | .inr m => .moment m

/-- The value of a text under a tag of scalars. -/
def ofTag (tag : String) (cs : List Char) : Except ScalarFault Value :=
  if tag = Tag.null then .ok .null
  else if tag = Tag.bool then (truth cs).map .bool
  else if tag = Tag.int then (whole cs).map .int
  else if tag = Tag.float then (real cs).map .float
  else if tag = Tag.timestamp then time cs
  else .ok (.text (String.ofList cs))

end ScalarValue
end Yaml
end QueryGate
