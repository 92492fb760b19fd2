/-!
# Double-precision numbers

A finite double is a sign, a mantissa and a power of two, so every operation here is exact integer
arithmetic followed by one rounding.  `ofRatio` is that rounding: the nearest double to a quotient,
a tie going to the even mantissa, and infinity beyond the largest finite double.  Powers are written
with `Nat.pow`, so that they are the built-in ones of natural numbers wherever a term is read.
-/

namespace QueryGate

/-- A double: not a number, an infinity, or `± mantissa * 2 ^ exponent`. -/
inductive Binary64 where
  | nan
  | infinite (negative : Bool)
  | finite (negative : Bool) (mantissa : Nat) (exponent : Int)
  deriving DecidableEq, Repr, Inhabited

namespace Binary64

/-- The power of two of the smallest positive double. -/
def minExponent : Int := -1074

/-- The power of two of the largest finite doubles. -/
def maxExponent : Int := 971

/-- The whole number nearest to a quotient; a tie goes to the even one. -/
def nearest (num den : Nat) : Nat :=
  let q := num / den
  let r := num % den
  if 2 * r < den then q
  else if 2 * r = den then (if q % 2 = 0 then q else q + 1)
  else q + 1

/-- The whole number nearest to `num / den / 2 ^ exponent`. -/
def nearestScaled (num den : Nat) (exponent : Int) : Nat :=
  if 0 ≤ exponent then nearest num (den * Nat.pow 2 exponent.toNat)
  else nearest (num * Nat.pow 2 (-exponent).toNat) den

/-- A double of the given parts, infinite when the exponent is too large. -/
def pack (negative : Bool) (mantissa : Nat) (exponent : Int) : Binary64 :=
  if maxExponent < exponent then .infinite negative else .finite negative mantissa exponent

/-- The exponent at which `num / den` has a mantissa of 53 bits. -/
def ratioExponent (num den : Nat) : Int :=
  let guess : Int := (Nat.log2 num : Int) - (Nat.log2 den : Int) - 52
  let large :=
    if 0 ≤ guess then decide (Nat.pow 2 52 * den * Nat.pow 2 guess.toNat ≤ num)
    else decide (Nat.pow 2 52 * den ≤ num * Nat.pow 2 (-guess).toNat)
  if large then guess else guess - 1

/-- The double nearest to `num / den`. -/
def ofRatio (negative : Bool) (num den : Nat) : Binary64 :=
  if num = 0 then .finite negative 0 minExponent
  else
    let exponent := max (ratioExponent num den) minExponent
    let mantissa := nearestScaled num den exponent
    if mantissa = Nat.pow 2 53 then pack negative (Nat.pow 2 52) (exponent + 1)
    else pack negative mantissa exponent

/-- The double nearest to a whole number. -/
def ofInt (n : Int) : Binary64 := ofRatio (decide (n < 0)) n.natAbs 1

/-- Zero. -/
def zero : Binary64 := .finite false 0 minExponent

/-- Whether a double is a number at all and not infinite. -/
def isFinite : Binary64 → Bool
  | .finite _ _ _ => true
  | _ => false

/-- The signed mantissa of a finite double. -/
def signed (negative : Bool) (mantissa : Nat) : Int :=
  if negative then -(mantissa : Int) else mantissa

/-- Whether a double is exactly a whole number. -/
def equalsInt : Binary64 → Int → Bool
  | .finite negative mantissa exponent, n =>
    if 0 ≤ exponent then signed negative mantissa * Nat.pow 2 exponent.toNat == n
    else signed negative mantissa == n * Nat.pow 2 (-exponent).toNat
  | _, _ => false

/-- The whole number left when a finite double loses its fraction. -/
def truncate? : Binary64 → Option Int
  | .finite negative mantissa exponent =>
    if 0 ≤ exponent then some (signed negative mantissa * Nat.pow 2 exponent.toNat)
    else some (signed negative (mantissa / Nat.pow 2 (-exponent).toNat))
  | _ => none

/-- The whole number nearest to a multiple of a finite double; a half goes to the even one. -/
def timesInt? (x : Binary64) (factor : Nat) : Option Int :=
  match x with
  | .finite negative mantissa exponent =>
    if 0 ≤ exponent then some (signed negative (mantissa * factor * Nat.pow 2 exponent.toNat))
    else some (signed negative (nearest (mantissa * factor) (Nat.pow 2 (-exponent).toNat)))
  | _ => none

/-- The whole number that a double is, if it is one. -/
def toInt? (x : Binary64) : Option Int :=
  match x.truncate? with
  | some n => if x.equalsInt n then some n else none
  | none => none

/-- The exact order of doubles; it holds of nothing that is not a number. -/
def lt : Binary64 → Binary64 → Bool
  | .nan, _ => false
  | _, .nan => false
  | .infinite a, .infinite b => a && !b
  | .infinite a, .finite _ _ _ => a
  | .finite _ _ _, .infinite b => !b
  | .finite na ma ea, .finite nb mb eb =>
    let e := min ea eb
    decide (signed na ma * Nat.pow 2 (ea - e).toNat < signed nb mb * Nat.pow 2 (eb - e).toNat)

/-- The double of the opposite sign. -/
def neg : Binary64 → Binary64
  | .nan => .nan
  | .infinite a => .infinite !a
  | .finite a m e => .finite (!a) m e

/-- The double nearest to the sum. -/
def add : Binary64 → Binary64 → Binary64
  | .nan, _ => .nan
  | _, .nan => .nan
  | .infinite a, .infinite b => if a = b then .infinite a else .nan
  | .infinite a, .finite _ _ _ => .infinite a
  | .finite _ _ _, .infinite b => .infinite b
  | .finite na ma ea, .finite nb mb eb =>
    let e := min ea eb
    let sum := signed na ma * Nat.pow 2 (ea - e).toNat + signed nb mb * Nat.pow 2 (eb - e).toNat
    if sum = 0 then .finite (na && nb) 0 minExponent
    else if 0 ≤ e then ofRatio (decide (sum < 0)) (sum.natAbs * Nat.pow 2 e.toNat) 1
    else ofRatio (decide (sum < 0)) sum.natAbs (Nat.pow 2 (-e).toNat)

/-- The double nearest to the product. -/
def mul : Binary64 → Binary64 → Binary64
  | .nan, _ => .nan
  | _, .nan => .nan
  | .infinite a, .infinite b => .infinite (a != b)
  | .infinite a, .finite b m _ => if m = 0 then .nan else .infinite (a != b)
  | .finite a m _, .infinite b => if m = 0 then .nan else .infinite (a != b)
  | .finite na ma ea, .finite nb mb eb =>
    let e := ea + eb
    if 0 ≤ e then ofRatio (na != nb) (ma * mb * Nat.pow 2 e.toNat) 1
    else ofRatio (na != nb) (ma * mb) (Nat.pow 2 (-e).toNat)

/-- The double nearest to the difference. -/
def sub (x y : Binary64) : Binary64 := x.add y.neg

/-- The double nearest to the value rounded to `places` decimal places, a tie of the exact value
going to the even digit. -/
def roundTo (places : Nat) : Binary64 → Binary64
  | .finite negative mantissa exponent =>
    let scale := Nat.pow 10 places
    let units :=
      if 0 ≤ exponent then nearest (mantissa * Nat.pow 2 exponent.toNat * scale) 1
      else nearest (mantissa * scale) (Nat.pow 2 (-exponent).toNat)
    ofRatio negative units scale
  | x => x

end Binary64
end QueryGate
