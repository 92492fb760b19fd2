import QueryGate.Number.Binary64

/-!
# Shortest decimal digits of a double

The digits that are printed for a double are the fewest that still read back as it, and of these
the nearest to it.  The reals that read back form an interval around the double, whose ends
belong to it when the mantissa is even; the search tries one digit more each time and looks at
the two neighbours of the double on that decimal grid.
-/

namespace QueryGate
namespace Binary64

/-- A positive decimal number: its digits and the exponent of ten of the first one. -/
structure DecimalDigits where
  digits : List Char
  exponent : Int
  deriving DecidableEq, Repr, Inhabited

/-- The reals around a positive double that read back as it, in units of `num / den`. -/
structure ReadBack where
  low : Nat
  centre : Nat
  high : Nat
  num : Nat
  den : Nat
  closed : Bool

/-- The interval of a double with the given mantissa and exponent.  Below a power of two the next
double is only half as far away. -/
def readBack (mantissa : Nat) (exponent : Int) : ReadBack :=
  let unit := exponent - 2
  let below := if mantissa = Nat.pow 2 52 ∧ minExponent < exponent then 1 else 2
  { low := 4 * mantissa - below
    centre := 4 * mantissa
    high := 4 * mantissa + 2
    num := if 0 ≤ unit then Nat.pow 2 unit.toNat else 1
    den := if 0 ≤ unit then 1 else Nat.pow 2 (-unit).toNat
    closed := mantissa % 2 == 0 }

namespace ReadBack

/-- The exponent of ten of the first digit of the centre. -/
def firstPlace (r : ReadBack) : Int :=
  let top := r.centre * r.num
  if r.den ≤ top then ((Nat.toDigits 10 (top / r.den)).length : Int) - 1
  else -((Nat.toDigits 10 (r.den / top)).length : Int)

/-- The nearest of the two neighbours of the centre on the grid of `10 ^ place` that reads back. -/
def hit? (r : ReadBack) (place : Int) : Option Nat :=
  let up := if 0 ≤ place then Nat.pow 10 place.toNat else 1
  let down := if 0 ≤ place then 1 else Nat.pow 10 (-place).toNat
  let step := up * r.den
  let low := r.low * r.num * down
  let centre := r.centre * r.num * down
  let high := r.high * r.num * down
  let inside (k : Nat) : Bool :=
    if r.closed then decide (low ≤ k * step ∧ k * step ≤ high)
    else decide (low < k * step ∧ k * step < high)
  let k := centre / step
  let below := centre - k * step
  let above := (k + 1) * step - centre
  if inside k && k != 0 then
    let upNearer := decide (above < below) || (above == below && k % 2 == 1)
    if inside (k + 1) && upNearer then some (k + 1) else some k
  else if inside (k + 1) then some (k + 1)
  else none

end ReadBack

/-- A run of digits without the zeros at its end. -/
def dropLastZeros (ds : List Char) : List Char := (ds.reverse.dropWhile (· == '0')).reverse

/-- The fewest digits that read back as a positive double. -/
def shortest (mantissa : Nat) (exponent : Int) : DecimalDigits :=
  let r := readBack mantissa exponent
  let first := r.firstPlace
  let found := (List.range 17).findSome? fun (more : Nat) =>
    let place := first - (more : Int)
    (r.hit? place).map fun k => (k, place)
  match found with
  | some (k, place) =>
    let ds := Nat.toDigits 10 k
    ⟨dropLastZeros ds, place + (ds.length : Int) - 1⟩
  | none => ⟨['0'], 0⟩

/-- Digits written around the decimal point, with at least one digit on either side. -/
def DecimalDigits.positional (d : DecimalDigits) : List Char :=
  if d.exponent < 0 then
    '0' :: '.' :: List.replicate (-d.exponent - 1).toNat '0' ++ d.digits
  else
    let places := d.exponent.toNat + 1
    let whole := d.digits.take places
    let rest := d.digits.drop places
    whole ++ List.replicate (places - whole.length) '0'
      ++ '.' :: (if rest.isEmpty then ['0'] else rest)

/-- An exponent of ten with its sign and at least two digits. -/
def exponentText (e : Int) : List Char :=
  let ds := Nat.toDigits 10 e.natAbs
  'e' :: (if e < 0 then '-' else '+') :: List.replicate (2 - ds.length) '0' ++ ds

/-- Digits written with one digit before the point and an exponent. -/
def DecimalDigits.scientific (d : DecimalDigits) : List Char :=
  match d.digits with
  | [] => []
  | [c] => c :: exponentText d.exponent
  | c :: rest => c :: '.' :: rest ++ exponentText d.exponent

/-- The text of a double: positional from `10 ^ -4` up to `10 ^ 16`, with an exponent elsewhere. -/
def text : Binary64 → String
  | .nan => "nan"
  | .infinite negative => if negative then "-inf" else "inf"
  | .finite negative mantissa exponent =>
    let unsigned : List Char :=
      if mantissa = 0 then ['0', '.', '0']
      else
        let d := shortest mantissa exponent
        if -4 ≤ d.exponent ∧ d.exponent < 16 then d.positional else d.scientific
    String.ofList (if negative then '-' :: unsigned else unsigned)

end Binary64
end QueryGate
