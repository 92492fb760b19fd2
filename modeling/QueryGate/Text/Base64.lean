import QueryGate.Text.Quoted

/-!
# Octets written in base sixty-four

Four characters write three octets.  Characters outside of the alphabet do not count, and the
padding ends the text once it fills a group of four.
-/

namespace QueryGate
namespace Text

/-- Why a text writes no octets. -/
inductive Base64Fault where
  /-- Characters beyond ASCII, from one place to another; the first one is given. -/
  | beyondAscii (found : Char) (first last : Nat)
  /-- A group with a single character. -/
  | loneChar (count : Nat)
  /-- A group without its padding. -/
  | padding
  deriving DecidableEq, Repr

/-- The message of a fault. -/
def Base64Fault.message : Base64Fault → String
  | .beyondAscii found first last =>
    "failed to convert base64 data into ascii: 'ascii' codec can't encode character"
      ++ (if first = last then
        " '" ++ String.ofList (codeEscape found) ++ "' in position " ++ toString first
      else "s in position " ++ toString first ++ "-" ++ toString last)
      ++ ": ordinal not in range(128)"
  | .loneChar count =>
    "failed to decode base64 data: Invalid base64-encoded string: number of data characters ("
      ++ toString count ++ ") cannot be 1 more than a multiple of 4"
  | .padding => "failed to decode base64 data: Incorrect padding"

/-- The value of a character of the alphabet. -/
def base64Value? (c : Char) : Option Nat :=
  let n := c.toNat
  if 'A' ≤ c ∧ c ≤ 'Z' then some (n - 65)
  else if 'a' ≤ c ∧ c ≤ 'z' then some (n - 71)
  else if '0' ≤ c ∧ c ≤ '9' then some (n + 4)
  else if c = '+' then some 62
  else if c = '/' then some 63
  else none

/-- Reads characters behind a group under way: the values that it holds, the latest first, and the
paddings that have come. -/
def base64Groups (octets : List UInt8) (group : List Nat) (pads : Nat) :
    List Char → Except Base64Fault (List UInt8)
  | [] =>
    if group.isEmpty then .ok octets.reverse
    else if group.length = 1 then .error (.loneChar (octets.length / 3 * 4 + 1))
    else .error .padding
  | c :: r =>
    if c = '=' then
      if 2 ≤ group.length ∧ 4 ≤ group.length + (pads + 1) then .ok octets.reverse
      else base64Groups octets group (if 2 ≤ group.length then pads + 1 else pads) r
    else
      match base64Value? c, group with
      | none, _ => base64Groups octets group pads r
      | some v, [] => base64Groups octets [v] 0 r
      | some v, last :: before =>
        let octet := UInt8.ofNat (match before.length with
          | 0 => last * 4 + v / 16
          | 1 => last % 16 * 16 + v / 4
          | _ => last % 4 * 64 + v)
        let group := if before.length = 2 then [] else v :: last :: before
        base64Groups (octet :: octets) group 0 r

/-- The octets that a text writes. -/
def base64Octets (cs : List Char) : Except Base64Fault (List UInt8) :=
  let ascii := cs.takeWhile fun c => c.toNat < 128
  match cs.drop ascii.length with
  | [] => base64Groups [] [] 0 cs
  | c :: r =>
    let run := (c :: r).takeWhile fun c => !decide (c.toNat < 128)
    .error (.beyondAscii c ascii.length (ascii.length + run.length - 1))

end Text
end QueryGate
