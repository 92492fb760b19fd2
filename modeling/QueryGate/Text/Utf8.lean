import QueryGate.Text.Quoted

/-!
# Reading octets as text

Octets are read as UTF-8.  `decode` stops at the first octets that are no valid sequence and tells
which they are.  `decodeLossy` never fails: every longest valid start of a sequence (or a single
octet where nothing starts) becomes one replacement character.
-/

namespace QueryGate
namespace Text

/-- A sequence of several octets under way: how many octets it still needs, the bounds of the next
one, and the bits that the octets so far contribute. -/
structure Utf8Sequence where
  missing : Nat
  low : Nat
  high : Nat
  bits : Nat

/-- The sequence that an octet starts.  Octets that could only start an overlong or out-of-range
sequence start none. -/
def utf8Start? (b : Nat) : Option Utf8Sequence :=
  if 0xC2 ≤ b ∧ b ≤ 0xDF then some ⟨1, 0x80, 0xBF, b - 0xC0⟩
  else if b = 0xE0 then some ⟨2, 0xA0, 0xBF, 0⟩
  else if b = 0xED then some ⟨2, 0x80, 0x9F, 0xD⟩
  else if 0xE1 ≤ b ∧ b ≤ 0xEF then some ⟨2, 0x80, 0xBF, b - 0xE0⟩
  else if b = 0xF0 then some ⟨3, 0x90, 0xBF, 0⟩
  else if 0xF1 ≤ b ∧ b ≤ 0xF3 then some ⟨3, 0x80, 0xBF, b - 0xF0⟩
  else if b = 0xF4 then some ⟨3, 0x80, 0x8F, 4⟩
  else none

namespace Utf8Sequence

/-- Whether an octet goes on with a sequence. -/
def takes (p : Utf8Sequence) (b : Nat) : Bool := decide (p.low ≤ b ∧ b ≤ p.high)

/-- The bits of a sequence with one more octet. -/
def bitsWith (p : Utf8Sequence) (b : Nat) : Nat := p.bits * 64 + (b - 0x80)

/-- A sequence with one more octet, of which more are missing. -/
def after (p : Utf8Sequence) (b : Nat) : Utf8Sequence := ⟨p.missing - 1, 0x80, 0xBF, p.bitsWith b⟩

end Utf8Sequence

/-- The mark for octets that are no text. -/
def replacementChar : Char := '\ufffd'

/-- Reads octets with an optional sequence under way. -/
def decodeFrom (pending : Option Utf8Sequence) : List UInt8 → List Char
  | [] => if pending.isSome then [replacementChar] else []
  | o :: rest =>
    let b := o.toNat
    let fresh : Option Utf8Sequence × List Char :=
      if b < 0x80 then (none, [Char.ofNat b])
      else
        match utf8Start? b with
        | some started => (some started, [])
        | none => (none, [replacementChar])
    let (next, out) : Option Utf8Sequence × List Char :=
      match pending with
      | none => fresh
      | some p =>
        if p.takes b then
          if p.missing = 1 then (none, [Char.ofNat (p.bitsWith b)]) else (some (p.after b), [])
        else (fresh.1, replacementChar :: fresh.2)
    out ++ decodeFrom next rest

/-- The text that octets write, with a replacement character for every malformed part. -/
def decodeLossy (octets : List UInt8) : List Char := decodeFrom none octets

/-- What is wrong with octets that are no text. -/
inductive Utf8Defect where
  | badStart
  | badContinuation
  | endOfData
  deriving DecidableEq, Repr

/-- The words for a defect. -/
def Utf8Defect.text : Utf8Defect → String
  | .badStart => "invalid start byte"
  | .badContinuation => "invalid continuation byte"
  | .endOfData => "unexpected end of data"

/-- The octets that are no text: where they start, the first of them, and how many they are. -/
structure Utf8Fault where
  index : Nat
  octet : UInt8
  count : Nat
  defect : Utf8Defect
  deriving DecidableEq, Repr

/-- The message of a fault, which shows the octet if it is only one. -/
def Utf8Fault.message (f : Utf8Fault) : String :=
  let octets :=
    if f.count = 1 then
      "byte 0x" ++ String.ofList (hexDigits 2 f.octet.toNat) ++ " in position " ++ toString f.index
    else
      "bytes in position " ++ toString f.index ++ "-" ++ toString (f.index + f.count - 1)
  "'utf-8' codec can't decode " ++ octets ++ ": " ++ f.defect.text

/-- Reads octets from an index on, with an optional sequence under way, of which the index of its
start and its first octet are known. -/
def decodeAt (index : Nat) (pending : Option (Utf8Sequence × Nat × UInt8)) :
    List UInt8 → Except Utf8Fault (List Char)
  | [] =>
    match pending with
    | none => .ok []
    | some (_, start, first) => .error ⟨start, first, index - start, .endOfData⟩
  | o :: rest =>
    let b := o.toNat
    match pending with
    | none =>
      if b < 0x80 then (decodeAt (index + 1) none rest).map (Char.ofNat b :: ·)
      else
        match utf8Start? b with
        | some started => decodeAt (index + 1) (some (started, index, o)) rest
        | none => .error ⟨index, o, 1, .badStart⟩
    | some (p, start, first) =>
      if p.takes b then
        if p.missing = 1 then
          (decodeAt (index + 1) none rest).map (Char.ofNat (p.bitsWith b) :: ·)
        else decodeAt (index + 1) (some (p.after b, start, first)) rest
      else .error ⟨start, first, index - start, .badContinuation⟩

/-- The text that octets write. -/
def decode (octets : List UInt8) : Except Utf8Fault (List Char) := decodeAt 0 none octets

end Text
end QueryGate
