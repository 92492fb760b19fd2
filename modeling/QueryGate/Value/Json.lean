import QueryGate.Value.Basic

/-!
# Values as JSON text

The compact JSON form in which rows are shown to a language model: ASCII only, a space after
commas and colons, and the reader's form of every value that JSON does not know.
-/

namespace QueryGate
namespace Value

open Text

/-- The escape of a sixteen-bit unit. -/
def unitEscape (n : Nat) : List Char := '\\' :: 'u' :: hexDigits 4 n

/-- The form of a character inside a JSON string. -/
def jsonChar (c : Char) : List Char :=
  let n := c.toNat
  if c = '"' ∨ c = '\\' then ['\\', c]
  else if c = '\n' then ['\\', 'n']
  else if c = '\r' then ['\\', 'r']
  else if c = '\t' then ['\\', 't']
  else if n = 8 then ['\\', 'b']
  else if n = 12 then ['\\', 'f']
  else if 32 ≤ n ∧ n < 127 then [c]
  else if n < 0x10000 then unitEscape n
  else unitEscape (0xD800 + (n - 0x10000) / 0x400) ++ unitEscape (0xDC00 + (n - 0x10000) % 0x400)

/-- A JSON string. -/
def jsonString (s : String) : String := String.ofList ('"' :: s.toList.flatMap jsonChar ++ ['"'])

/-- A double in JSON text. -/
def jsonFloat : Binary64 → String
  | .nan => "NaN"
  | .infinite negative => if negative then "-Infinity" else "Infinity"
  | x => x.text

/-- The name under which an entry is written, if its key can be one. -/
def jsonKey? : Value → Option String
  | text s => some s
  | null => some "null"
  | bool b => some (if b then "true" else "false")
  | int n => some (toString n)
  | float x => some (jsonFloat x)
  | _ => none

mutual

/-- The JSON text of a value, unless a mapping in it has a key that cannot be a name. -/
def json? : Value → Option String
  | null => some "null"
  | bool b => some (if b then "true" else "false")
  | int n => some (toString n)
  | float x => some (jsonFloat x)
  | text s => some (jsonString s)
  | list items => do
    let parts ← jsonItems? items
    some ("[" ++ ", ".intercalate parts ++ "]")
  | map entries => do
    let parts ← jsonEntries? entries
    some ("\x7b" ++ ", ".intercalate parts ++ "\x7d")
  | decimal d => some (jsonString (decimal d).shown)
  | bytes octets => some (jsonString (bytes octets).shown)
  | date d => some (jsonString (date d).shown)
  | moment m => some (jsonString (moment m).shown)
  | span t => some (jsonString (span t).shown)

/-- The JSON texts of the items of a list. -/
def jsonItems? : List Value → Option (List String)
  | [] => some []
  | v :: rest => do
    let first ← v.json?
    let more ← jsonItems? rest
    some (first :: more)

/-- The JSON texts of the entries of a mapping. -/
def jsonEntries? : List (Value × Value) → Option (List String)
  | [] => some []
  | (k, v) :: rest => do
    let name ← jsonKey? k
    let value ← v.json?
    let more ← jsonEntries? rest
    some ((jsonString name ++ ": " ++ value) :: more)

end

end Value
end QueryGate
