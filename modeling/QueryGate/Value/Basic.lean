import QueryGate.Calendar.Moment
import QueryGate.Number.Decimal
import QueryGate.Number.Shortest
import QueryGate.Text.Quoted

/-!
# Values

What comes from outside has no type of its own: configuration documents, the parameters of a
request, and the cells that a database returns.  `Value` is the one type for all of it, with the
truth of a value and its two written forms: `shown`, for readers, and `quoted`, in which texts
stand between quotes.
-/

namespace QueryGate

/-- A value of a document, a request or a database cell. -/
inductive Value where
  | null
  | bool (b : Bool)
  | int (n : Int)
  | float (x : Binary64)
  | decimal (d : Decimal)
  | bytes (octets : List UInt8)
  | date (d : Date)
  | moment (m : Moment)
  | span (t : TimeSpan)
  | text (s : String)
  | list (items : List Value)
  | map (entries : List (Value × Value))
  deriving Inhabited

namespace Value

open Text

/-! ### Equality -/

-- Written out rather than derived: the derived test is no definition that a proof can unfold.
mutual

/-- Whether two values are built alike. -/
def beq : Value → Value → Bool
  | null, null => true
  | bool a, bool b => a == b
  | int m, int n => m == n
  | float x, float y => x == y
  | decimal d, decimal e => d == e
  | bytes p, bytes q => p == q
  | date d, date e => d == e
  | moment m, moment n => m == n
  | span t, span u => t == u
  | text s, text t => s == t
  | list xs, list ys => beqItems xs ys
  | map es, map fs => beqEntries es fs
  | _, _ => false

/-- Whether two lists hold values that are built alike. -/
def beqItems : List Value → List Value → Bool
  | [], [] => true
  | x :: xs, y :: ys => beq x y && beqItems xs ys
  | _, _ => false

/-- Whether two mappings hold keys and values that are built alike, in the same order. -/
def beqEntries : List (Value × Value) → List (Value × Value) → Bool
  | [], [] => true
  | (k, v) :: es, (l, w) :: fs => beq k l && beq v w && beqEntries es fs
  | _, _ => false

end

instance : BEq Value := ⟨beq⟩

/-! ### Truth and written forms -/

/-- Whether a value counts as present: everything but nothing, zero and what is empty. -/
def truthy : Value → Bool
  | null => false
  | bool b => b
  | int n => n != 0
  | float (.finite _ 0 _) => false
  | float _ => true
  | decimal (.finite _ 0 _) => false
  | decimal _ => true
  | bytes octets => !octets.isEmpty
  | date _ => true
  | moment _ => true
  | span t => t.micros != 0
  | text s => !s.isEmpty
  | list items => !items.isEmpty
  | map entries => !entries.isEmpty

/-- One octet between quotes. -/
def quotedOctet (quote : Char) (o : UInt8) : List Char :=
  let c := Char.ofNat o.toNat
  if c = quote ∨ c = '\\' then ['\\', c]
  else if c = '\n' then ['\\', 'n']
  else if c = '\t' then ['\\', 't']
  else if c = '\r' then ['\\', 'r']
  else if 32 ≤ o.toNat ∧ o.toNat < 127 then [c]
  else '\\' :: 'x' :: hexDigits 2 o.toNat

/-- Octets between quotes, after the letter that marks them. -/
def quotedOctets (octets : List UInt8) : String :=
  let quote := quoteFor (octets.map fun o => Char.ofNat o.toNat)
  String.ofList ('b' :: quote :: octets.flatMap (quotedOctet quote) ++ [quote])

mutual

/-- The written form in which texts stand between quotes. -/
def quoted : Value → String
  | null => "None"
  | bool b => if b then "True" else "False"
  | int n => toString n
  | float x => x.text
  | decimal d => "Decimal('" ++ d.text ++ "')"
  | bytes octets => quotedOctets octets
  | date d => "datetime.date(" ++ ", ".intercalate ([d.year, d.month, d.day].map toString) ++ ")"
  | moment m => m.described
  | span t => t.described
  | text s => quotedText s
  | list items => "[" ++ ", ".intercalate (quotedItems items) ++ "]"
  | map entries => "\x7b" ++ ", ".intercalate (quotedEntries entries) ++ "\x7d"

/-- The quoted forms of the items of a list. -/
def quotedItems : List Value → List String
  | [] => []
  | v :: rest => v.quoted :: quotedItems rest

/-- The quoted forms of the entries of a mapping. -/
def quotedEntries : List (Value × Value) → List String
  | [] => []
  | (k, v) :: rest => (k.quoted ++ ": " ++ v.quoted) :: quotedEntries rest

end

/-- The written form for readers: texts, days and numbers as they are. -/
def shown : Value → String
  | text s => s
  | decimal d => d.text
  | date d => d.iso
  | moment m => m.text
  | span t => t.text
  | v => v.quoted

/-- The text that a value is, if it is one. -/
def text? : Value → Option String
  | text s => some s
  | _ => none

/-- The items one meets when walking through a value: of a list its items, of a mapping its keys,
of a text its characters, of octets their numbers. -/
def items? : Value → Option (List Value)
  | list items => some items
  | map entries => some (entries.map (·.1))
  | text s => some (s.toList.map fun c => text (String.ofList [c]))
  | bytes octets => some (octets.map fun o => int o.toNat)
  | _ => none

/-- The numeric reading of a key, under which numbers of different kinds can be the same key. -/
def keyNumber? : Value → Option Int
  | bool b => some (if b then 1 else 0)
  | int n => some n
  | float x => x.toInt?
  | _ => none

/-- Whether two keys are the same. -/
def sameKey (a b : Value) : Bool :=
  match a, b with
  | moment m, moment n => m.sameInstant n
  | a, b =>
    match a.keyNumber?, b.keyNumber? with
    | some m, some n => m == n
    | _, _ => a == b

/-- Puts an entry into a mapping: a key that is there keeps its place and takes the new value. -/
def putEntry (key value : Value) : List (Value × Value) → List (Value × Value)
  | [] => [(key, value)]
  | (k, v) :: rest =>
    if k.sameKey key then (k, value) :: rest else (k, v) :: putEntry key value rest

/-- The entries of a list of entries, each key once: a later one wins in the place of the first. -/
def entriesOf (entries : List (Value × Value)) : List (Value × Value) :=
  entries.foldl (fun acc e => putEntry e.1 e.2 acc) []

/-- The mapping of a list of entries, later ones winning. -/
def mapOf (entries : List (Value × Value)) : Value := map (entriesOf entries)

/-- The value under a text key. -/
def field? (key : String) (entries : List (Value × Value)) : Option Value :=
  (entries.find? fun e => e.1 == text key).map (·.2)

/-- The value under a text key, nothing when there is none. -/
def field (key : String) (entries : List (Value × Value)) : Value :=
  (field? key entries).getD null

end Value
end QueryGate
