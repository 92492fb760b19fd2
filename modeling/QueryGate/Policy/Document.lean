import QueryGate.Number.Whole
import QueryGate.Policy.AllowList

/-!
# Allow-lists from documents

Reads an allow-list out of a configuration document.  Names are lowered and words are put into upper
case on the way in; where two names become one, the first place and the last value count.
-/

namespace QueryGate
namespace Policy

/-- Why a document is no allow-list. -/
inductive DocumentFault where
  /-- A part of the document has a kind that it cannot have there, or is missing. -/
  | illTyped
  | noTables
  | noTenantColumn
  /-- A text that is no whole number. -/
  | notWhole (fault : Whole.Fault)
  /-- A number without end, shown as given, where a whole number belongs. -/
  | infiniteNumber (shown : String)
  /-- What is not a number, shown as given, where a whole number belongs. -/
  | notANumber (shown : String)
  /-- A side of a join that is not a table and a column, shown as given. -/
  | joinSide (shown : String)
  deriving DecidableEq

/-- The message of a fault; the faults of kind have none. -/
def DocumentFault.message : DocumentFault → String
  | .illTyped => ""
  | .noTables => "Allow-list defines no tables"
  | .noTenantColumn => "Allow-list must name a tenant_column"
  | .notWhole fault => fault.message
  | .infiniteNumber shown => "cannot convert " ++ shown ++ " to integer"
  | .notANumber shown => "cannot convert " ++ shown ++ " to integer"
  | .joinSide shown => "Join side must be 'table.column', got " ++ shown

/-- The character of an octet; what is not ASCII is no character of a numeral. -/
def asciiChar (o : UInt8) : Char := if o.toNat < 128 then Char.ofNat o.toNat else '\ufffd'

/-- The whole number that a value stands for; fractions are cut off. -/
def wholeNumber : Value → Except DocumentFault Int
  | .bool b => .ok (if b then 1 else 0)
  | .int n => .ok n
  | .float .nan => .error (.notANumber "float NaN")
  | .float (.infinite _) => .error (.infiniteNumber "float infinity")
  | .float x => .ok (x.truncate?.getD 0)
  | .decimal (.nan _ _ _) => .error (.notANumber "NaN")
  | .decimal (.infinite _) => .error (.infiniteNumber "Infinity")
  | .decimal d => .ok (d.truncate?.getD 0)
  | .text s => (Whole.ofText (quotedText s) s.toList).mapError .notWhole
  | .bytes octets =>
    (Whole.ofText (Value.quotedOctets octets) (octets.map asciiChar)).mapError .notWhole
  | _ => .error .illTyped

/-- The text that a value has to be. -/
def textOf (v : Value) : Except DocumentFault String :=
  match v with
  | .text s => .ok s
  | _ => .error .illTyped

/-- The items of a value that has to have some. -/
def itemsOf (v : Value) : Except DocumentFault (List Value) :=
  match v.items? with
  | some items => .ok items
  | none => .error .illTyped

/-- The entries of a value that has to be a mapping. -/
def entriesOf (v : Value) : Except DocumentFault (List (Value × Value)) :=
  match v with
  | .map entries => .ok entries
  | _ => .error .illTyped

/-- The items of an optional list. -/
def optionalItems (v : Value) : Except DocumentFault (List Value) :=
  if v.truthy then itemsOf v else .ok []

/-- The entries of an optional mapping. -/
def optionalEntries (v : Value) : Except DocumentFault (List (Value × Value)) :=
  if v.truthy then entriesOf v else .ok []

/-- Puts a named item into a list: a name that is there keeps its place and takes the new item. -/
def putNamed {α : Type} (name : String) (item : α) : List (String × α) → List (String × α)
  | [] => [(name, item)]
  | (n, x) :: rest => if n = name then (n, item) :: rest else (n, x) :: putNamed name item rest

/-- Named items, later ones winning. -/
def namedOf {α : Type} (items : List (String × α)) : List (String × α) :=
  items.foldl (fun acc e => putNamed e.1 e.2 acc) []

/-- Texts in lower case, each once. -/
def lowerNames (v : Value) : Except DocumentFault (List String) := do
  let items ← itemsOf v
  let names ← items.mapM fun item => (textOf item).map lowerText
  pure names.eraseDups

/-- Words in upper case. -/
def upperWords (v : Value) : Except DocumentFault (List String) := do
  let items ← optionalItems v
  items.mapM fun item => (textOf item).map upperText

/-- A table and a column with a point between, as one side of a join. -/
def joinSide (v : Value) : Except DocumentFault (String × String) := do
  let given ← textOf v
  let ref := Text.lower (Text.trim given.toList)
  let table := ref.takeWhile (· != '.')
  let column := (ref.dropWhile (· != '.')).drop 1
  if table.isEmpty || column.isEmpty then .error (.joinSide (quotedText given))
  else pure (String.ofList table, String.ofList column)

/-- A field that a mapping has to have. -/
def required (key : String) (entries : List (Value × Value)) : Except DocumentFault Value :=
  match Value.field? key entries with
  | some v => .ok v
  | none => .error .illTyped

/-- A join with its two sides. -/
def joinShape (v : Value) : Except DocumentFault JoinShape := do
  let entries ← entriesOf v
  let (leftTable, leftColumn) ← joinSide (← required "left" entries)
  let (rightTable, rightColumn) ← joinSide (← required "right" entries)
  pure ⟨leftTable, leftColumn, rightTable, rightColumn⟩

/-- For each column the values that count, each once. -/
def acceptedValues (v : Value) : Except DocumentFault AcceptedValues := do
  let entries ← optionalEntries v
  let named ← entries.mapM fun (column, values) => do
    let column ← textOf column
    let numbers ← (← itemsOf values).mapM wholeNumber
    pure (lowerText column, numbers.eraseDups)
  pure (namedOf named)

/-- The completion rule of a table. -/
def completionRule (table : String) (v : Value) : Except DocumentFault CompletionRule := do
  let entries ← optionalEntries v
  let completedWhen ← acceptedValues (Value.field "completed_when" entries)
  let failedWhen ← acceptedValues (Value.field "failed_when" entries)
  pure
    { table, completedWhen, failedWhen
      description := (Value.field? "description" entries).getD (.text "") }

/-- The largest number of rows when a document does not say. -/
def defaultMaxLimit : Int := 1000

/-- Reads a document.  The tables and the tenant column are looked at first, then the completion
rules, then everything else. -/
def ofDocument (document : Value) : Except DocumentFault AllowList := do
  let entries ← entriesOf document
  let tables ← (← optionalEntries (Value.field "tables" entries)).mapM fun (name, columns) => do
    let name ← textOf name
    pure (lowerText name, ← lowerNames columns)
  if tables.isEmpty then throw .noTables
  let tenantColumn := Value.field "tenant_column" entries
  if !tenantColumn.truthy then throw .noTenantColumn
  let ruleEntries ← optionalEntries (Value.field "completion_rules" entries)
  let rules ← ruleEntries.mapM fun (name, rule) => do
    let name ← textOf name
    pure (lowerText name, ← completionRule (lowerText name) rule)
  let tenantColumn ← textOf tenantColumn
  let maxLimit ← match Value.field? "max_limit" entries with
    | some v => wholeNumber v
    | none => pure defaultMaxLimit
  let joins ← (← optionalItems (Value.field "joins" entries)).mapM joinShape
  let forbiddenKeywords ← upperWords (Value.field "forbidden_keywords" entries)
  let timeFunctions ← upperWords (Value.field "time_functions" entries)
  pure
    { version := (Value.field? "version" entries).getD (.int 1)
      tenantColumn := lowerText tenantColumn
      maxLimit, joins, forbiddenKeywords
      tables := namedOf tables
      timeFunctions := timeFunctions.eraseDups
      completionRules := namedOf rules }

end Policy
end QueryGate
