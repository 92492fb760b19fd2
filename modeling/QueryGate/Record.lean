import QueryGate.Text.Blank
import QueryGate.Value.Basic

/-!
# Records

Lines that are written down while a request is worked on.  Events that concern security are written
as the name of the event with `key=value` fields; a value that is empty, holds blanks or an equals
sign is put between quotes with single spaces between its words, so no field passes for a second
line.
-/

namespace QueryGate

/-- How serious a record is. -/
inductive Level where
  | info
  | warning
  | error
  | critical
  /-- A level without a name of its own. -/
  | numbered (number : Int)
  deriving DecidableEq, Repr

/-- The name of a level. -/
def Level.name : Level → String
  | .info => "INFO"
  | .warning => "WARNING"
  | .error => "ERROR"
  | .critical => "CRITICAL"
  | .numbered number => "Level " ++ toString number

/-- The level of a number; what is less serious than `info` is not written down. -/
def Level.ofNumber? (number : Int) : Option Level :=
  if number < 20 then none
  else if number = 20 then some .info
  else if number = 30 then some .warning
  else if number = 40 then some .error
  else if number = 50 then some .critical
  else some (.numbered number)

/-- What a record is about: the running of the service, or its security. -/
inductive Concern where
  | operation
  | security
  deriving DecidableEq, Repr

/-- A line that is written down. -/
structure Record where
  concern : Concern
  level : Level
  message : String
  deriving DecidableEq, Repr

namespace Record

/-- The line with the name of its level in front. -/
def line (r : Record) : String := r.level.name ++ " " ++ r.message

/-- Whether a field value needs quotes. -/
def needsQuotes (cs : List Char) : Bool := cs.isEmpty || cs.any fun c => Text.isBlank c || c == '='

/-- The form of a field value in a line. -/
def fieldChars (cs : List Char) : List Char :=
  if needsQuotes cs then Text.quoted (Text.squeeze cs) else cs

/-- The text of an event with its fields. -/
def eventText (event : String) (fields : List (String × Value)) : String :=
  " ".intercalate (event :: fields.map fun (name, value) =>
    name ++ "=" ++ String.ofList (fieldChars value.shown.toList))

/-- A record about the running of the service. -/
def operation (level : Level) (message : String) : Record := ⟨.operation, level, message⟩

/-- The record of an event that concerns security. -/
def audit (event : String) (fields : List (String × Value)) : Record :=
  ⟨.security, .warning, eventText event fields⟩

/-- Why what is given as fields is none. -/
inductive FieldFault where
  /-- A field named `event`, which is the event itself. -/
  | secondEvent
  /-- A field named `level` that is no number. -/
  | levelKind
  deriving DecidableEq, Repr

/-- The number of the level that a value gives. -/
def levelNumber : Value → Except FieldFault Int
  | .int n => .ok n
  | .bool b => .ok (if b then 1 else 0)
  | _ => .error .levelKind

/-- The record of an event whose field `level`, if there is one, says how serious it is; none if
that is not serious enough. -/
def auditOf (event : String) (fields : List (String × Value)) :
    Except FieldFault (Option Record) := do
  if (fields.lookup "event").isSome then throw .secondEvent
  match fields.lookup "level" with
  | none => return some (audit event fields)
  | some level =>
    let text := eventText event (fields.filter fun f => f.1 != "level")
    return (Level.ofNumber? (← levelNumber level)).map fun l => ⟨.security, l, text⟩

end Record
end QueryGate
