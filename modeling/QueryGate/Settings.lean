import QueryGate.Number.Lenient
import QueryGate.Value.Basic

/-!
# Settings

What a deployment can set: the database, the language models, the fallback tenant, the lifetime of
the catalogue cache.  Settings come from named variables; the names do not distinguish letter case,
and a value that does not read as a number where one belongs is a fault of its field.
-/

namespace QueryGate

/-- The settings of a deployment. -/
structure Settings where
  dbUser : String
  dbPassword : String
  dbName : String
  dbHost : String
  dbPort : Int
  dbTimeZone : String
  dbQueryTimeoutMs : Int
  llmProvider : String
  openaiApiKey : String
  anthropicApiKey : String
  openaiModel : String
  anthropicModel : String
  defaultTenantId : Option Int
  allowlistPath : String
  schemaCacheTtlSeconds : Binary64
  apiPort : Int
  logLevel : String

namespace Settings

/-- The settings that hold unless something is set. -/
def default : Settings :=
  { dbUser := "askguard"
    dbPassword := "askguard_pw"
    dbName := "kitchen"
    dbHost := "localhost"
    dbPort := 3306
    dbTimeZone := "Europe/London"
    dbQueryTimeoutMs := 10000
    llmProvider := "mock"
    openaiApiKey := ""
    anthropicApiKey := ""
    openaiModel := "gpt-4.1-mini"
    anthropicModel := "claude-3-haiku-20240307"
    defaultTenantId := none
    allowlistPath := ""
    schemaCacheTtlSeconds := .ofInt 300
    apiPort := 8000
    logLevel := "INFO" }

/-- The address of the database. -/
def databaseUrl (s : Settings) : String :=
  "mysql+pymysql://" ++ s.dbUser ++ ":" ++ s.dbPassword ++ "@" ++ s.dbHost ++ ":"
    ++ toString s.dbPort ++ "/" ++ s.dbName

/-- The fields by name, in their order. -/
def fields (s : Settings) : List (String × Value) :=
  [("db_user", .text s.dbUser), ("db_password", .text s.dbPassword), ("db_name", .text s.dbName),
    ("db_host", .text s.dbHost), ("db_port", .int s.dbPort), ("db_time_zone", .text s.dbTimeZone),
    ("db_query_timeout_ms", .int s.dbQueryTimeoutMs), ("llm_provider", .text s.llmProvider),
    ("openai_api_key", .text s.openaiApiKey), ("anthropic_api_key", .text s.anthropicApiKey),
    ("openai_model", .text s.openaiModel), ("anthropic_model", .text s.anthropicModel),
    ("default_tenant_id", (s.defaultTenantId.map Value.int).getD .null),
    ("allowlist_path", .text s.allowlistPath),
    ("schema_cache_ttl_seconds", .float s.schemaCacheTtlSeconds), ("api_port", .int s.apiPort),
    ("log_level", .text s.logLevel)]

/-- What a variable had to be and was not. -/
inductive FieldKind where
  | whole
  | boundedWhole
  | number
  deriving DecidableEq, Repr

/-- The name of a kind in a report. -/
def FieldKind.name : FieldKind → String
  | .whole => "int_parsing"
  | .boundedWhole => "int_parsing_size"
  | .number => "float_parsing"

/-- A field whose variable does not read. -/
structure FieldFault where
  field : String
  kind : FieldKind
  deriving DecidableEq, Repr

/-- The value of a variable; of several spellings of a name the one that came last counts.  A name
that is set again keeps its place and takes the new value. -/
def valueOf? (environment : List (String × String)) (field : String) : Option String :=
  let spellings := ((environment.map (·.1)).filter (lowerText · == field)).eraseDups
  spellings.getLast?.bind fun name => (environment.reverse.find? (·.1 == name)).map (·.2)

/-- Reads a whole number. -/
def whole (text : String) : Except FieldKind Int :=
  (Lenient.whole text).mapError fun
    | .malformed => .whole
    | .tooLong => .boundedWhole

/-- Reads a double. -/
def number (text : String) : Except FieldKind Binary64 :=
  match Lenient.number? text with
  | some x => .ok x
  | none => .error .number

/-- Reads the variable of a field with a reader, where there is one. -/
def fieldOf {α : Type} (environment : List (String × String)) (field : String)
    (read : String → Except FieldKind α) (unset : α) : α × List FieldFault :=
  match valueOf? environment field with
  | none => (unset, [])
  | some text =>
    match read text with
    | .ok v => (v, [])
    | .error kind => (unset, [⟨field, kind⟩])

/-- The settings of an environment, or the faults of its fields in the order of the fields. -/
def ofEnvironment (environment : List (String × String)) : Except (List FieldFault) Settings :=
  let text (field unset : String) : String := (valueOf? environment field).getD unset
  let (dbPort, f1) := fieldOf environment "db_port" whole default.dbPort
  let (timeout, f2) := fieldOf environment "db_query_timeout_ms" whole default.dbQueryTimeoutMs
  let (tenant, f3) :=
    fieldOf environment "default_tenant_id" (fun t => (whole t).map some) default.defaultTenantId
  let (ttl, f4) :=
    fieldOf environment "schema_cache_ttl_seconds" number default.schemaCacheTtlSeconds
  let (apiPort, f5) := fieldOf environment "api_port" whole default.apiPort
  match f1 ++ f2 ++ f3 ++ f4 ++ f5 with
  | [] =>
    .ok
      { dbUser := text "db_user" default.dbUser
        dbPassword := text "db_password" default.dbPassword
        dbName := text "db_name" default.dbName
        dbHost := text "db_host" default.dbHost
        dbPort
        dbTimeZone := text "db_time_zone" default.dbTimeZone
        dbQueryTimeoutMs := timeout
        llmProvider := text "llm_provider" default.llmProvider
        openaiApiKey := text "openai_api_key" default.openaiApiKey
        anthropicApiKey := text "anthropic_api_key" default.anthropicApiKey
        openaiModel := text "openai_model" default.openaiModel
        anthropicModel := text "anthropic_model" default.anthropicModel
        defaultTenantId := tenant
        allowlistPath := text "allowlist_path" default.allowlistPath
        schemaCacheTtlSeconds := ttl
        apiPort
        logLevel := text "log_level" default.logLevel }
  | faults => .error faults

/-- The whole number that a value is or writes. -/
def wholeOf? : Value → Option Int
  | .int n => some n
  | .bool b => some (if b then 1 else 0)
  | .float x => x.toInt?
  | .text t => (Lenient.whole t).toOption
  | _ => none

/-- The double that a value is or writes. -/
def numberOf? : Value → Option Binary64
  | .int n => some (.ofInt n)
  | .bool b => some (.ofInt (if b then 1 else 0))
  | .float x => some x
  | .text t => Lenient.number? t
  | _ => none

/-- The settings with a text field changed, if there is one of that name. -/
def setText (s : Settings) (field text : String) : Settings :=
  match field with
  | "db_user" => { s with dbUser := text }
  | "db_password" => { s with dbPassword := text }
  | "db_name" => { s with dbName := text }
  | "db_host" => { s with dbHost := text }
  | "db_time_zone" => { s with dbTimeZone := text }
  | "llm_provider" => { s with llmProvider := text }
  | "openai_api_key" => { s with openaiApiKey := text }
  | "anthropic_api_key" => { s with anthropicApiKey := text }
  | "openai_model" => { s with openaiModel := text }
  | "anthropic_model" => { s with anthropicModel := text }
  | "allowlist_path" => { s with allowlistPath := text }
  | "log_level" => { s with logLevel := text }
  | _ => s

/-- The settings with a field of whole numbers changed, if there is one of that name. -/
def setWhole (s : Settings) (field : String) (n : Int) : Settings :=
  match field with
  | "db_port" => { s with dbPort := n }
  | "db_query_timeout_ms" => { s with dbQueryTimeoutMs := n }
  | "default_tenant_id" => { s with defaultTenantId := some n }
  | "api_port" => { s with apiPort := n }
  | _ => s

/-- The settings with one field set to a value; one that the field cannot hold changes nothing. -/
def set (s : Settings) (field : String) (v : Value) : Settings :=
  match field, v with
  | "default_tenant_id", .null => { s with defaultTenantId := none }
  | "schema_cache_ttl_seconds", v =>
    ((numberOf? v).map fun x => { s with schemaCacheTtlSeconds := x }).getD s
  | field, v =>
    let s := (v.text?.map (s.setText field)).getD s
    ((wholeOf? v).map (s.setWhole field)).getD s

end Settings
end QueryGate
