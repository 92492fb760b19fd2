import QueryGate.Ask
import QueryGate.Catalogue
import QueryGate.Http.Body
import QueryGate.Http.Form
import QueryGate.Http.Target

/-!
# The endpoints

The service over HTTP: asking and explaining, the allow-list, the catalogue of the database, and a
sign of life.  A request that fails is answered with what failed and a status that says whose fault
it was.
-/

namespace QueryGate
namespace Http

/-- A request.  Parameters in the path count where there is no query apart from it. -/
structure Request where
  method : String
  path : String
  query : List (String × String)
  body : Option Value

/-- A response. -/
structure Response where
  status : Nat
  body : Value

/-- An object with the given fields. -/
def object (fields : List (String × Value)) : Value :=
  .map (fields.map fun (name, value) => (.text name, value))

/-- A text, or nothing. -/
def optionalText (t : Option String) : Value := (t.map Value.text).getD .null

/-- A list of texts. -/
def texts (ts : List String) : Value := .list (ts.map Value.text)

/-- A period as an object. -/
def periodValue : Option Period → Value
  | none => .null
  | some p =>
    object
      [("start", .text p.start.iso), ("end", .text p.stop.iso), ("label", optionalText p.label)]

/-- The places of a service. -/
inductive Endpoint where
  | ask
  | explain
  | health
  | catalog
  | tables
  | columns
  deriving DecidableEq, Repr

namespace Endpoint

/-- Every endpoint. -/
def list : List Endpoint := [ask, explain, health, catalog, tables, columns]

/-- The path of an endpoint. -/
def path : Endpoint → String
  | ask => "/ask"
  | explain => "/ask/explain"
  | health => "/health"
  | catalog => "/catalog"
  | tables => "/db/tables"
  | columns => "/db/columns"

/-- The method of an endpoint. -/
def method : Endpoint → String
  | ask | explain => "POST"
  | _ => "GET"

/-- A path without the slashes at its end. -/
def withoutSlashes (path : String) : String :=
  String.ofList (path.toList.reverse.dropWhile (· == '/')).reverse

/-- The endpoint at a path; slashes at the end do not count. -/
def atPath? (path : String) : Option Endpoint :=
  list.find? fun e => e.path == path || e.path == withoutSlashes path

end Endpoint

/-- What is said when answering fails for no fault of the request. -/
def serverError : String := "Server error while answering question."

/-- Whether a fault is that of the request. -/
def isRequestFault : Ask.Fault → Bool
  | .noQuestion | .noTenant | .template (.badTenant _) | .template .longTenant => true
  | _ => false

/-- The response to a request without an outcome. -/
def faultResponse (f : Ask.Fault) : Response :=
  if isRequestFault f then ⟨400, object [("error", .text f.message)]⟩
  else ⟨500, object [("error", .text serverError), ("detail", .text f.message)]⟩

/-- The response to a request whose outcome is a failure. -/
def failureResponse (o : Ask.Outcome) (f : Ask.Failure) : Response :=
  match f with
  | .guard _ =>
    ⟨400, object [("error", .text f.message), ("reason", optionalText f.reason),
      ("sql_attempt", optionalText o.attempt)]⟩
  | .scope =>
    ⟨400, object [("error", .text f.message), ("restaurant_id", .int o.tenant.id),
      ("sql_attempt", optionalText o.attempt)]⟩
  | .execution _ =>
    ⟨500, object [("error", .text f.message), ("detail", optionalText f.detail)]⟩

/-- The fields that both ways of asking answer with. -/
def commonFields (o : Ask.Outcome) : List (String × Value) :=
  [("question", .text o.question), ("sql", .text o.statement.text),
    ("provenance", .text o.statement.provenance.name), ("intent", optionalText o.statement.intent),
    ("restaurant_id", .int o.tenant.id), ("tenant_source", .text o.tenant.source.name),
    ("date_range", periodValue o.period)]

/-- The response to a question. -/
def askResponse : Except Ask.Fault Ask.Outcome → Response
  | .error f => faultResponse f
  | .ok o =>
    match o.failure with
    | some f => failureResponse o f
    | none =>
      ⟨200, object (commonFields o ++ [("answer", .text o.answer),
        ("rows", .list (o.rows.map fun row => bodyValue (Summary.rowValue row))),
        ("executed", .bool o.executed)])⟩

/-- The response to a question that is only looked at. -/
def explainResponse : Except Ask.Fault Ask.Outcome → Response
  | .error f => faultResponse f
  | .ok o =>
    ⟨200, object (commonFields o ++ [("guard_ok", .bool o.verdict.ok),
      ("guard_reason", optionalText o.verdict.reason),
      ("scope_ok", .bool (o.scopeOk.getD false))])⟩

/-- The request for an outcome that a form makes. -/
def Form.request (f : Form) : Ask.Request :=
  { question := .text f.question
    caller := (f.restaurant.map Value.int).getD .null
    mode := optionalText f.mode
    execute := f.execute
    withoutTemplate := false }

/-- The response to a body with faults. -/
def formResponse (faults : List Located) : Response :=
  ⟨422, .list (faults.map fun f => .list [texts f.path, .text f.fault.name])⟩

/-- The allow-list as an object. -/
def catalogBody (a : AllowList) : Value :=
  object
    [("tables", .list (a.tables.map fun (name, columns) =>
        object [("name", .text name), ("columns", texts (AllowList.sorted columns))])),
      ("joins", texts (a.joins.map JoinShape.text)), ("tenant_column", .text a.tenantColumn),
      ("max_limit", .int a.maxLimit), ("time_functions", texts (AllowList.sorted a.timeFunctions)),
      ("completion_rules", texts (Completion.describeLines a.completionRules)),
      ("intents", texts (Question.Intent.list.map Question.Intent.name))]

/-- The response with the tables of the database. -/
def tablesResponse (a : AllowList) (result : Except Catalogue.Fault Catalogue.Answer) : Response :=
  match result with
  | .ok (.tables names) =>
    ⟨200, object [("ok", .bool true), ("tables", texts names),
      ("allowed", texts (names.filter a.isAllowedTable))]⟩
  | .ok (.columns _) => ⟨500, object [("ok", .bool false), ("error", .text "")]⟩
  | .error f => ⟨500, object [("ok", .bool false), ("error", .text f.message)]⟩

/-- A column as an object. -/
def columnValue (c : Catalogue.Column) : Value :=
  object [("name", .text c.name), ("type", .text c.type), ("nullable", .bool c.nullable)]

/-- The response with the columns of a table. -/
def columnsResponse (table : String) (result : Except Catalogue.Fault Catalogue.Answer) :
    Response :=
  match result with
  | .ok (.columns columns) =>
    ⟨200, object [("ok", .bool true), ("table", .text (lowerText table)),
      ("columns", .list (columns.map columnValue))]⟩
  | .ok (.tables _) => ⟨500, object [("ok", .bool false), ("message", .text "")]⟩
  | .error f =>
    let status := match f with
      | .failed _ => 500
      | _ => 400
    ⟨status, object [("ok", .bool false), ("message", .text f.message)]⟩

/-- What the endpoints have behind them. -/
structure Service where
  context : Ask.Context
  catalogue : Catalogue.Database
  store : Catalogue.Store
  clock : Binary64

/-- The response of an endpoint to a request with its method. -/
def Endpoint.respond (s : Service) (r : Request) : Endpoint → Response
  | .health => ⟨200, object [("status", .text "ok")]⟩
  | .catalog => ⟨200, catalogBody Policy.shipped⟩
  | .tables =>
    tablesResponse Policy.shipped
      (Catalogue.listTables s.catalogue s.store s.clock s.clock).result
  | .columns =>
    match (r.query.reverse.lookup "table").filter fun t => !t.isEmpty with
    | none =>
      ⟨400, object [("ok", .bool false), ("message", .text "Add ?table=your_table_name")]⟩
    | some table =>
      columnsResponse table
        (Catalogue.listColumns Policy.shipped s.catalogue s.store s.clock s.clock table).result
  | .ask =>
    match formOf r.body with
    | .error faults => formResponse faults
    | .ok form => askResponse (Ask.ask s.context form.request)
  | .explain =>
    match formOf r.body with
    | .error faults => formResponse faults
    | .ok form => explainResponse (Ask.explain s.context form.request)

/-- The response to a request. -/
def respond (s : Service) (r : Request) : Response :=
  let target := Target.ofText r.path
  match Endpoint.atPath? target.path with
  | none => ⟨404, object [("detail", .text "Not Found")]⟩
  | some e =>
    let query := if r.query.isEmpty then target.query else r.query
    if e.method = r.method then e.respond s { r with query }
    else ⟨405, object [("detail", .text "Method Not Allowed")]⟩

end Http
end QueryGate
