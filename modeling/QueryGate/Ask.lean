import QueryGate.Assistant.Draft
import QueryGate.Database.Session
import QueryGate.Guard.Check
import QueryGate.Question.Phrase
import QueryGate.Question.Tenant
import QueryGate.Scope
import QueryGate.Summary
import QueryGate.Template

/-!
# Asking a question

From a question to its answer: the tenant and the period are read out of the question, a statement
comes from a template or, when there is none, from a language model, the guard and the scope check
look at it, and only a statement that passes both is run and its rows are summarised.  A statement
of a language model that the guard rejects is given up for the template, if there is one after all.

`ask` runs the statement, `explain` only says what would be run.
-/

namespace QueryGate
namespace Ask

open Assistant Question

/-- What a request meets: the settings, the time, the language models and the database. -/
structure Context where
  settings : Settings
  now : Moment
  backend : Backend
  database : Database.Behaviour

/-- A request.  `execute` says whether the statement is to be run; `withoutTemplate` that the first
look for a template is left out. -/
structure Request where
  question : Value
  caller : Value
  mode : Value
  execute : Bool
  withoutTemplate : Bool

/-- Why a request has no outcome. -/
inductive Fault where
  | noQuestion
  /-- A part of the request has a kind that it cannot have. -/
  | illTyped
  | noTenant
  | template (fault : Template.Fault)
  | assistant (fault : Assistant.Fault)
  deriving DecidableEq

/-- The message of a fault; a fault of kind has none. -/
def Fault.message : Fault → String
  | .noQuestion => "Question is required"
  | .illTyped => ""
  | .noTenant => noTenantMessage
  | .template fault => fault.message
  | .assistant fault => fault.message

/-- Why an outcome is no success. -/
inductive Failure where
  | guard (why : Guard.Rejection)
  | scope
  | execution (detail : String)
  deriving DecidableEq

namespace Failure

/-- The name of a kind of failure. -/
def name : Failure → String
  | guard _ => "guard"
  | scope => "scope"
  | execution _ => "execution"

/-- The message of a failure. -/
def message : Failure → String
  | guard _ => "Generated SQL rejected by guard."
  | scope =>
    "SQL must include a " ++ Policy.shipped.tenantColumn ++ " filter for the resolved restaurant."
  | execution _ => "execution failed"

/-- The guard's reason. -/
def reason : Failure → Option String
  | guard why => some why.message
  | _ => none

/-- What the database said. -/
def detail : Failure → Option String
  | execution detail => some detail
  | _ => none

end Failure

/-- The outcome of a request. -/
structure Outcome where
  question : String
  tenant : Tenant
  period : Option Period
  statement : Statement
  verdict : Verdict
  scopeOk : Option Bool
  rows : List Row
  answer : String
  executed : Bool
  failure : Option Failure
  records : List Record
  calls : Database.Trace
  requests : History

/-- Whether a request succeeded. -/
def Outcome.success (o : Outcome) : Bool := o.failure.isNone

/-- The statement that a failure is about. -/
def Outcome.attempt (o : Outcome) : Option String := o.failure.map fun _ => o.statement.text

/-- The text that a question has to be. -/
def questionText? : Value → Option String
  | .text s => if (Text.trim s.toList).isEmpty then none else some s
  | _ => none

/-- The name of the provider of a request: its mode, or the configured one. -/
def providerOf (settings : Settings) (mode : Value) : Except Fault String :=
  if mode.truthy then
    match mode with
    | .text s => .ok (lowerText s)
    | _ => .error .illTyped
  else .ok (lowerText settings.llmProvider)

/-- The template of a question for a tenant. -/
def templateFor (question : String) (tenant : Tenant) (period : Option Period) (now : Moment) :
    Except Fault (Option Statement) :=
  (Template.forValues (.text question) (.int tenant.id) period now).mapError .template

/-- The guard's answer under the shipped allow-list. -/
def review (s : Statement) : Verdict := Verdict.ofText Policy.shipped s.text

/-- A statement with the guard's answer, and the requests made to language models. -/
structure Choice where
  statement : Statement
  verdict : Verdict
  requests : History

/-- The template instead of a rejected statement, if there is one that passes. -/
def retry (question : String) (tenant : Tenant) (now : Moment) (first : Choice) :
    Except Fault Choice := do
  match ← templateFor question tenant none now with
  | none => pure first
  | some s =>
    match review s with
    | .accepted => pure { first with statement := s, verdict := .accepted }
    | .rejected _ => pure first

/-- Picks the statement of a request. -/
def choose (ctx : Context) (question : String) (tenant : Tenant) (period : Option Period)
    (provider : String) (withoutTemplate : Bool) : Except Fault Choice := do
  let fromTemplate ←
    if withoutTemplate then pure none else templateFor question tenant period ctx.now
  match fromTemplate with
  | some s => pure ⟨s, review s, []⟩
  | none =>
    match draft ctx.backend [] provider question tenant.id period with
    | (.error e, _) => throw (.assistant e)
    | (.ok s, requests) =>
      let first : Choice := ⟨s, review s, requests⟩
      match first.verdict with
      | .accepted => pure first
      | .rejected _ => retry question tenant ctx.now first

/-- Whether a statement is scoped to a tenant under the shipped allow-list. -/
def inScope (s : Statement) (tenant : Tenant) : Bool :=
  Scope.holds Policy.shipped.tenantColumn tenant.id s.text.toList

/-- The security records of finding a tenant. -/
def tenantAudit (question : String) (caller : Value) (fallback : Option Int) : List Record :=
  (tenantRecords question.toList caller fallback).filter fun r => r.concern == .security

/-- An outcome before anything is run. -/
def Outcome.start (question : String) (tenant : Tenant) (period : Option Period) (choice : Choice)
    (records : List Record) : Outcome :=
  { question, tenant, period, records
    statement := choice.statement
    verdict := choice.verdict
    scopeOk := none
    rows := []
    answer := ""
    executed := false
    failure := none
    calls := []
    requests := choice.requests }

/-- The record of a statement that is not run. -/
def refusal (event : String) (o : Outcome) (reason : List (String × Value)) : Record :=
  .audit event
    ([("tenant_id", .int o.tenant.id), ("provenance", .text o.statement.provenance.name)] ++ reason
      ++ [("sql", .text o.statement.text)])

/-- Runs the statement of an outcome and summarises its rows. -/
def run (ctx : Context) (provider : String) (o : Outcome) : Except Fault Outcome :=
  match Database.execute ctx.database o.statement.text (.int ctx.settings.dbQueryTimeoutMs) [] with
  | (.error e, calls) => .ok { o with calls, failure := some (.execution e.message) }
  | (.ok rows, calls) =>
    match Summary.ofRows? ctx.backend o.requests provider o.question o.statement.text rows
        o.tenant.id o.period with
    | (none, _) => .error .illTyped
    | (some answer, requests) => .ok { o with calls, rows, answer, requests, executed := true }

/-- Carries a chosen statement through the checks and, if it passes and is to be run, to the
database. -/
def conclude (ctx : Context) (provider : String) (execute : Bool) (o : Outcome) :
    Except Fault Outcome :=
  match o.verdict with
  | .rejected why =>
    .ok
      { o with
        failure := some (.guard why)
        records := o.records ++ [refusal "guard_rejected" o [("reason", .text why.message)]] }
  | .accepted =>
    if inScope o.statement o.tenant then
      let o := { o with scopeOk := some true }
      if execute then run ctx provider o else .ok o
    else
      .ok
        { o with
          scopeOk := some false
          failure := some .scope
          records := o.records ++ [refusal "tenant_scope_failed" o []] }

/-- Answers a question. -/
def ask (ctx : Context) (r : Request) : Except Fault Outcome := do
  let some question := questionText? r.question | throw .noQuestion
  let provider ← providerOf ctx.settings r.mode
  let some tenant := resolveTenant? question.toList r.caller ctx.settings.defaultTenantId
    | throw .noTenant
  let period := Question.period? question ctx.now
  let choice ← choose ctx question tenant period provider r.withoutTemplate
  conclude ctx provider r.execute
    (.start question tenant period choice
      (tenantAudit question r.caller ctx.settings.defaultTenantId))

/-- The failure of a statement that is only looked at. -/
def foreseen (verdict : Verdict) (scopeOk : Bool) : Option Failure :=
  match verdict with
  | .rejected why => some (.guard why)
  | .accepted => if scopeOk then none else some .scope

/-- Says what would be run for a question, with the answers of both checks. -/
def explain (ctx : Context) (r : Request) : Except Fault Outcome := do
  let some question := questionText? r.question | throw .noQuestion
  let some tenant := resolveTenant? question.toList r.caller ctx.settings.defaultTenantId
    | throw .noTenant
  let period := Question.period? question ctx.now
  let provider ← providerOf ctx.settings r.mode
  let choice ← choose ctx question tenant period provider r.withoutTemplate
  let o : Outcome :=
    .start question tenant period choice
      (tenantAudit question r.caller ctx.settings.defaultTenantId)
  let scopeOk := inScope o.statement tenant
  pure { o with scopeOk := some scopeOk, failure := foreseen o.verdict scopeOk }

end Ask
end QueryGate
