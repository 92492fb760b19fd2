import QueryGate.Calendar.Moment
import QueryGate.Calendar.Period
import QueryGate.Indexed.Run
import QueryGate.Policy.Shipped
import QueryGate.Question.Intent
import QueryGate.Statement

/-!
# Templates

Every intent has one query text with two gaps: the id of the tenant and the period.  Nothing of a
question ever gets into a text; a question only picks the intent and, where the intent allows it,
the restriction to failures.
-/

namespace QueryGate
namespace Template

open Question
open Indexed (HasText)

/-- The largest number of rows that a template asks for. -/
def rowLimit : Int := min 1000 Policy.shipped.maxLimit

/-- The condition that a time column lies in a period. -/
def inPeriod (column : String) (p : Period) : String :=
  column ++ " >= UNIX_TIMESTAMP('" ++ p.start.iso ++ "')\n  AND " ++ column ++ " < UNIX_TIMESTAMP('"
    ++ p.stop.iso ++ "')"

/-- A query block: its select items, tables and conditions. -/
def block (select : List String) (tables : String) (conditions : List String) : String :=
  "SELECT " ++ ",\n       ".intercalate select ++ "\nFROM " ++ tables
    ++ "\nWHERE " ++ "\n  AND ".intercalate conditions

/-- The condition that a check was completed. -/
def checkDone : String := "(d.is_completed = 1 OR d.status = 1)"

/-- The condition that pins the restaurant of the table with the given alias. -/
def ofTenant (aliasName : String) (tenant : Nat) : String :=
  aliasName ++ ".restaurant_id = " ++ toString tenant

/-- How many checks of a kind were completed. -/
def namedChecks (kind : String) (tenant : Nat) (p : Period) : String :=
  block ["COUNT(*) AS completed_" ++ kind ++ "_checks"]
    "daily_check d\nJOIN template t ON d.qid = t.id"
    [ofTenant "d" tenant, "t.name LIKE '%" ++ kind ++ "%'", checkDone, inPeriod "d.date" p]

/-- The columns that a list of checks shows. -/
def checkColumns : List String :=
  ["d.id", "d.note", "d.status", "d.is_completed", "FROM_UNIXTIME(d.date) AS check_time"]

/-- The checks that are not completed. -/
def outstandingChecks (tenant : Nat) (p : Period) : String :=
  block checkColumns "daily_check d"
    [ofTenant "d" tenant, "COALESCE(d.is_completed, 0) <> 1", "COALESCE(d.status, 0) <> 1",
      inPeriod "d.date" p]
    ++ "\nORDER BY d.id DESC"

/-- How many checks were completed. -/
def completedCheckCount (tenant : Nat) (p : Period) : String :=
  block ["COUNT(*) AS completed_checks"] "daily_check d"
    [ofTenant "d" tenant, checkDone, inPeriod "d.date" p]

/-- The checks that were completed. -/
def completedChecks (tenant : Nat) (p : Period) : String :=
  block checkColumns "daily_check d" [ofTenant "d" tenant, checkDone, inPeriod "d.date" p]
    ++ "\nORDER BY d.id DESC"

/-- A table of temperature readings: its alias, the item that shows a reading, and its time. -/
structure Probe where
  table : String
  aliasName : String
  reading : String
  time : String

/-- Temperatures inside food. -/
def coreProbe : Probe := ⟨"core_temperature", "c", "c.temperature", "c.created_at"⟩

/-- Temperatures of food that is kept hot. -/
def hotHoldProbe : Probe := ⟨"hot_holding", "h", "h.temperature", "h.created_at"⟩

/-- Temperatures of fridges and freezers. -/
def fridgeProbe : Probe := ⟨"temperature", "s", "s.temp_calc AS temperature", "s.date"⟩

/-- The readings of a table. -/
def readings (probe : Probe) (tenant : Nat) (p : Period) (failedOnly : Bool) : String :=
  block
    [probe.aliasName ++ ".id", probe.reading, probe.aliasName ++ ".status",
      "FROM_UNIXTIME(" ++ probe.time ++ ") AS recorded_at"]
    (probe.table ++ " " ++ probe.aliasName)
    ([ofTenant probe.aliasName tenant]
      ++ (if failedOnly then [probe.aliasName ++ ".status = 0"] else [])
      ++ [inPeriod probe.time p])

/-- The order of readings. -/
def latestFirst : String := "\nORDER BY recorded_at DESC"

/-- The readings of all tables. -/
def allReadings (tenant : Nat) (p : Period) (failedOnly : Bool) : String :=
  "\nUNION ALL\n".intercalate
    ([coreProbe, hotHoldProbe, fridgeProbe].map fun probe => readings probe tenant p failedOnly)

/-- The query text of an intent without its limit. -/
def body (intent : Intent) (tenant : Nat) (p : Period) (failedOnly : Bool) : String :=
  match intent with
  | .openingChecks => namedChecks "opening" tenant p
  | .closingChecks => namedChecks "closing" tenant p
  | .outstandingChecks => outstandingChecks tenant p
  | .weeklyCompletedChecks => completedCheckCount tenant p
  | .hotHoldingReadings => readings hotHoldProbe tenant p failedOnly ++ latestFirst
  | .coreTemperatureReadings => readings coreProbe tenant p failedOnly ++ latestFirst
  | .fridgeReadings => readings fridgeProbe tenant p failedOnly ++ latestFirst
  | .temperatureRollup => allReadings tenant p failedOnly ++ latestFirst
  | .completedChecks => completedChecks tenant p

/-- The query text of an intent. -/
def text (intent : Intent) (tenant : Nat) (p : Period) (failedOnly : Bool) : String :=
  body intent tenant p failedOnly ++ "\nLIMIT " ++ toString rowLimit

/-- The period that an intent looks at unless the question names one: it ends with the day of the
moment. -/
def defaultPeriod? (intent : Intent) (now : Moment) : Option Period := do
  let today ← now.utcDate?
  let start ← today.addDays? (1 - (intent.defaultDays : Int))
  Period.window? start intent.defaultDays
    (if intent.defaultDays = 1 then "today" else "last " ++ toString intent.defaultDays ++ " days")

/-- Why there is no statement although the question has an intent. -/
inductive Fault where
  /-- The tenant, shown as given, is no whole number or negative. -/
  | badTenant (shown : String)
  /-- The tenant has too many digits to be filled in or shown. -/
  | longTenant
  /-- The period lies beyond the calendar. -/
  | beyondCalendar
  deriving DecidableEq

/-- The message of a fault. -/
def Fault.message : Fault → String
  | .badTenant shown => "tenant_id must be a non-negative int, got " ++ shown
  | .longTenant =>
    "Exceeds the limit (4300 digits) for integer string conversion; "
      ++ "use sys.set_int_max_str_digits() to increase the limit"
  | .beyondCalendar => "date value out of range"

/-- The statement for a question, if it has an intent.  The tenant is written into its text last. -/
def forQuestion (question : List Char) (tenant : Nat) (period : Option Period) (now : Moment) :
    Except Fault (Option Statement) :=
  match Intent.ofText? question with
  | none => .ok none
  | some intent =>
    match period.or (defaultPeriod? intent now) with
    | none => .error .beyondCalendar
    | some p =>
      let failedOnly := intent.hasFailureFilter && speaksOfFailure question
      if HasText tenant then
        .ok (some ⟨text intent tenant p failedOnly, .template, some intent.name⟩)
      else .error .longTenant

/-- A question without an intent has no statement, and one with an intent has its text for a tenant
that can be written. -/
theorem forQuestion_eq_ok {question : List Char} {tenant : Nat} {period : Option Period}
    {now : Moment} {found : Option Statement}
    (h : forQuestion question tenant period now = .ok found) :
    (Intent.ofText? question = none ∧ found = none) ∨
      HasText tenant ∧ ∃ intent p, Intent.ofText? question = some intent ∧
        period.or (defaultPeriod? intent now) = some p ∧
        found = some ⟨text intent tenant p (intent.hasFailureFilter && speaksOfFailure question),
          .template, some intent.name⟩ := by
  unfold forQuestion at h
  split at h
  · rename_i hnone
    cases h
    exact Or.inl ⟨hnone, rfl⟩
  · rename_i intent hintent
    split at h
    · cases h
    · rename_i p hp
      split at h
      · rename_i htext
        cases h
        exact Or.inr ⟨htext, intent, p, hintent, hp, rfl⟩
      · cases h

/-- The tenant that a value is. -/
def tenantOf (v : Value) : Except Fault Nat :=
  match v with
  | .int n =>
    if 0 ≤ n then .ok n.toNat
    else if HasText n then .error (.badTenant v.quoted)
    else .error .longTenant
  | _ => .error (.badTenant v.quoted)

theorem tenantOf_eq_ok {v : Value} {n : Nat} (h : tenantOf v = .ok n) : v = .int n := by
  unfold tenantOf at h
  cases v with
  | int m =>
    dsimp only at h
    by_cases hm : 0 ≤ m
    · rw [if_pos hm] at h
      rw [← Except.ok.inj h, Int.toNat_of_nonneg hm]
    · rw [if_neg hm] at h
      by_cases htext : HasText m
      · rw [if_pos htext] at h
        cases h
      · rw [if_neg htext] at h
        cases h
  | _ => cases h

/-- The statement for any values; only a text can be a question. -/
def forValues (question tenant : Value) (period : Option Period) (now : Moment) :
    Except Fault (Option Statement) :=
  match tenantOf tenant with
  | .error e => .error e
  | .ok n =>
    match question with
    | .text q => forQuestion q.toList n period now
    | _ => .ok none

theorem forValues_eq_ok {question : String} {tenant : Value} {period : Option Period} {now : Moment}
    {found : Option Statement} (h : forValues (.text question) tenant period now = .ok found) :
    ∃ n : Nat, tenant = .int n ∧ forQuestion question.toList n period now = .ok found := by
  unfold forValues at h
  split at h
  · cases h
  · rename_i n hn
    exact ⟨n, tenantOf_eq_ok hn, h⟩

end Template
end QueryGate
