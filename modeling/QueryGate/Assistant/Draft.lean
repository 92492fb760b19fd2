import QueryGate.Assistant.Model
import QueryGate.Calendar.Period
import QueryGate.Policy.Completion
import QueryGate.Policy.Shipped
import QueryGate.Statement

/-!
# Statements drafted by a language model

The instructions tell the model exactly what the guard accepts.  The answer is taken as it is, apart
from a fence around it and a missing limit; nothing is done to make it pass.
-/

namespace QueryGate
namespace Assistant

open Text

/-- The instructions for a tenant under an allow-list. -/
def systemPrompt (a : AllowList) (tenant : String) : String :=
  let tables := "\n".intercalate (a.tables.map fun (name, columns) =>
    "  - " ++ name ++ "(" ++ ", ".intercalate (AllowList.sorted columns) ++ ")")
  let joins :=
    if a.joins.isEmpty then "  (none)"
    else "\n".intercalate (a.joins.map fun j => "  - " ++ j.text)
  "You are a MySQL assistant for a read-only analytics API.\n\n"
    ++ "Only these tables and columns may be used:\n"
    ++ tables ++ "\n\n"
    ++ "The only permitted joins (JOIN ... ON a.x = b.y):\n"
    ++ joins ++ "\n\n"
    ++ "Rules:\n"
    ++ "- Return exactly one SELECT statement and nothing else: no comments, no semicolon.\n"
    ++ "- No subqueries, no comma joins, no CTEs.\n"
    ++ "- SELECT-list items are plain columns, COUNT(*), an aggregate of a column, or "
    ++ ", ".intercalate (AllowList.sorted a.timeFunctions) ++ "(column).\n"
    ++ "- Time columns hold Unix epoch seconds; compare them with UNIX_TIMESTAMP('YYYY-MM-DD').\n"
    ++ "- Every query block must include WHERE " ++ a.tenantColumn ++ " = " ++ tenant
    ++ " joined to the other conditions with AND (never OR).\n"
    ++ "- Always end with LIMIT " ++ toString a.maxLimit ++ " or less.\n\n"
    ++ "Completion status depends on the table:\n"
    ++ Completion.describe a.completionRules ++ "\n"

/-- The question as it is put to the model. -/
def userPrompt (question : String) (period : Option Period) : String :=
  "Question: \"" ++ question ++ "\"\n"
    ++ (match period with
      | some p =>
        "Period: " ++ p.start.iso ++ " (inclusive) to " ++ p.stop.iso ++ " (exclusive).\n"
      | none => "")
    ++ "Return a single SELECT with a LIMIT."

/-- The mark at both ends of a fenced text. -/
def fence : List Char := ['\x60', '\x60', '\x60']

/-- What is between the fences of a trimmed text, without a tag of letters behind the first one. -/
def fenced? (cs : List Char) : Option (List Char) :=
  if fence.isPrefixOf cs then
    let rest := trimLeft ((cs.drop fence.length).dropWhile Char.isAlpha)
    if fence.isSuffixOf rest then some (rest.take (rest.length - fence.length)) else none
  else none

/-- An answer without the blanks and the fence around it. -/
def stripFences (reply : String) : String :=
  let cs := trim reply.toList
  match fenced? cs with
  | some inner => String.ofList (trim inner)
  | none => String.ofList cs

/-- The statement that an answer is. -/
def statementOf (reply : String) : Statement :=
  (Statement.mk (stripFences reply) .external none).withLimit Policy.shipped.maxLimit

/-- Asks a provider for a statement. -/
def draft (backend : Backend) (history : History) (provider question : String) (tenant : Int)
    (period : Option Period) : Except Fault Statement × History :=
  let (answer, history) :=
    ask backend history provider (userPrompt question period)
      (systemPrompt Policy.shipped (toString tenant))
  (answer.map statementOf, history)

end Assistant
end QueryGate
