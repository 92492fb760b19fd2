import QueryGate.Policy.AllowList

/-!
# The shipped allow-list

The allow-list that holds unless another one is given.  Every time column in it holds seconds since
the epoch.
-/

namespace QueryGate
namespace Policy

/-- The tables and their columns. -/
def shippedTables : List (String × List String) :=
  [
    ("temperature", [
      "id", "equipment", "dev_eui", "bat_v", "bat_status", "hum_sht", "temp_ds", "temp_sht",
      "temp_calc", "date", "restaurant_id", "token", "status"]),
    ("core_temperature", [
      "id", "dish_id", "temperature", "re_temperature", "remarks", "restaurant_id", "type",
      "status", "retest", "iteration", "created_at", "updated_at", "created_by", "updated_by",
      "token"]),
    ("daily_core_temp", [
      "id", "note", "type", "date", "restaurant_id", "created_by", "updated_by", "updated_at",
      "created_at", "status", "token"]),
    ("daily_hot_hold", [
      "id", "note", "type", "date", "restaurant_id", "created_by", "updated_by", "updated_at",
      "created_at", "status", "token"]),
    ("hot_holding", [
      "id", "dish_id", "equipment_id", "start", "end", "temperature", "re_temperature",
      "restaurant_id", "type", "remarks", "created_at", "updated_at", "created_by", "updated_by",
      "token", "status", "retest", "iteration", "trash"]),
    ("daily_check", [
      "id", "qid", "category", "image", "note", "status", "start", "end", "reference",
      "restaurant_id", "area", "created_by", "updated_by", "date", "token", "is_completed"]),
    ("check", [
      "id", "qid", "category", "image", "note", "status", "start", "end", "reference",
      "restaurant_id", "area", "created_by", "updated_by", "date", "token", "is_completed"]),
    ("template", [
      "id", "name", "file", "created_by", "updated_by", "created_at", "updated_at", "status",
      "trash", "token"]),
    ("wm_check", [
      "id", "date", "restaurant_id", "token", "type", "status"])]

/-- The words that no query may contain. -/
def shippedKeywords : List String :=
  [
    "INSERT", "UPDATE", "DELETE", "REPLACE", "DROP", "TRUNCATE", "ALTER", "CREATE", "RENAME",
    "GRANT", "REVOKE", "MERGE", "CALL", "EXEC", "EXECUTE", "PREPARE", "DEALLOCATE", "HANDLER",
    "LOCK", "UNLOCK", "SET", "DESCRIBE", "EXPLAIN", "SHOW", "USE", "INTO", "OUTFILE", "DUMPFILE",
    "INFILE", "LOAD", "LOAD_FILE", "SLEEP", "BENCHMARK"]

/-- A rule with a description for readers. -/
def ruleFor (table description : String) (completedWhen failedWhen : AcceptedValues) :
    String × CompletionRule :=
  (table, ⟨table, .text description, completedWhen, failedWhen⟩)

/-- The completion rules. -/
def shippedRules : List (String × CompletionRule) :=
  [ruleFor "cleaning_frequency" "status 0|1|2 = not started | pending | completed"
      [("status", [2])] [],
    ruleFor "core_temperature" "status 1 = completed, 0 = failed"
      [("status", [1])] [("status", [0])],
    ruleFor "hot_holding" "status 1 = completed, 0 = failed" [("status", [1])] [("status", [0])],
    ruleFor "fridge_freezer" "status 1 = completed, 0 = failed" [("status", [1])] [("status", [0])],
    ruleFor "temperature" "fridge / freezer sensor rows: status 1 = completed, 0 = failed"
      [("status", [1])] [("status", [0])],
    ruleFor "daily_check" "completed when is_completed = 1 OR status = 1"
      [("is_completed", [1]), ("status", [1])] []]

/-- The shipped allow-list. -/
def shipped : AllowList :=
  { version := .int 1
    tenantColumn := "restaurant_id"
    maxLimit := 1000
    tables := shippedTables
    joins := [⟨"daily_check", "qid", "template", "id"⟩]
    forbiddenKeywords := shippedKeywords
    timeFunctions := ["FROM_UNIXTIME"]
    completionRules := shippedRules }

end Policy
end QueryGate
