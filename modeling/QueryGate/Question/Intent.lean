import QueryGate.Text.WordSearch

/-!
# What a question asks for

Questions that people ask most have an intent, found by words that occur in the question.  The
intents are tried in order and the first whose words occur is the one.
-/

namespace QueryGate
namespace Question

open Text

/-- A kind of question. -/
inductive Intent where
  | openingChecks
  | closingChecks
  | outstandingChecks
  | weeklyCompletedChecks
  | hotHoldingReadings
  | coreTemperatureReadings
  | fridgeReadings
  | temperatureRollup
  | completedChecks
  deriving DecidableEq, Repr

namespace Intent

/-- Every intent in the order in which they are tried. -/
def list : List Intent :=
  [openingChecks, closingChecks, outstandingChecks, weeklyCompletedChecks, hotHoldingReadings,
    coreTemperatureReadings, fridgeReadings, temperatureRollup, completedChecks]

/-- The name of an intent. -/
def name : Intent → String
  | openingChecks => "opening_checks"
  | closingChecks => "closing_checks"
  | outstandingChecks => "outstanding_checks"
  | weeklyCompletedChecks => "weekly_completed_checks"
  | hotHoldingReadings => "hot_holding_readings"
  | coreTemperatureReadings => "core_temperature_readings"
  | fridgeReadings => "fridge_readings"
  | temperatureRollup => "temperature_rollup"
  | completedChecks => "completed_checks"

/-- Groups of words; one word of every group has to occur. -/
def words : Intent → List (List String)
  | openingChecks => [["opening"]]
  | closingChecks => [["closing"]]
  | outstandingChecks => [["outstanding", "pending", "incomplete", "not completed", "not done"]]
  | weeklyCompletedChecks => [["completed", "done"], ["week"]]
  | hotHoldingReadings => [["hot hold", "hot-hold"]]
  | coreTemperatureReadings => [["core temp"]]
  | fridgeReadings => [["fridge", "freezer"]]
  | temperatureRollup => [["temperature"]]
  | completedChecks => [["completed", "done"]]

/-- The number of days that are looked at when the question names no period. -/
def defaultDays : Intent → Nat
  | weeklyCompletedChecks => 7
  | _ => 1

/-- Whether the question can ask for failures only. -/
def hasFailureFilter : Intent → Bool
  | hotHoldingReadings | coreTemperatureReadings | fridgeReadings | temperatureRollup => true
  | _ => false

/-- Whether the words of an intent occur in a lower-case text. -/
def occursIn (i : Intent) (q : List Char) : Bool :=
  i.words.all fun group => group.any fun word => containsText word.toList q

/-- The intent of a lower-case text. -/
def ofLower? (q : List Char) : Option Intent := list.find? fun i => i.occursIn q

/-- The intent of a question. -/
def ofText? (question : List Char) : Option Intent := ofLower? (lower question)

end Intent

/-- Whether a question speaks of failures. -/
def speaksOfFailure (question : List Char) : Bool := containsText "fail".toList (lower question)

end Question
end QueryGate
