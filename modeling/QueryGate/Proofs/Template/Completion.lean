import QueryGate.Proofs.Policy.Verdicts
import QueryGate.Proofs.Sql.Comparison
import QueryGate.Proofs.Template.RoundTrip

/-!
# Templates and the completion rules

The conditions of the templates select rows as the completion rules judge them.  A check is in the
list of completed checks when its verdict is that it was completed, and in the list of outstanding
ones when it is not; a reading passes the filter for failures when its verdict is that it failed.
-/

namespace QueryGate

namespace Template

open Sql Guard Question
open Completion (cell holds? holds?_eq_some_true isCompleted isFailed number? number?_int_iff)

/-- A column of a row is a whole number or `NULL`, and the database sees the same in it. -/
def Shows (env : Environment) (qualifier : String) (row : Row) (name : String) : Prop :=
  match cell row name with
  | .int n => env.column (some qualifier) name = some n
  | .null => env.column (some qualifier) name = none
  | _ => False

theorem counts_iff {env : Environment} {qualifier : String} {row : Row} {name : String}
    (h : Shows env qualifier row name) {k : Int} (hk : k = 0 ∨ k = 1) :
    (∃ x, number? (cell row name) = some x ∧ x.equalsInt k = true) ↔
      env.column (some qualifier) name = some k := by
  unfold Shows at h
  split at h
  · rename_i n hcell
    rw [hcell, h, number?_int_iff hk, Option.some.injEq]
  · rename_i hcell
    rw [hcell, h]
    simp [number?]
  · cases h

theorem isCompleted_check_iff {env : Environment} {row : Row}
    (hcompleted : Shows env "d" row "is_completed") (hstatus : Shows env "d" row "status") :
    isCompleted Policy.shipped.completionRules "daily_check" row = some true ↔
      env.column (some "d") "is_completed" = some 1 ∨ env.column (some "d") "status" = some 1 := by
  have hrule : isCompleted Policy.shipped.completionRules "daily_check" row =
      holds? [("is_completed", [1]), ("status", [1])] row := rfl
  rw [hrule, holds?_eq_some_true, ← counts_iff hcompleted (Or.inr rfl),
    ← counts_iff hstatus (Or.inr rfl)]
  simp

theorem isFailed_reading_iff {env : Environment} {row : Row} {r : Reading}
    (hr : r ∈ [coreReading, hotHoldReading, fridgeReading])
    (hstatus : Shows env r.qualifier row "status") :
    isFailed Policy.shipped.completionRules r.probe.table row = some true ↔
      env.column (some r.qualifier) "status" = some 0 := by
  have hrule : isFailed Policy.shipped.completionRules r.probe.table row =
      holds? [("status", [0])] row := by
    simp only [List.mem_cons, List.not_mem_nil, or_false] at hr
    rcases hr with rfl | rfl | rfl <;> rfl
  rw [hrule, holds?_eq_some_true, ← counts_iff hstatus (Or.inl rfl)]
  simp

/-! ### The parts of the conditions -/

/-- A name that the database reads as itself. -/
def IsName (s : String) : Prop := (named s).isIdentifier = true ∧ (named s).name = s

instance (s : String) : Decidable (IsName s) := inferInstanceAs (Decidable (_ ∧ _))

section Parts

variable (env : Environment) {qualifier name : String} (hq : IsName qualifier) (hn : IsName name)
include hq hn

theorem simple_column (rest : List Token) :
    Operand.simple? (columnOf qualifier name ++ rest) =
      some (.column (some qualifier) name, rest) := by
  simp [columnOf, Operand.simple?, hq.1, hq.2, hn.1, hn.2]

theorem operand_column (rest : List Token) :
    Operand.ofTokens? (columnOf qualifier name ++ rest) =
      some (.column (some qualifier) name, rest) :=
  simple_column hq hn rest

/-- A comparison with a column on its left. -/
theorem part_column (op : Operator) {test : Int → Int → Bool} (hop : op.test? = some test)
    {ts : List Token} {right : Operand} (hright : Operand.ofTokens? ts = some (right, [])) :
    env.part (columnOf qualifier name ++ .operator op :: ts) =
      (env.column (some qualifier) name).bind fun x => (right.value env).map fun y => test x y := by
  have hcomparison : Comparison.ofTokens? (columnOf qualifier name ++ .operator op :: ts) =
      some (⟨.column (some qualifier) name, test, right⟩, []) := by
    rw [Comparison.ofTokens?, operand_column hq hn]
    simp only [hop, hright, Option.bind_some, Option.map_some]
  have hplain : Comparison.disjunction? (columnOf qualifier name ++ .operator op :: ts) = none := rfl
  rw [Environment.part, hplain, hcomparison]
  rfl

/-- A column is compared with a number. -/
theorem part_number {digits : List Char} (hdigits : Text.isDigits digits = true) :
    env.part (columnOf qualifier name ++ [.operator .eq, .number digits]) = some true ↔
      env.column (some qualifier) name = some (Text.digitsValue digits : Int) := by
  have hright : Operand.ofTokens? [.number digits] = some (.number (Text.digitsValue digits), []) := by
    simp [Operand.ofTokens?, Operand.simple?, numeral?, hdigits]
  rw [part_column env hq hn .eq rfl hright]
  cases env.column (some qualifier) name <;> simp [Operand.value]

end Parts

/-- A time column of a row lies in a period. -/
def InPeriod (env : Environment) (qualifier name : String) (p : Period) : Prop :=
  ∃ time start stop, env.column (some qualifier) name = some time ∧
    env.dayStart p.start.isoChars = some start ∧ env.dayStart p.stop.isoChars = some stop ∧
    start ≤ time ∧ time < stop

theorem parts_period {env : Environment} {qualifier name : String} (hq : IsName qualifier)
    (hn : IsName name) (p : Period) :
    (∀ u ∈ periodConditions qualifier name p, env.part u = some true) ↔
      InPeriod env qualifier name p := by
  have hday (d : Date) : Operand.ofTokens? (timestamp d) = some (.dayStart d.isoChars, []) := rfl
  have hstart := part_column env hq hn .ge rfl (hday p.start)
  have hstop := part_column env hq hn .lt rfl (hday p.stop)
  simp only [periodConditions, List.mem_cons, List.not_mem_nil, or_false, forall_eq_or_imp,
    forall_eq, hstart, hstop, Operand.value, InPeriod]
  cases env.column (some qualifier) name <;> cases env.dayStart p.start.isoChars <;>
    cases env.dayStart p.stop.isoChars <;> simp

theorem part_done {env : Environment} :
    env.part doneCondition = some true ↔
      env.column (some "d") "is_completed" = some 1 ∨ env.column (some "d") "status" = some 1 := by
  have hparts : Comparison.disjunction? doneCondition =
      some (⟨.column (some "d") "is_completed", fun x y => x == y, .number 1⟩,
        ⟨.column (some "d") "status", fun x y => x == y, .number 1⟩) := rfl
  rw [Environment.part, hparts]
  simp only [either_eq_some_true, Comparison.holds, Operand.value]
  cases env.column (some "d") "is_completed" <;> cases env.column (some "d") "status" <;> simp

theorem part_open {env : Environment} {name : String} (hn : IsName name) :
    env.part (openCondition name) = some true ↔ env.column (some "d") name ≠ some 1 := by
  have hd : IsName "d" := by decide
  have hparts : Comparison.ofTokens? (openCondition name) =
      some (⟨.coalesce (.column (some "d") name) (.number 0), fun x y => x != y, .number 1⟩, []) := by
    have hcall : (named "COALESCE").spells Operand.coalesceName = true := rfl
    simp only [Comparison.ofTokens?, openCondition, Operand.ofTokens?, hcall, if_true,
      simple_column hd hn]
    rfl
  have hplain : Comparison.disjunction? (openCondition name) = none := rfl
  rw [Environment.part, hplain, hparts]
  simp only [Comparison.holds, Operand.value]
  cases env.column (some "d") name <;> simp

/-- A check is of a kind if the pattern of the kind matches its name. -/
def OfKind (env : Environment) (kind : String) : Prop :=
  truth (env.other (kindCondition kind)) = some true

theorem part_kind {env : Environment} (kind : String) :
    env.part (kindCondition kind) = some true ↔ OfKind env kind := by
  have hplain : Comparison.disjunction? (kindCondition kind) = none := rfl
  have hpattern : Comparison.ofTokens? (kindCondition kind) = none := rfl
  rw [Environment.part, hplain, hpattern]
  rfl

theorem part_failed (env : Environment) {qualifier : String} (hq : IsName qualifier) :
    env.part (failedCondition qualifier) = some true ↔
      env.column (some qualifier) "status" = some 0 :=
  part_number env hq (by decide) (by decide)

/-! ### The rows that a template selects -/

/-- A row belongs to a tenant. -/
def OfTenant (env : Environment) (qualifier : String) (tenant : Nat) : Prop :=
  env.column (some qualifier) "restaurant_id" = some (tenant : Int)

section Selection

theorem condition_joined {env : Environment} {us : List (List Token)} (hne : us ≠ [])
    (hus : ∀ u ∈ us, Passes isAtomic u) :
    env.condition (joined us) = some true ↔ ∀ u ∈ us, env.part u = some true := by
  rw [Environment.condition, conjuncts_joined hne hus, Environment.conjoined_eq_some_true,
    List.forall_mem_map]

variable {env : Environment} {intent : Intent} {p : Period} {failedOnly : Bool} {b : Block}

/-- A block selects a row of its tenant of which every further part of its condition is true. -/
theorem selects_iff {block : Nat} (hb : (blocks intent p failedOnly)[block]? = some b)
    {qualifier : String} (hq : IsName qualifier)
    (hpin : ∀ digits, b.frame.pin digits =
      columnOf qualifier "restaurant_id" ++ [.operator .eq, .number digits]) (tenant : Nat) :
    env.Selects block (text intent tenant p failedOnly).toList ↔
      OfTenant env qualifier tenant ∧ ∀ u ∈ b.others, env.part u = some true := by
  have hread := tokenize_eq_ok_iff.mpr (fragment_text intent tenant p failedOnly).reads
  have hblocks := blocksOf_statement (blocks_ne_nil intent p failedOnly)
    (blocks_fit intent p failedOnly) _ hread
  have hfits := blocks_fit intent p failedOnly b (List.mem_of_getElem? hb)
  have hsections : ((blocks intent p failedOnly).map
      (Block.sections (Nat.toDigits 10 tenant)))[block]? =
        some (b.sections (Nat.toDigits 10 tenant)) := by
    rw [List.getElem?_map, hb]
    rfl
  have hcondition : env.condition (Sql.body .where_ (b.sections (Nat.toDigits 10 tenant))) = some true ↔
      OfTenant env qualifier tenant ∧ ∀ u ∈ b.others, env.part u = some true := by
    have hwhere : Sql.body .where_ (b.sections (Nat.toDigits 10 tenant)) =
        joined (b.frame.pin (Nat.toDigits 10 tenant) :: b.others) := rfl
    rw [hwhere, condition_joined (by simp) (conditions_pass hfits _), List.forall_mem_cons, hpin,
      part_number env hq (by decide) (Text.isDigits_toDigits tenant), Text.digitsValue_toDigits]
    rfl
  rw [← hcondition]
  constructor
  · rintro ⟨ts, all, sections, hall, hsection, htrue⟩
    rw [hblocks] at hall
    cases hall
    rw [hsections] at hsection
    cases hsection
    exact htrue
  · intro htrue
    exact ⟨_, _, _, hblocks, hsections, htrue⟩

/-- The rows that a template on checks selects: its own conditions stand in front of the period. -/
theorem selects_checks_iff {f : Frame} {us : List (List Token)}
    (hblocks : blocks intent p failedOnly = [⟨f, us ++ periodConditions "d" "date" p⟩])
    (hpin : ∀ digits, f.pin digits =
      columnOf "d" "restaurant_id" ++ [.operator .eq, .number digits]) (tenant : Nat) :
    env.Selects 0 (text intent tenant p failedOnly).toList ↔
      OfTenant env "d" tenant ∧ InPeriod env "d" "date" p ∧ ∀ u ∈ us, env.part u = some true := by
  have hd : IsName "d" := by decide
  rw [selects_iff (by rw [hblocks]; rfl) hd hpin, ← parts_period hd (by decide)]
  simp only [List.forall_mem_append]
  tauto

/-- The readings of a template by table, with the template's intent and the place of their block. -/
def readingBlocks : List (Reading × Intent × Nat) :=
  [(coreReading, .coreTemperatureReadings, 0), (hotHoldReading, .hotHoldingReadings, 0),
    (fridgeReading, .fridgeReadings, 0), (coreReading, .temperatureRollup, 0),
    (hotHoldReading, .temperatureRollup, 1), (fridgeReading, .temperatureRollup, 2)]

theorem readingBlocks_spec {r : Reading} {place : Intent × Nat} (h : (r, place) ∈ readingBlocks)
    (p : Period) (failedOnly : Bool) :
    ∃ b, (blocks place.1 p failedOnly)[place.2]? = some b ∧
      b.others = (r.block p failedOnly).others ∧
      (∀ digits, b.frame.pin digits =
        columnOf r.qualifier "restaurant_id" ++ [.operator .eq, .number digits]) ∧
      IsName r.qualifier ∧ IsName r.time ∧ r ∈ [coreReading, hotHoldReading, fridgeReading] := by
  simp only [readingBlocks, List.mem_cons, List.not_mem_nil, or_false, Prod.mk.injEq] at h
  rcases h with ⟨rfl, rfl⟩ | ⟨rfl, rfl⟩ | ⟨rfl, rfl⟩ | ⟨rfl, rfl⟩ | ⟨rfl, rfl⟩ | ⟨rfl, rfl⟩
  all_goals exact ⟨_, rfl, rfl, fun _ => rfl, by decide, by decide, by simp⟩

/-- The rows that the readings of a table select. -/
theorem selects_readings_iff {r : Reading} {place : Intent × Nat}
    (h : (r, place) ∈ readingBlocks) (tenant : Nat) :
    env.Selects place.2 (text place.1 tenant p failedOnly).toList ↔
      OfTenant env r.qualifier tenant ∧ InPeriod env r.qualifier r.time p ∧
        (failedOnly = true → env.column (some r.qualifier) "status" = some 0) := by
  obtain ⟨b, hb, hothers, hpin, hq, htime, _⟩ := readingBlocks_spec h p failedOnly
  rw [selects_iff hb hq hpin, hothers, ← parts_period hq htime]
  cases failedOnly with
  | false => simp [Reading.block]
  | true =>
    simp only [Reading.block, if_true, List.forall_mem_append, List.forall_mem_singleton,
      part_failed env hq]
    tauto

end Selection

/-! ### The templates and the rules -/

theorem conditionText_eq {text : String} {ts : List Token} (h : Fragment text.toList ts)
    (env : Environment) : env.conditionText text = env.condition ts := by
  rw [Environment.conditionText, tokenize_eq_ok_iff.mpr h.reads]

/-- The condition that a check was not completed. -/
def checkOpen : String := "COALESCE(d.is_completed, 0) <> 1 AND COALESCE(d.status, 0) <> 1"

theorem fragment_checkOpen :
    Fragment checkOpen.toList (joined [openCondition "is_completed", openCondition "status"]) := by
  have hand := fragment_keyword .and (by decide)
  have hwhole := checksRead.openCompleted.append
    (hand.append checksRead.openStatus (Or.inl rfl)) (Or.inl rfl)
  simpa [checkOpen, joined, Keyword.letters] using hwhole

/-- A condition of a template on checks, read on its own. -/
theorem conditionText_checks {env : Environment} {text : String} {us : List (List Token)}
    (htext : Fragment text.toList (joined us)) (hne : us ≠ []) (hus : us ⊆ checkConditions) :
    env.conditionText text = some true ↔ ∀ u ∈ us, env.part u = some true := by
  rw [conditionText_eq htext]
  exact condition_joined hne fun u hu => (isCondition_checks.1 u (hus hu)).atomic

/-- The verdict on a check is that it was completed. -/
def Completed (row : Row) : Prop :=
  isCompleted Policy.shipped.completionRules "daily_check" row = some true

/-- The verdict on a reading is that it failed. -/
def Failed (r : Reading) (row : Row) : Prop :=
  isFailed Policy.shipped.completionRules r.probe.table row = some true

/-- The templates on checks select a row as its verdict says. -/
structure ChecksFollow (env : Environment) (row : Row) (tenant : Nat) (p : Period)
    (failedOnly : Bool) : Prop where
  opening : env.Selects 0 (text .openingChecks tenant p failedOnly).toList ↔
    OfTenant env "d" tenant ∧ InPeriod env "d" "date" p ∧ OfKind env "opening" ∧ Completed row
  closing : env.Selects 0 (text .closingChecks tenant p failedOnly).toList ↔
    OfTenant env "d" tenant ∧ InPeriod env "d" "date" p ∧ OfKind env "closing" ∧ Completed row
  weekly : env.Selects 0 (text .weeklyCompletedChecks tenant p failedOnly).toList ↔
    OfTenant env "d" tenant ∧ InPeriod env "d" "date" p ∧ Completed row
  completed : env.Selects 0 (text .completedChecks tenant p failedOnly).toList ↔
    OfTenant env "d" tenant ∧ InPeriod env "d" "date" p ∧ Completed row
  outstanding : env.Selects 0 (text .outstandingChecks tenant p failedOnly).toList ↔
    OfTenant env "d" tenant ∧ InPeriod env "d" "date" p ∧ ¬ Completed row
  exactlyOne : OfTenant env "d" tenant → InPeriod env "d" "date" p →
    (env.Selects 0 (text .completedChecks tenant p failedOnly).toList ↔
      ¬ env.Selects 0 (text .outstandingChecks tenant p failedOnly).toList)

section Checks

variable {env : Environment} {row : Row} (hcompleted : Shows env "d" row "is_completed")
  (hstatus : Shows env "d" row "status")
include hcompleted hstatus

theorem parts_done : (∀ u ∈ [doneCondition], env.part u = some true) ↔ Completed row := by
  rw [List.forall_mem_singleton, part_done, Completed, isCompleted_check_iff hcompleted hstatus]

theorem parts_open :
    (∀ u ∈ [openCondition "is_completed", openCondition "status"], env.part u = some true) ↔
      ¬ Completed row := by
  have hname : IsName "is_completed" ∧ IsName "status" := by decide
  rw [List.forall_mem_cons, List.forall_mem_singleton, part_open hname.1, part_open hname.2,
    Completed, isCompleted_check_iff hcompleted hstatus, not_or]

theorem checksFollow (tenant : Nat) (p : Period) (failedOnly : Bool) :
    ChecksFollow env row tenant p failedOnly := by
  have hkind (kind : String) : (∀ u ∈ [kindCondition kind, doneCondition],
      env.part u = some true) ↔ OfKind env kind ∧ Completed row := by
    rw [List.forall_mem_cons, part_kind, parts_done hcompleted hstatus]
  have hlist : env.Selects 0 (text .completedChecks tenant p failedOnly).toList ↔
      OfTenant env "d" tenant ∧ InPeriod env "d" "date" p ∧ Completed row := by
    rw [← parts_done hcompleted hstatus]
    exact selects_checks_iff rfl (fun _ => rfl) tenant
  have houtstanding : env.Selects 0 (text .outstandingChecks tenant p failedOnly).toList ↔
      OfTenant env "d" tenant ∧ InPeriod env "d" "date" p ∧ ¬ Completed row := by
    rw [← parts_open hcompleted hstatus]
    exact selects_checks_iff rfl (fun _ => rfl) tenant
  refine ⟨?_, ?_, ?_, hlist, houtstanding, ?_⟩
  · rw [← hkind]
    exact selects_checks_iff rfl (fun _ => rfl) tenant
  · rw [← hkind]
    exact selects_checks_iff rfl (fun _ => rfl) tenant
  · rw [← parts_done hcompleted hstatus]
    exact selects_checks_iff rfl (fun _ => rfl) tenant
  · intro htenant hperiod
    rw [hlist, houtstanding]
    constructor
    · rintro ⟨_, _, hdone⟩ ⟨_, _, hopen⟩
      exact hopen hdone
    · intro hnot
      exact ⟨htenant, hperiod, by_contra fun hopen => hnot ⟨htenant, hperiod, hopen⟩⟩

end Checks

theorem reads_of_mem {r : Reading} (hr : r ∈ [coreReading, hotHoldReading, fridgeReading]) :
    r.Reads ∧ IsName r.qualifier := by
  simp only [List.mem_cons, List.not_mem_nil, or_false] at hr
  rcases hr with rfl | rfl | rfl
  · exact ⟨Reading.reads_core, by decide⟩
  · exact ⟨Reading.reads_hotHold, by decide⟩
  · exact ⟨Reading.reads_fridge, by decide⟩

/-- What the templates and the completion rules say of a row.  The conditions that a check is
completed or is not, and that a reading failed, are true just when the verdict says so; of the
checks of a tenant in a period each one is selected by just one of the two lists. -/
theorem templates_follow_rules (env : Environment) (row : Row) :
    (Shows env "d" row "is_completed" → Shows env "d" row "status" →
      (env.conditionText checkDone = some true ↔ Completed row) ∧
      (env.conditionText checkOpen = some true ↔ ¬ Completed row) ∧
      ∀ tenant p failedOnly, ChecksFollow env row tenant p failedOnly) ∧
    ∀ r ∈ [coreReading, hotHoldReading, fridgeReading], Shows env r.qualifier row "status" →
      (env.conditionText (r.probe.aliasName ++ ".status = 0") = some true ↔ Failed r row) ∧
      ∀ tenant p place, (r, place) ∈ readingBlocks →
        (env.Selects place.2 (text place.1 tenant p true).toList ↔
          env.Selects place.2 (text place.1 tenant p false).toList ∧ Failed r row) := by
  refine ⟨?_, ?_⟩
  · intro hcompleted hstatus
    refine ⟨?_, ?_, checksFollow hcompleted hstatus⟩
    · have hdone : Fragment checkDone.toList (joined [doneCondition]) := checksRead.done
      rw [conditionText_checks hdone (by simp) (by simp [checkConditions]),
        parts_done hcompleted hstatus]
    · rw [conditionText_checks fragment_checkOpen (by simp) (by simp [checkConditions]),
        parts_open hcompleted hstatus]
  · intro r hr hstatus
    obtain ⟨hreads, hq⟩ := reads_of_mem hr
    have hcondition := hreads.conditions (failedCondition r.qualifier) (by simp)
    rw [Failed, isFailed_reading_iff hr hstatus]
    refine ⟨?_, ?_⟩
    · have hfilter : Fragment (r.probe.aliasName ++ ".status = 0").toList
          (joined [failedCondition r.qualifier]) := hreads.failed
      rw [conditionText_eq hfilter,
        condition_joined (by simp) (by simpa using hcondition.atomic), List.forall_mem_singleton,
        part_failed env hq]
    · intro tenant p place hplace
      rw [selects_readings_iff hplace, selects_readings_iff hplace, and_assoc, and_assoc]
      simp

theorem isCalendarDay_start : isCalendarDay 2025 9 10 = true := by decide

/-- A day. -/
def oneDay : Period := ⟨⟨2025, 9, 10, isCalendarDay_start⟩, ⟨2025, 9, 11, by decide⟩, none, by decide⟩

/-- A row of restaurant 7 on that day with no value for the completion and zero for the status. -/
def unfinishedRow : Row := [("is_completed", .null), ("status", .int 0)]

/-- What a database with that row says. -/
def unfinished : Environment where
  column _ name :=
    if name = "restaurant_id" then some 7 else if name = "is_completed" then none
    else if name = "status" then some 0 else some 5
  dayStart day := if day = oneDay.start.isoChars then some 0 else some 9
  other _ := none

/-- The row is an outstanding check and no completed one, and a failed reading. -/
theorem templates_follow_rules_unfinished :
    (Shows unfinished "d" unfinishedRow "is_completed" ∧
      Shows unfinished "d" unfinishedRow "status" ∧
      unfinished.Selects 0 (text .outstandingChecks 7 oneDay false).toList ∧
      ¬ unfinished.Selects 0 (text .completedChecks 7 oneDay false).toList) ∧
    Shows unfinished "c" unfinishedRow "status" ∧ Failed coreReading unfinishedRow ∧
      unfinished.conditionText "c.status = 0" = some true := by
  obtain ⟨hchecks, hreadings⟩ := templates_follow_rules unfinished unfinishedRow
  have hcompleted : Shows unfinished "d" unfinishedRow "is_completed" := rfl
  have hstatus : Shows unfinished "d" unfinishedRow "status" := rfl
  have htenant : OfTenant unfinished "d" 7 := rfl
  have hperiod : InPeriod unfinished "d" "date" oneDay :=
    ⟨5, 0, 9, rfl, rfl, by decide, by decide, by decide⟩
  have hopen : ¬ Completed unfinishedRow := by
    rw [Completed, isCompleted_check_iff hcompleted hstatus]
    decide
  obtain ⟨_, _, hlists⟩ := hchecks hcompleted hstatus
  have hlist := hlists 7 oneDay false
  have houtstanding := hlist.outstanding.mpr ⟨htenant, hperiod, hopen⟩
  have hreading : Shows unfinished "c" unfinishedRow "status" := rfl
  have hfailed : Failed coreReading unfinishedRow := by
    rw [Failed, isFailed_reading_iff (by simp) hreading]
    rfl
  refine ⟨⟨hcompleted, hstatus, houtstanding, ?_⟩, hreading, hfailed, ?_⟩
  · exact fun h => (hlist.exactlyOne htenant hperiod).mp h houtstanding
  · exact (hreadings coreReading (by simp) hreading).1.mpr hfailed

end Template
end QueryGate
