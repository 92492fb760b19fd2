import QueryGate.Proofs.Template.Block
import QueryGate.Template

/-!
# Reading templates

Every template reads as pinned blocks, whatever tenant and period are filled in.  The fixed parts
of its text are read once, the numbers and the days that fill its gaps are fragments of their own.
-/

namespace QueryGate
namespace Template

open Sql Guard Question

/-! ### The tokens of a template -/

/-- A word. -/
def named (s : String) : Token := .word s.toList

/-- A column with its qualifier. -/
def columnOf (qualifier name : String) : List Token := [named qualifier, .dot, named name]

/-- Items with commas between them. -/
def listed : List (List Token) → List Token
  | [] => []
  | [u] => u
  | u :: v :: more => u ++ .comma :: listed (v :: more)

/-- A time column for readers, under a name of its own. -/
def timed (qualifier name shown : String) : List Token :=
  named "FROM_UNIXTIME" :: .lparen :: (columnOf qualifier name ++
    [.rparen, named "AS", named shown])

/-- The number of rows, under a name of its own. -/
def counted (shown : String) : List Token :=
  [named "COUNT", .lparen, .star, .rparen, named "AS", named shown]

/-- The end of every statement. -/
def limited : List Token := [Keyword.limit.token.1, .number ['1', '0', '0', '0']]

/-- An order, the latest or the largest first, and the limit. -/
def ordered (by_ : List Token) : List Token :=
  named "ORDER" :: named "BY" :: (by_ ++ named "DESC" :: limited)

/-- The frame of a block whose first table goes by the given name. -/
def frameOn (owner : String) (items : List (List Token)) (tables ending : List Token) : Frame :=
  { items := listed items, tables, owner := named owner, column := named "restaurant_id", ending }

/-- The table of checks. -/
def checkTable : List Token := [named "daily_check", named "d"]

/-- The table of checks and that of their kinds. -/
def kindTables : List Token :=
  checkTable ++ named "JOIN" :: named "template" :: named "t" :: named "ON" ::
    (columnOf "d" "qid" ++ .operator .eq :: columnOf "t" "id")

/-- A count of checks of a kind. -/
def namedFrame (shown : String) : Frame := frameOn "d" [counted shown] kindTables limited

/-- A count of checks. -/
def countFrame : Frame := frameOn "d" [counted "completed_checks"] checkTable limited

/-- A list of checks. -/
def listFrame : Frame :=
  frameOn "d"
    [columnOf "d" "id", columnOf "d" "note", columnOf "d" "status", columnOf "d" "is_completed",
      timed "d" "date" "check_time"]
    checkTable (ordered (columnOf "d" "id"))

/-- Readings of a table. -/
def readingFrame (table aliasName : String) (reading : List Token) (time : String) : Frame :=
  frameOn aliasName
    [columnOf aliasName "id", reading, columnOf aliasName "status",
      timed aliasName time "recorded_at"]
    [named table, named aliasName] (ordered [named "recorded_at"])

/-- The tokens of the condition that a time column lies in a period. -/
def periodConditions (qualifier name : String) (p : Period) : List (List Token) :=
  [columnOf qualifier name ++ .operator .ge :: timestamp p.start,
    columnOf qualifier name ++ .operator .lt :: timestamp p.stop]

/-- The tokens of the condition that a check was completed. -/
def doneCondition : List Token :=
  .lparen :: (columnOf "d" "is_completed" ++ .operator .eq :: .number ['1'] :: named "OR" ::
    (columnOf "d" "status" ++ [.operator .eq, .number ['1'], .rparen]))

/-- The tokens of the condition that a check has a kind. -/
def kindCondition (kind : String) : List Token :=
  columnOf "t" "name" ++ [named "LIKE", .literal .single ('%' :: kind.toList ++ ['%'])]

/-- The tokens of the condition that a column of checks is not one. -/
def openCondition (name : String) : List Token :=
  named "COALESCE" :: .lparen :: (columnOf "d" name ++
    [.comma, .number ['0'], .rparen, .operator .ltGt, .number ['1']])

/-- The tokens of the condition that a reading failed. -/
def failedCondition (qualifier : String) : List Token :=
  columnOf qualifier "status" ++ [.operator .eq, .number ['0']]

/-- The readings of a table with the frame and the time column that they are read as. -/
structure Reading where
  probe : Probe
  frame : Frame
  qualifier : String
  time : String

/-- Temperatures inside food. -/
def coreReading : Reading :=
  ⟨coreProbe, readingFrame "core_temperature" "c" (columnOf "c" "temperature") "created_at", "c",
    "created_at"⟩

/-- Temperatures of food that is kept hot. -/
def hotHoldReading : Reading :=
  ⟨hotHoldProbe, readingFrame "hot_holding" "h" (columnOf "h" "temperature") "created_at", "h",
    "created_at"⟩

/-- Temperatures of fridges and freezers. -/
def fridgeReading : Reading :=
  ⟨fridgeProbe,
    readingFrame "temperature" "s" (columnOf "s" "temp_calc" ++ [named "AS", named "temperature"])
      "date", "s", "date"⟩

/-- The block of readings. -/
def Reading.block (r : Reading) (p : Period) (failedOnly : Bool) : Block :=
  ⟨r.frame,
    (if failedOnly then [failedCondition r.qualifier] else []) ++
      periodConditions r.qualifier r.time p⟩

/-- The blocks of a template. -/
def blocks (intent : Intent) (p : Period) (failedOnly : Bool) : List Block :=
  match intent with
  | .openingChecks =>
    [⟨namedFrame "completed_opening_checks",
      kindCondition "opening" :: doneCondition :: periodConditions "d" "date" p⟩]
  | .closingChecks =>
    [⟨namedFrame "completed_closing_checks",
      kindCondition "closing" :: doneCondition :: periodConditions "d" "date" p⟩]
  | .outstandingChecks =>
    [⟨listFrame,
      openCondition "is_completed" :: openCondition "status" :: periodConditions "d" "date" p⟩]
  | .weeklyCompletedChecks => [⟨countFrame, doneCondition :: periodConditions "d" "date" p⟩]
  | .hotHoldingReadings => [hotHoldReading.block p failedOnly]
  | .coreTemperatureReadings => [coreReading.block p failedOnly]
  | .fridgeReadings => [fridgeReading.block p failedOnly]
  | .temperatureRollup =>
    [(coreReading.block p failedOnly).cut, (hotHoldReading.block p failedOnly).cut,
      fridgeReading.block p failedOnly]
  | .completedChecks => [⟨listFrame, doneCondition :: periodConditions "d" "date" p⟩]

/-! ### What is fixed in a text -/

section Fixed

theorem fragment_keyword (k : Keyword) (hquiet : isQuiet k.letters = true) :
    Fragment k.letters [k.token.1] := by
  have hreads : tokensFrom 0 k.letters = some [k.token.1] := by cases k <;> decide +kernel
  have hsettled : [k.token.1].map Token.collapsed = [k.token.1] := by cases k <;> decide
  exact ⟨hreads, hsettled, hquiet⟩

theorem fragment_operator (op : Operator) (hquiet : isQuiet op.chars = true) :
    Fragment op.chars [.operator op] := by
  have hreads : tokensFrom 0 op.chars = some [.operator op] := by cases op <;> decide +kernel
  exact ⟨hreads, rfl, hquiet⟩

/-- The condition that pins the tenant column. -/
theorem fragment_ofTenant {aliasName : String} {f : Frame}
    (h : Fragment (aliasName.toList ++ ".restaurant_id".toList) (columnOf aliasName "restaurant_id"))
    (hpin : f.pin [] = columnOf aliasName "restaurant_id" ++ [.operator .eq, .number []])
    (tenant : Nat) :
    Fragment (ofTenant aliasName tenant).toList (joined [f.pin (Nat.toDigits 10 tenant)]) := by
  have hpin : f.pin (Nat.toDigits 10 tenant) = columnOf aliasName "restaurant_id" ++
      [.operator .eq, .number (Nat.toDigits 10 tenant)] := by
    simp only [Frame.pin, columnOf, List.cons_append, List.nil_append, List.cons.injEq,
      and_true] at hpin ⊢
    exact hpin
  have heq := fragment_operator .eq (by decide)
  have hright := heq.append (fragment_nat tenant) (Or.inl rfl)
  have hwhole := h.append hright (Or.inl rfl)
  rw [joined, hpin]
  simpa [ofTenant, String.toList_append, Operator.chars] using hwhole

/-- What stands between two conditions, behind the line break. -/
theorem fragment_andLine : Fragment [' ', ' ', 'A', 'N', 'D'] [Keyword.and.token.1] := by
  have hand := Fragment.nil.append (fragment_keyword .and (by decide)) (Or.inl rfl)
  exact Fragment.nil.append hand (Or.inl rfl)

/-- The condition that a time column lies in a period. -/
theorem fragment_inPeriod {column : String} {qualifier name : String}
    (h : Fragment column.toList (columnOf qualifier name)) (p : Period) :
    Fragment (inPeriod column p).toList (joined (periodConditions qualifier name p)) := by
  have hge := fragment_operator .ge (by decide)
  have hlt := fragment_operator .lt (by decide)
  have hstart := h.append (hge.append (fragment_timestamp p.start) (Or.inl rfl)) (Or.inl rfl)
  have hstop := h.append (hlt.append (fragment_timestamp p.stop) (Or.inl rfl)) (Or.inl rfl)
  have hwhole := hstart.append (fragment_andLine.append hstop (Or.inl rfl)) (Or.inr rfl)
  simpa [inPeriod, timestampChars, timestampName, String.toList_append, Date.iso, joined,
    periodConditions, Operator.chars] using hwhole

/-- A condition in front of others. -/
theorem fragment_and {first second : String} {more : List String} {us vs : List (List Token)}
    (hus : us ≠ []) (hvs : vs ≠ []) (hfirst : Fragment first.toList (joined us))
    (hrest : Fragment ("\n  AND ".intercalate (second :: more)).toList (joined vs)) :
    Fragment ("\n  AND ".intercalate (first :: second :: more)).toList (joined (us ++ vs)) := by
  have hwhole := hfirst.append (fragment_andLine.append hrest (Or.inl rfl)) (Or.inr rfl)
  rw [joined_append hus hvs, String.intercalate_cons_cons]
  simpa [String.toList_append] using hwhole

/-- A block without an ending is read from its parts. -/
theorem fragment_block {b : Block} {digits : List Char} {select conditions : List String}
    {tables : String} (hitems : Fragment (",\n       ".intercalate select).toList b.frame.items)
    (htables : Fragment tables.toList b.frame.tables)
    (hcondition : Fragment ("\n  AND ".intercalate conditions).toList (b.condition digits)) :
    Fragment (block select tables conditions).toList (b.cut.tokens digits) := by
  have hselect := fragment_keyword .select (by decide)
  have hfrom := fragment_keyword .from_ (by decide)
  have hwhere := fragment_keyword .where_ (by decide)
  have hbody := htables.append (hwhere.append hcondition (Or.inl rfl)) (Or.inr rfl)
  have hwhole := hselect.append
    (hitems.append (hfrom.append hbody (Or.inl rfl)) (Or.inr rfl)) (Or.inl rfl)
  have htext : (block select tables conditions).toList =
      Keyword.select.letters ++ ' ' :: ((",\n       ".intercalate select).toList ++ '\n' ::
        (Keyword.from_.letters ++ ' ' :: (tables.toList ++ '\n' :: (Keyword.where_.letters ++ ' ' ::
          ("\n  AND ".intercalate conditions).toList)))) := by
    unfold block
    simp only [String.toList_append]
    simp [Keyword.letters]
  have htokens : b.cut.tokens digits = [Keyword.select.token.1] ++ (b.frame.items ++
      ([Keyword.from_.token.1] ++ (b.frame.tables ++ ([Keyword.where_.token.1] ++
        b.condition digits)))) := by
    simp [Block.tokens, Block.cut, Block.condition, Frame.pin]
  rw [htext, htokens]
  exact hwhole

/-- Joined texts are read from their characters. -/
theorem fragment_intercalate {sep : String} {parts : List String} {ts : List Token}
    (h : Fragment (sep.toList.intercalate (parts.map String.toList)) ts) :
    Fragment (sep.intercalate parts).toList ts := by
  rwa [String.toList_intercalate]

/-- The fixed texts of the templates on checks are read as their tokens. -/
structure ChecksRead : Prop where
  columns : Fragment (",\n       ".intercalate checkColumns).toList listFrame.items
  checks : Fragment "daily_check d".toList checkTable
  kinds : Fragment "daily_check d\nJOIN template t ON d.qid = t.id".toList kindTables
  tenant : Fragment ("d".toList ++ ".restaurant_id".toList) (columnOf "d" "restaurant_id")
  time : Fragment "d.date".toList (columnOf "d" "date")
  done : Fragment checkDone.toList doneCondition
  openCompleted : Fragment "COALESCE(d.is_completed, 0) <> 1".toList (openCondition "is_completed")
  openStatus : Fragment "COALESCE(d.status, 0) <> 1".toList (openCondition "status")
  opening : Fragment ("t.name LIKE '%" ++ "opening" ++ "%'").toList (kindCondition "opening")
  closing : Fragment ("t.name LIKE '%" ++ "closing" ++ "%'").toList (kindCondition "closing")
  countOpening : Fragment ("COUNT(*) AS completed_" ++ "opening" ++ "_checks").toList
    (counted "completed_opening_checks")
  countClosing : Fragment ("COUNT(*) AS completed_" ++ "closing" ++ "_checks").toList
    (counted "completed_closing_checks")
  count : Fragment "COUNT(*) AS completed_checks".toList (counted "completed_checks")

theorem checksRead : ChecksRead := by
  refine ⟨fragment_intercalate ?_, ?_, ?_, ?_, ?_, ?_, ?_, ?_, ?_, ?_, ?_, ?_, ?_⟩
  all_goals decide +kernel

end Fixed

/-! ### Conditions -/

instance (u : List Token) : Decidable (IsCondition u) :=
  decidable_of_iff (Passes isAtomic u ∧ ∀ t ∈ u, isPlain t = true)
    ⟨fun h => ⟨h.1, h.2⟩, fun h => ⟨h.1, h.2⟩⟩

/-- A token without the inside of a literal. -/
def blanked : Token → Token
  | .literal quote _ => .literal quote []
  | t => t

theorem depthThrough?_blanked (depth : Nat) (u : List Token) :
    depthThrough? depth (u.map blanked) = depthThrough? depth u := by
  induction u generalizing depth with
  | nil => rfl
  | cons t u ih =>
    have ht : depthBehind? depth (blanked t) = depthBehind? depth t := by cases t <;> rfl
    simp only [List.map_cons, depthThrough?, ht, ih]

theorem showsOnly_blanked {q : Token → Bool} (hq : ∀ t, q (blanked t) = q t) (depth : Int)
    (u : List Token) : showsOnly q depth (u.map blanked) = showsOnly q depth u := by
  induction u generalizing depth with
  | nil => rfl
  | cons t u ih =>
    have hat : depthAt depth (blanked t) = depthAt depth t := by cases t <;> rfl
    have hafter : depthAfter depth (blanked t) = depthAfter depth t := by cases t <;> rfl
    simp only [List.map_cons, showsOnly, hat, hafter, hq, ih]

/-- What a literal says makes no difference to a condition. -/
theorem isCondition_of_blanked {u : List Token} (h : IsCondition (u.map blanked)) :
    IsCondition u := by
  have hatomic : ∀ t, isAtomic (blanked t) = isAtomic t := by intro t; cases t <;> rfl
  have hplain : ∀ t, isPlain (blanked t) = isPlain t := by intro t; cases t <;> rfl
  refine ⟨⟨?_, ?_⟩, ?_⟩
  · rw [← depthThrough?_blanked]
    exact h.atomic.closed
  · rw [← showsOnly_blanked hatomic]
    exact h.atomic.shows
  · intro t ht
    rw [← hplain]
    exact h.plain _ (List.mem_map_of_mem ht)

/-- The conditions on a period, without the days. -/
def blankPeriod (qualifier name : String) : List (List Token) :=
  [Operator.ge, .lt].map fun op => columnOf qualifier name ++
    [.operator op, .word timestampName, .lparen, .literal .single [], .rparen]

theorem isCondition_period {qualifier name : String}
    (h : ∀ u ∈ blankPeriod qualifier name, IsCondition u) (p : Period) :
    ∀ u ∈ periodConditions qualifier name p, IsCondition u := by
  intro u hu
  refine isCondition_of_blanked (h _ ?_)
  simp only [periodConditions, List.mem_cons, List.not_mem_nil, or_false] at hu
  rcases hu with rfl | rfl <;> simp [blankPeriod, columnOf, named, timestamp, blanked]

/-- The fixed conditions on checks. -/
def checkConditions : List (List Token) :=
  [doneCondition, kindCondition "opening", kindCondition "closing", openCondition "is_completed",
    openCondition "status"]

theorem isCondition_checks :
    (∀ u ∈ checkConditions, IsCondition u) ∧ ∀ u ∈ blankPeriod "d" "date", IsCondition u := by
  decide +kernel

/-! ### Readings -/

namespace Reading

/-- The parts of readings are read as the parts of their block. -/
structure Reads (r : Reading) : Prop where
  items : Fragment
    (",\n       ".intercalate
      [r.probe.aliasName ++ ".id", r.probe.reading, r.probe.aliasName ++ ".status",
        "FROM_UNIXTIME(" ++ r.probe.time ++ ") AS recorded_at"]).toList r.frame.items
  tables : Fragment (r.probe.table ++ " " ++ r.probe.aliasName).toList r.frame.tables
  tenant : Fragment (r.probe.aliasName.toList ++ ".restaurant_id".toList)
    (columnOf r.probe.aliasName "restaurant_id")
  failed : Fragment (r.probe.aliasName ++ ".status = 0").toList (failedCondition r.qualifier)
  time : Fragment r.probe.time.toList (columnOf r.qualifier r.time)
  conditions : ∀ u ∈ failedCondition r.qualifier :: blankPeriod r.qualifier r.time, IsCondition u
  pin : r.frame.pin [] = columnOf r.probe.aliasName "restaurant_id" ++ [.operator .eq, .number []]
  fits : r.frame.Fits

theorem reads_core : coreReading.Reads := by
  refine ⟨fragment_intercalate ?_, ?_, ?_, ?_, ?_, ?_, ?_, ?_⟩
  all_goals decide +kernel

theorem reads_hotHold : hotHoldReading.Reads := by
  refine ⟨fragment_intercalate ?_, ?_, ?_, ?_, ?_, ?_, ?_, ?_⟩
  all_goals decide +kernel

theorem reads_fridge : fridgeReading.Reads := by
  refine ⟨fragment_intercalate ?_, ?_, ?_, ?_, ?_, ?_, ?_, ?_⟩
  all_goals decide +kernel

variable {r : Reading} (hr : r.Reads) (p : Period) (failedOnly : Bool)
include hr

theorem block_fits : (r.block p failedOnly).Fits := by
  refine ⟨hr.fits, ?_⟩
  have hblank : ∀ u ∈ blankPeriod r.qualifier r.time, IsCondition u :=
    fun u hu => hr.conditions u (List.mem_cons_of_mem _ hu)
  have hperiod := isCondition_period hblank p
  intro u hu
  rcases List.mem_append.mp hu with hu | hu
  · cases failedOnly with
    | false => cases hu
    | true =>
      rw [List.mem_singleton.mp hu]
      exact hr.conditions _ (by simp)
  · exact hperiod u hu

/-- Readings are read as their block without its ending. -/
theorem fragment_readings (tenant : Nat) :
    Fragment (readings r.probe tenant p failedOnly).toList
      ((r.block p failedOnly).cut.tokens (Nat.toDigits 10 tenant)) := by
  have htenant := fragment_ofTenant hr.tenant hr.pin tenant
  have hperiod : Fragment ("\n  AND ".intercalate [inPeriod r.probe.time p]).toList
      (joined (periodConditions r.qualifier r.time p)) := by
    rw [String.intercalate_singleton]
    exact fragment_inPeriod hr.time p
  refine fragment_block hr.items hr.tables ?_
  cases failedOnly with
  | false => exact fragment_and (by simp) (by simp [block, periodConditions]) htenant hperiod
  | true =>
    have hfailed : Fragment _ (joined [failedCondition r.qualifier]) := hr.failed
    have hrest := fragment_and (by simp) (by simp [periodConditions]) hfailed hperiod
    exact fragment_and (by simp) (by simp [block]) htenant hrest

end Reading

/-! ### Checks -/

/-- A block on checks is read from its tenant and the conditions behind. -/
theorem fragment_checks {f : Frame} (hpin : f.pin [] = columnOf "d" "restaurant_id" ++
    [.operator .eq, .number []]) {select : List String} {tables : String}
    (hitems : Fragment (",\n       ".intercalate select).toList f.items)
    (htables : Fragment tables.toList f.tables) {first : String} {more : List String}
    {us : List (List Token)} (hus : us ≠ [])
    (hconditions : Fragment ("\n  AND ".intercalate (first :: more)).toList (joined us))
    (tenant : Nat) :
    Fragment (block select tables (ofTenant "d" tenant :: first :: more)).toList
      ((⟨f, us⟩ : Block).cut.tokens (Nat.toDigits 10 tenant)) := by
  have htenant := fragment_ofTenant checksRead.tenant hpin tenant
  exact fragment_block hitems htables (fragment_and (by simp) hus htenant hconditions)

/-- The condition that checks lie in a period, behind others. -/
theorem fragment_checkPeriod (p : Period) :
    Fragment ("\n  AND ".intercalate [inPeriod "d.date" p]).toList
      (joined (periodConditions "d" "date" p)) := by
  rw [String.intercalate_singleton]
  exact fragment_inPeriod checksRead.time p

theorem fragment_donePeriod (p : Period) :
    Fragment ("\n  AND ".intercalate [checkDone, inPeriod "d.date" p]).toList
      (joined (doneCondition :: periodConditions "d" "date" p)) := by
  have hdone : Fragment checkDone.toList (joined [doneCondition]) := checksRead.done
  exact fragment_and (by simp) (by simp) hdone (fragment_checkPeriod p)

theorem fragment_namedChecks (kind : String) (tenant : Nat) (p : Period)
    (hkind : Fragment ("t.name LIKE '%" ++ kind ++ "%'").toList (kindCondition kind))
    {shown : String} (hshown : Fragment ("COUNT(*) AS completed_" ++ kind ++ "_checks").toList
      (counted shown)) :
    Fragment (namedChecks kind tenant p).toList
      ((⟨namedFrame shown, kindCondition kind :: doneCondition ::
        periodConditions "d" "date" p⟩ : Block).cut.tokens (Nat.toDigits 10 tenant)) := by
  have hitems : Fragment (",\n       ".intercalate
      ["COUNT(*) AS completed_" ++ kind ++ "_checks"]).toList (namedFrame shown).items := by
    rw [String.intercalate_singleton]
    exact hshown
  have hkind : Fragment _ (joined [kindCondition kind]) := hkind
  have hconditions := fragment_and (by simp) (by simp) hkind (fragment_donePeriod p)
  exact fragment_checks rfl hitems checksRead.kinds (by simp) hconditions tenant

theorem fragment_outstandingChecks (tenant : Nat) (p : Period) :
    Fragment (block checkColumns "daily_check d"
        [ofTenant "d" tenant, "COALESCE(d.is_completed, 0) <> 1", "COALESCE(d.status, 0) <> 1",
          inPeriod "d.date" p]).toList
      ((⟨listFrame, openCondition "is_completed" :: openCondition "status" ::
        periodConditions "d" "date" p⟩ : Block).cut.tokens (Nat.toDigits 10 tenant)) := by
  have hcompleted : Fragment _ (joined [openCondition "is_completed"]) := checksRead.openCompleted
  have hstatus : Fragment _ (joined [openCondition "status"]) := checksRead.openStatus
  have hrest := fragment_and (by simp) (by simp [periodConditions]) hstatus (fragment_checkPeriod p)
  have hconditions := fragment_and (by simp) (by simp) hcompleted hrest
  exact fragment_checks rfl checksRead.columns checksRead.checks (by simp) hconditions
    tenant

theorem fragment_completedCheckCount (tenant : Nat) (p : Period) :
    Fragment (completedCheckCount tenant p).toList
      ((⟨countFrame, doneCondition :: periodConditions "d" "date" p⟩ : Block).cut.tokens
        (Nat.toDigits 10 tenant)) := by
  have hitems : Fragment (",\n       ".intercalate ["COUNT(*) AS completed_checks"]).toList
      countFrame.items := by
    rw [String.intercalate_singleton]
    exact checksRead.count
  exact fragment_checks rfl hitems checksRead.checks (by simp) (fragment_donePeriod p) tenant

theorem fragment_completedChecks (tenant : Nat) (p : Period) :
    Fragment (block checkColumns "daily_check d"
        [ofTenant "d" tenant, checkDone, inPeriod "d.date" p]).toList
      ((⟨listFrame, doneCondition :: periodConditions "d" "date" p⟩ : Block).cut.tokens
        (Nat.toDigits 10 tenant)) :=
  fragment_checks rfl checksRead.columns checksRead.checks (by simp)
    (fragment_donePeriod p) tenant

/-! ### Whole templates -/

/-- The limit behind a text. -/
theorem fragment_limited {body : String} {ts : List Token} (h : Fragment body.toList ts) :
    Fragment (body ++ "\nLIMIT " ++ toString rowLimit).toList (ts ++ limited) := by
  have hnumber : Fragment ['1', '0', '0', '0'] [.number ['1', '0', '0', '0']] :=
    fragment_digits (by simp [Text.isAsciiDigit]) (by simp)
  have hrows : (toString rowLimit).toList = ['1', '0', '0', '0'] := by decide
  have hlimit := (fragment_keyword .limit (by decide)).append hnumber (Or.inl rfl)
  have hwhole := h.append hlimit (Or.inr rfl)
  rw [String.toList_append, hrows]
  simpa [String.toList_append, Keyword.letters, limited] using hwhole

/-- The orders behind a text. -/
theorem fragment_ordered {body : String} {ts : List Token} (h : Fragment body.toList ts) :
    Fragment (body ++ "\nORDER BY d.id DESC").toList
        (ts ++ named "ORDER" :: named "BY" :: (columnOf "d" "id" ++ [named "DESC"])) ∧
      Fragment (body ++ latestFirst).toList
        (ts ++ [named "ORDER", named "BY", named "recorded_at", named "DESC"]) := by
  have hid : Fragment
      ['O', 'R', 'D', 'E', 'R', ' ', 'B', 'Y', ' ', 'd', '.', 'i', 'd', ' ', 'D', 'E', 'S', 'C']
      (named "ORDER" :: named "BY" :: (columnOf "d" "id" ++ [named "DESC"])) := by
    decide +kernel
  have hlatest : Fragment
      ['O', 'R', 'D', 'E', 'R', ' ', 'B', 'Y', ' ', 'r', 'e', 'c', 'o', 'r', 'd', 'e', 'd', '_',
        'a', 't', ' ', 'D', 'E', 'S', 'C']
      [named "ORDER", named "BY", named "recorded_at", named "DESC"] := by
    decide +kernel
  have h1 := h.append hid (Or.inr rfl)
  have h2 := h.append hlatest (Or.inr rfl)
  exact ⟨by simpa [String.toList_append] using h1,
    by simpa [String.toList_append, latestFirst] using h2⟩

/-- The readings of all tables are read as their blocks. -/
theorem fragment_allReadings (tenant : Nat) (p : Period) (failedOnly : Bool) :
    Fragment (allReadings tenant p failedOnly).toList
      (united
        [(coreReading.block p failedOnly).cut.tokens (Nat.toDigits 10 tenant),
          (hotHoldReading.block p failedOnly).cut.tokens (Nat.toDigits 10 tenant),
          (fridgeReading.block p failedOnly).cut.tokens (Nat.toDigits 10 tenant)]) := by
  have hunion := (fragment_keyword .union (by decide)).append (fragment_keyword .all (by decide))
    (Or.inl rfl)
  have hcore := Reading.fragment_readings Reading.reads_core p failedOnly tenant
  have hhot := Reading.fragment_readings Reading.reads_hotHold p failedOnly tenant
  have hfridge := Reading.fragment_readings Reading.reads_fridge p failedOnly tenant
  have hrest := hhot.append (hunion.append hfridge (Or.inr rfl)) (Or.inr rfl)
  have hwhole := hcore.append (hunion.append hrest (Or.inr rfl)) (Or.inr rfl)
  simpa [allReadings, String.intercalate_cons_cons, String.toList_append, united, coreReading,
    hotHoldReading, fridgeReading, Keyword.letters] using hwhole

end Template
end QueryGate
