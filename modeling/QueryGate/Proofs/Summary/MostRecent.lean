import QueryGate.Proofs.Calendar.ClockOrder
import QueryGate.Proofs.Summary.Tally

/-!
# The most recent time

The plain summary tells the last time of a column in the order of the texts.  Written clock readings
are in that order.  Numbers are not: a number stands behind a longer one when it is more than what
the first digits of the longer one write.
-/

namespace QueryGate

namespace Text

/-! ### The order of numerals -/

theorem digitsValue_append (ds es : List Char) :
    digitsValue (ds ++ es) = digitsValue ds * 10 ^ es.length + digitsValue es := by
  induction ds with
  | nil => simp [digitsValue]
  | cons d ds ih =>
    rw [List.cons_append, digitsValue_cons, digitsValue_cons, ih, List.length_append, Nat.pow_add]
    ring

/-- The number that the first digits of a number write. -/
def leading (digits n : Nat) : Nat := n / 10 ^ ((Nat.toDigits 10 n).length - digits)

theorem length_toDigits_mono {m n : Nat} (h : m ≤ n) :
    (Nat.toDigits 10 m).length ≤ (Nat.toDigits 10 n).length := by
  have hpos : 1 ≤ (Nat.toDigits 10 n).length := List.length_pos_iff.mpr Nat.toDigits_ne_nil
  rw [Nat.length_toDigits_le_iff (by decide) hpos]
  exact Nat.lt_of_le_of_lt h ((Nat.length_toDigits_le_iff (by decide) hpos).mp (Nat.le_refl _))

theorem leading_eq (digits n : Nat) :
    leading digits n = digitsValue ((Nat.toDigits 10 n).take digits) := by
  have hsplit := digitsValue_append ((Nat.toDigits 10 n).take digits)
    ((Nat.toDigits 10 n).drop digits)
  rw [List.take_append_drop, digitsValue_toDigits, List.length_drop] at hsplit
  have hrest : digitsValue ((Nat.toDigits 10 n).drop digits) <
      10 ^ ((Nat.toDigits 10 n).length - digits) := by
    rw [← List.length_drop]
    apply digitsValue_lt
    intro c hc
    exact isAsciiDigit_of_mem_toDigits (List.mem_of_mem_drop hc)
  unfold leading
  apply Nat.div_eq_of_lt_le
  · omega
  · rw [Nat.succ_mul]
    omega

/-- A number stands in front of a larger one just when it is at most what as many digits of the
larger one write. -/
theorem toString_le_iff {m n : Nat} (h : m ≤ n) :
    toString m ≤ toString n ↔ m ≤ leading (Nat.toDigits 10 m).length n := by
  have hlength : ((Nat.toDigits 10 n).take (Nat.toDigits 10 m).length).length =
      (Nat.toDigits 10 m).length := by
    rw [List.length_take]
    exact Nat.min_eq_left (length_toDigits_mono h)
  have hlt := append_lt_append_iff hlength ((Nat.toDigits 10 n).drop (Nat.toDigits 10 m).length) []
  rw [List.take_append_drop, List.append_nil] at hlt
  have hfront : ∀ c ∈ (Nat.toDigits 10 n).take (Nat.toDigits 10 m).length,
      isAsciiDigit c = true := by
    intro c hc
    exact isAsciiDigit_of_mem_toDigits (List.mem_of_mem_take hc)
  have hwhole : ∀ c ∈ Nat.toDigits 10 m, isAsciiDigit c = true := fun c =>
    isAsciiDigit_of_mem_toDigits
  rw [← String.not_lt, String.lt_iff, toList_toString, toList_toString, hlt,
    digits_lt_iff hfront hwhole hlength, digitsValue_toDigits, ← leading_eq]
  simp

end Text

namespace Summary

open Text
open Completion (cell)

/-! ### The time column -/

/-- Some row has a value in a column. -/
def Carries (rows : List Row) (column : String) : Prop := ∃ row ∈ rows, cell row column ≠ .null

/-- The first column for times in which some row has a value. -/
def IsTimeColumn (rows : List Row) (column : String) : Prop :=
  ∃ before after, timeColumns = before ++ column :: after ∧ Carries rows column ∧
    ∀ other ∈ before, ¬ Carries rows other

theorem mem_columnTexts {rows : List Row} {column t : String} :
    t ∈ columnTexts rows column ↔
      ∃ row ∈ rows, cell row column ≠ .null ∧ (cell row column).shown = t := by
  unfold columnTexts
  rw [List.mem_filterMap]
  apply exists_congr
  intro row
  apply and_congr_right
  intro _
  split
  · rename_i hnull
    simp [hnull]
  · rename_i hvalue
    exact ⟨fun h => ⟨hvalue, Option.some.inj h⟩, fun h => congrArg some h.2⟩

theorem columnTexts_eq_nil {rows : List Row} {column : String} (h : ¬ Carries rows column) :
    columnTexts rows column = [] := by
  rw [List.eq_nil_iff_forall_not_mem]
  intro t ht
  obtain ⟨row, hrow, hvalue, _⟩ := mem_columnTexts.mp ht
  exact h ⟨row, hrow, hvalue⟩

/-- The time that is told is the last text of the time column. -/
theorem exists_latestTime? {rows : List Row} {column : String} (h : IsTimeColumn rows column) :
    ∃ row ∈ rows, cell row column ≠ .null ∧
      latestTime? rows = some (cell row column).shown ∧
      ∀ other ∈ rows, cell other column ≠ .null →
        (cell other column).shown ≤ (cell row column).shown := by
  obtain ⟨before, after, htimes, ⟨first, hfirst, hvalue⟩, hbefore⟩ := h
  obtain ⟨t, ht⟩ : ∃ t, lastText? (columnTexts rows column) = some t := by
    rw [lastText?_eq_max?]
    apply Option.isSome_iff_exists.mp
    rw [List.isSome_max?_iff]
    exact List.ne_nil_of_mem (mem_columnTexts.mpr ⟨first, hfirst, hvalue, rfl⟩)
  have hlatest : latestTime? rows = some t := by
    have hskip : before.findSome? (fun column => lastText? (columnTexts rows column)) = none := by
      rw [List.findSome?_eq_none_iff]
      intro other hother
      rw [columnTexts_eq_nil (hbefore other hother)]
      rfl
    rw [latestTime?, htimes, List.findSome?_append, hskip, Option.none_or, List.findSome?_cons, ht]
  obtain ⟨hmem, hlast⟩ := lastText?_eq_some_iff.mp ht
  obtain ⟨row, hrow, hvalue', rfl⟩ := mem_columnTexts.mp hmem
  refine ⟨row, hrow, hvalue', hlatest, ?_⟩
  intro other hother hvalue''
  exact hlast _ (mem_columnTexts.mpr ⟨other, hother, hvalue'', rfl⟩)

/-- The answer with a given time in it. -/
def answerWith (sql : String) (rows : List Row) (tenant : Int) (period : Option Period)
    (latest : String) : String :=
  " ".intercalate (foundText (Guard.tablesOf sql.toList) rows.length tenant (periodPhrase period) ::
    ((tallyText? Policy.shipped.completionRules (primary sql) rows).toList
      ++ ["Most recent: " ++ latest ++ "."]))

theorem plain_eq_answerWith {rows : List Row} {latest : String} (hnumber : onlyNumber? rows = none)
    (hrows : rows ≠ []) (hlatest : latestTime? rows = some latest) (hempty : latest ≠ "")
    (sql : String) (tenant : Int) (period : Option Period) :
    plain sql rows tenant period = answerWith sql rows tenant period latest := by
  have htext : latestText? rows = some ("Most recent: " ++ latest ++ ".") := by
    simp [latestText?, hlatest, hempty]
  have hsome : rows.isEmpty = false := List.isEmpty_eq_false_iff.mpr hrows
  simp only [plain, hsome, hnumber, tallyAnswer, htext, answerWith, Bool.false_eq_true, if_false]
  rfl

/-! ### The latest time -/

/-- Some row has the number in a column. -/
def Holds (rows : List Row) (column : String) (n : Nat) : Prop :=
  ∃ row ∈ rows, cell row column = .int n

/-- Some row has the reading in a column, written with the given characters. -/
def Shows (between mark : Char) (rows : List Row) (column : String) (r : ClockReading) : Prop :=
  ∃ row ∈ rows, cell row column ≠ .null ∧ (cell row column).shown = r.text between mark

theorem shown_natCast (n : Nat) : (Value.int n).shown = toString n := rfl

/-- A point in time whose distance from universal time is not given shows as a reading. -/
theorem shown_moment {m : Moment} (hoffset : m.offset = none) (hmicros : m.micros < 86400000000) :
    ∃ r : ClockReading, (Value.moment m).shown = r.text ' ' '.' := by
  obtain ⟨r, hchars, _⟩ := Moment.exists_reading hoffset hmicros
  have hshown : (Value.moment m).shown = String.ofList (m.chars ' ') := rfl
  refine ⟨r, ?_⟩
  rw [hshown, hchars, ClockReading.text]

theorem toString_ne_empty (n : Nat) : toString n ≠ "" := by
  intro h
  have hchars := congrArg String.toList h
  rw [toList_toString] at hchars
  exact Nat.toDigits_ne_nil hchars

theorem text_ne_empty (between mark : Char) (r : ClockReading) : r.text between mark ≠ "" := by
  intro h
  have hchars := congrArg String.toList h
  rw [ClockReading.text, String.toList_ofList, ClockReading.chars] at hchars
  have hmem : between ∈ ([] : List Char) := by
    rw [← show "".toList = [] from rfl, ← hchars]
    simp
  cases hmem

section Column

variable {rows : List Row} {column : String}

/-- The last of several texts of numbers is of the largest one just when each of the numbers is at
most what as many digits of the largest one write. -/
theorem eq_largest_iff {last largest : Nat} (hlast : Holds rows column last)
    (hlatest : ∀ n, Holds rows column n → toString n ≤ toString last)
    (hlargest : Holds rows column largest) (hmax : ∀ n, Holds rows column n → n ≤ largest) :
    last = largest ↔
      ∀ n, Holds rows column n → n ≤ leading (Nat.toDigits 10 n).length largest := by
  constructor
  · rintro rfl n hn
    exact (toString_le_iff (hmax n hn)).mp (hlatest n hn)
  · intro h
    have hle := (toString_le_iff (hmax last hlast)).mpr (h last hlast)
    have hsame : toString last = toString largest :=
      String.le_antisymm hle (hlatest largest hlargest)
    have hdigits := congrArg String.toList hsame
    rw [toList_toString, toList_toString] at hdigits
    rw [← digitsValue_toDigits last, hdigits, digitsValue_toDigits]

variable (hcolumn : IsTimeColumn rows column)
include hcolumn

theorem exists_last_number
    (hnumbers : ∀ row ∈ rows, cell row column = .null ∨ ∃ n : ℕ, cell row column = .int n) :
    ∃ last, latestTime? rows = some (toString last) ∧ Holds rows column last ∧
      ∀ n, Holds rows column n → toString n ≤ toString last := by
  obtain ⟨row, hrow, hvalue, hlatest, hlast⟩ := exists_latestTime? hcolumn
  obtain ⟨last, hcell⟩ := (hnumbers row hrow).resolve_left hvalue
  rw [hcell, shown_natCast] at hlatest hlast
  refine ⟨last, hlatest, ⟨row, hrow, hcell⟩, ?_⟩
  rintro n ⟨other, hother, hn⟩
  rw [← shown_natCast n, ← hn]
  apply hlast other hother
  rw [hn]
  nofun

theorem exists_last_reading {between mark : Char}
    (hreadings : ∀ row ∈ rows, cell row column = .null ∨
      ∃ r : ClockReading, (cell row column).shown = r.text between mark) :
    ∃ last : ClockReading, latestTime? rows = some (last.text between mark) ∧
      Shows between mark rows column last ∧
      ∀ r, Shows between mark rows column r → r.instant ≤ last.instant := by
  obtain ⟨row, hrow, hvalue, hlatest, hlast⟩ := exists_latestTime? hcolumn
  obtain ⟨last, hshown⟩ := (hreadings row hrow).resolve_left hvalue
  rw [hshown] at hlatest hlast
  refine ⟨last, hlatest, ⟨row, hrow, hvalue, hshown⟩, ?_⟩
  rintro r ⟨other, hother, hvalue', hr⟩
  have hle := hlast other hother hvalue'
  rw [hr] at hle
  exact ClockReading.instant_le_of_text_le hle

/-- The time in the answer to a question whose result is more than one number.  Of numbers of a
column it is the largest one just when none of them is more than what as many digits of the largest
one write; of clock readings that are written with the same characters it is the latest one. -/
theorem plain_tells_latest (hnumber : onlyNumber? rows = none) (sql : String) (tenant : Int)
    (period : Option Period) :
    ((∀ row ∈ rows, cell row column = .null ∨ ∃ n : ℕ, cell row column = .int n) →
      ∃ last, plain sql rows tenant period =
          answerWith sql rows tenant period (toString last) ∧ Holds rows column last ∧
        ∀ largest, Holds rows column largest → (∀ n, Holds rows column n → n ≤ largest) →
          (last = largest ↔
            ∀ n, Holds rows column n → n ≤ leading (Nat.toDigits 10 n).length largest)) ∧
    ∀ between mark : Char,
      (∀ row ∈ rows, cell row column = .null ∨
        ∃ r : ClockReading, (cell row column).shown = r.text between mark) →
      ∃ last : ClockReading, plain sql rows tenant period =
          answerWith sql rows tenant period (last.text between mark) ∧
        Shows between mark rows column last ∧
        ∀ r, Shows between mark rows column r → r.instant ≤ last.instant := by
  have hrows : rows ≠ [] := by
    obtain ⟨_, _, _, ⟨row, hrow, _⟩, _⟩ := hcolumn
    exact List.ne_nil_of_mem hrow
  constructor
  · intro hnumbers
    obtain ⟨last, hlatest, hlast, hle⟩ := exists_last_number hcolumn hnumbers
    refine ⟨last, ?_, hlast, fun largest => eq_largest_iff hlast hle⟩
    exact plain_eq_answerWith hnumber hrows hlatest (toString_ne_empty last) sql tenant period
  · intro between mark hreadings
    obtain ⟨last, hlatest, hlast, hle⟩ := exists_last_reading hcolumn hreadings
    refine ⟨last, ?_, hlast, hle⟩
    exact plain_eq_answerWith hnumber hrows hlatest (text_ne_empty between mark last) sql tenant
      period

end Column

/-- Rows with the given values in the last one of the columns for times. -/
def createdAt (values : List Value) : List Row :=
  values.map fun v => [("dish_id", .int 3), ("created_at", v)]

theorem forall_createdAt {values : List Value} {P : Value → Prop} :
    (∀ row ∈ createdAt values, P (cell row "created_at")) ↔ ∀ v ∈ values, P v :=
  List.forall_mem_map

theorem holds_createdAt {values : List Value} {n : Nat} :
    Holds (createdAt values) "created_at" n ↔ .int n ∈ values := by
  constructor
  · rintro ⟨row, hrow, hn⟩
    obtain ⟨v, hv, rfl⟩ := List.mem_map.mp hrow
    obtain rfl : v = .int n := hn
    exact hv
  · intro hn
    exact ⟨_, List.mem_map_of_mem hn, rfl⟩

theorem isTimeColumn_createdAt {values : List Value} (h : ∃ v ∈ values, v ≠ .null) :
    IsTimeColumn (createdAt values) "created_at" := by
  refine ⟨["check_time", "recorded_at", "created_time", "start_time", "end_time"], [], rfl, ?_, ?_⟩
  · obtain ⟨v, hv, hvalue⟩ := h
    exact ⟨_, List.mem_map_of_mem hv, hvalue⟩
  · rintro other hother ⟨row, hrow, hvalue⟩
    obtain ⟨v, _, rfl⟩ := List.mem_map.mp hrow
    apply hvalue
    revert other
    simp [cell, List.lookup_cons]

theorem onlyNumber?_createdAt (values : List Value) : onlyNumber? (createdAt values) = none := by
  unfold onlyNumber? createdAt
  split
  · rename_i h
    match values with
    | [] => cases h
    | [v] => cases h
    | v :: w :: rest => cases h
  · rfl

/-- A statement that reads times. -/
def timesSql : String :=
  "SELECT dish_id, created_at FROM hot_holding WHERE restaurant_id = 74 LIMIT 10"

/-- A second after nine o'clock, and some microseconds more. -/
def afterNine (micros : Nat) : Value :=
  .moment ⟨⟨2026, 1, 5, by decide⟩, 32401000000 + micros, none⟩

/-- The larger of two numbers is told although the smaller one has less digits, and so is one of two
readings though only the later one has a fraction. -/
theorem plain_tells_latest_hotHolding :
    plain timesSql (createdAt [.int 17, .null, .int 180]) 74 none =
        answerWith timesSql (createdAt [.int 17, .null, .int 180]) 74 none (toString 180) ∧
      ∃ last : ClockReading, plain timesSql (createdAt [afterNine 500000, .null, afterNine 0]) 74 none =
          answerWith timesSql (createdAt [afterNine 500000, .null, afterNine 0]) 74 none
            (last.text ' ' '.') ∧
        ∀ r, Shows ' ' '.' (createdAt [afterNine 500000, .null, afterNine 0]) "created_at" r →
          r.instant ≤ last.instant := by
  have hnumbers : IsTimeColumn (createdAt [.int 17, .null, .int 180]) "created_at" :=
    isTimeColumn_createdAt ⟨.int 17, by simp, nofun⟩
  have hreadings : IsTimeColumn (createdAt [afterNine 500000, .null, afterNine 0]) "created_at" :=
    isTimeColumn_createdAt ⟨afterNine 0, by simp, nofun⟩
  have hints : ∀ v ∈ [Value.int 17, .null, .int 180], v = .null ∨ ∃ n : ℕ, v = .int n := by
    refine List.forall_mem_cons.mpr ⟨Or.inr ⟨17, rfl⟩, ?_⟩
    exact List.forall_mem_cons.mpr ⟨Or.inl rfl, List.forall_mem_singleton.mpr (Or.inr ⟨180, rfl⟩)⟩
  have hclocks : ∀ v ∈ [afterNine 500000, .null, afterNine 0],
      v = .null ∨ ∃ r : ClockReading, v.shown = r.text ' ' '.' := by
    refine List.forall_mem_cons.mpr ⟨Or.inr (shown_moment rfl (by decide)), ?_⟩
    exact List.forall_mem_cons.mpr ⟨Or.inl rfl,
      List.forall_mem_singleton.mpr (Or.inr (shown_moment rfl (by decide)))⟩
  have hholds : ∀ n, Holds (createdAt [.int 17, .null, .int 180]) "created_at" n →
      n = 17 ∨ n = 180 := by
    intro n hn
    have hmem := holds_createdAt.mp hn
    simp only [List.mem_cons, List.not_mem_nil, or_false, Value.int.injEq, reduceCtorEq,
      false_or] at hmem
    omega
  constructor
  · obtain ⟨last, hplain, _, hlast⟩ := (plain_tells_latest hnumbers (onlyNumber?_createdAt _)
      timesSql 74 none).1 (forall_createdAt.mpr hints)
    have hsame : last = 180 := by
      apply (hlast 180 (holds_createdAt.mpr (by simp)) ?_).mpr
      · intro n hn
        rcases hholds n hn with rfl | rfl <;> decide
      · intro n hn
        rcases hholds n hn with rfl | rfl <;> decide
    rw [hplain, hsame]
  · obtain ⟨last, hplain, _, hlast⟩ := (plain_tells_latest hreadings (onlyNumber?_createdAt _)
      timesSql 74 none).2 ' ' '.' (forall_createdAt.mpr hclocks)
    exact ⟨last, hplain, hlast⟩

/-- The last time that nine digits can write is told although there is a later one. -/
theorem plain_tells_earlier :
    IsTimeColumn (createdAt [.int 999999999, .int 1000000000]) "created_at" ∧
      onlyNumber? (createdAt [.int 999999999, .int 1000000000]) = none ∧
      Holds (createdAt [.int 999999999, .int 1000000000]) "created_at" 1000000000 ∧
      plain timesSql (createdAt [.int 999999999, .int 1000000000]) 74 none =
        "Found 2 rows from hot_holding for restaurant 74. Most recent: 999999999." := by
  refine ⟨isTimeColumn_createdAt ⟨.int 999999999, by simp, nofun⟩, onlyNumber?_createdAt _,
    holds_createdAt.mpr (by simp), ?_⟩
  decide +kernel

end Summary
end QueryGate
