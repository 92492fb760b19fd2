import QueryGate.Calendar.Date
import Mathlib.Algebra.Ring.Nat

/-!
# Counting days

The count of days and the day with a count undo each other, so the calendar is the counts from 1 to
`lastOrdinal`.  Days are in the order of their years, months and days of the month, and a day so
many days later is there exactly if its count is one of the calendar.
-/

namespace QueryGate
namespace Date

/-- The number of days of a year. -/
def yearLength (year : Nat) : Nat := if isLeapYear year then 366 else 365

/-- The count of the last day of the calendar, 31 December of year 9999. -/
def lastOrdinal : Nat := 3652059

/-! ### Years -/

theorem isLeapYear_iff (year : Nat) :
    isLeapYear year = true ↔ 4 ∣ year ∧ (¬100 ∣ year ∨ 400 ∣ year) := by
  simp [isLeapYear, Nat.dvd_iff_mod_eq_zero]

theorem daysBeforeYear_succ (y : Nat) :
    daysBeforeYear (y + 2) = daysBeforeYear (y + 1) + yearLength (y + 1) := by
  have h4 : (y + 1) / 4 = y / 4 + if 4 ∣ y + 1 then 1 else 0 := Nat.succ_div
  have h100 : (y + 1) / 100 = y / 100 + if 100 ∣ y + 1 then 1 else 0 := Nat.succ_div
  have h400 : (y + 1) / 400 = y / 400 + if 400 ∣ y + 1 then 1 else 0 := Nat.succ_div
  have hle : y / 100 ≤ y / 4 := by omega
  simp only [daysBeforeYear, yearLength, isLeapYear_iff, Nat.add_sub_cancel,
    show y + 2 - 1 = y + 1 from rfl]
  by_cases d4 : 4 ∣ y + 1 <;> by_cases d100 : 100 ∣ y + 1 <;> by_cases d400 : 400 ∣ y + 1 <;>
    simp only [d4, d100, d400, if_true, if_false, and_true, and_false, or_true, or_false,
      not_true_eq_false, not_false_eq_true] at h4 h100 h400 ⊢ <;>
    omega

/-- The days before a year, by the cycles of 400, 100 and 4 years and the years before it. -/
theorem daysBeforeYear_cycles {c h l k : Nat} (hh : h ≤ 3) (hl : l ≤ 24) (hk : k ≤ 3) :
    daysBeforeYear (400 * c + 100 * h + 4 * l + k + 1) =
      146097 * c + 36524 * h + 1461 * l + 365 * k := by
  have h4 : (400 * c + 100 * h + 4 * l + k) / 4 = 100 * c + 25 * h + l := by omega
  have h100 : (400 * c + 100 * h + 4 * l + k) / 100 = 4 * c + h := by omega
  have h400 : (400 * c + 100 * h + 4 * l + k) / 400 = c := by omega
  simp only [daysBeforeYear, Nat.add_sub_cancel, h4, h100, h400]
  omega

/-- The last year of a cycle of four has a day more, unless it ends a century that ends no cycle. -/
theorem yearLength_cycles {c h l k : Nat} (hh : h ≤ 3) (hl : l ≤ 24) (hk : k ≤ 3) :
    yearLength (400 * c + 100 * h + 4 * l + k + 1) =
      if k = 3 ∧ (l = 24 → h = 3) then 366 else 365 := by
  unfold yearLength
  congr 1
  rw [isLeapYear_iff, eq_iff_iff]
  omega

theorem daysBeforeYear_lt {a b : Nat} (h : a < b) (ha : 1 ≤ a) :
    daysBeforeYear a + yearLength a ≤ daysBeforeYear b := by
  obtain ⟨y, rfl⟩ : ∃ y, a = y + 1 := ⟨a - 1, by omega⟩
  rw [← daysBeforeYear_succ]
  induction h with
  | refl => exact Nat.le_refl _
  | @step b hb ih =>
    have hb : y + 1 + 1 ≤ b := hb
    obtain ⟨x, rfl⟩ : ∃ x, b = x + 1 := ⟨b - 1, by omega⟩
    rw [Nat.succ_eq_add_one, daysBeforeYear_succ x]
    omega

/-- The year of a count is that of its day: the days before the year and the days of the year before
the day make up the count. -/
theorem splitYear_spec {count : Nat} (h : 1 ≤ count) :
    1 ≤ (splitYear count).1 ∧ (splitYear count).2 < yearLength (splitYear count).1 ∧
      daysBeforeYear (splitYear count).1 + (splitYear count).2 + 1 = count := by
  have hc : (count - 1) % 146097 < 146097 := Nat.mod_lt _ (by decide)
  have hsum := Nat.div_add_mod (count - 1) 146097
  simp only [splitYear]
  generalize (count - 1) / 146097 = c at hsum ⊢
  generalize (count - 1) % 146097 = r at hsum hc ⊢
  generalize hh : min 3 (r / 36524) = h'
  generalize hs : r - h' * 36524 = s
  have hl : s / 1461 ≤ 24 := by omega
  have hs' := Nat.div_add_mod s 1461
  have hq : s % 1461 < 1461 := Nat.mod_lt _ (by decide)
  generalize s / 1461 = l at hl hs' ⊢
  generalize s % 1461 = q at hs' hq ⊢
  generalize hk : min 3 (q / 365) = k
  rw [daysBeforeYear_cycles (by omega) hl (by omega), yearLength_cycles (by omega) hl (by omega)]
  refine ⟨by omega, ?_, by omega⟩
  split <;> omega

/-! ### Months -/

theorem sum_monthLengths (year : Nat) : (monthLengths year).sum = yearLength year := by
  simp only [monthLengths, yearLength, List.sum_cons, List.sum_nil]
  split <;> rfl

theorem daysBeforeMonth_eq (year month : Nat) :
    daysBeforeMonth year month = ((monthLengths year).take (month - 1)).sum :=
  List.sum_eq_foldl.symm

theorem monthLength_succ (year i : Nat) :
    monthLength year (i + 1) = ((monthLengths year)[i]?).getD 0 := rfl

theorem monthLength_le (year month : Nat) : monthLength year month ≤ 31 := by
  have hlengths : ∀ leap : Bool, ∀ l ∈ [31, if leap then 29 else 28, 31, 30, 31, 30, 31, 31, 30, 31,
      30, 31], l ≤ 31 := by decide
  unfold monthLength
  split
  · omega
  · cases hl : (monthLengths year)[month - 1]? with
    | none => simp
    | some l => exact hlengths _ l (List.mem_of_getElem? hl)

theorem monthLength_of_lt {year month : Nat} (h : 12 < month) : monthLength year month = 0 := by
  have hnone : (monthLengths year)[month - 1]? = none :=
    List.getElem?_eq_none (Nat.le_sub_one_of_lt h)
  rw [monthLength, if_neg (by omega), hnone]
  rfl

theorem daysBeforeMonth_succ (year i : Nat) :
    daysBeforeMonth year (i + 2) = daysBeforeMonth year (i + 1) + monthLength year (i + 1) := by
  rw [daysBeforeMonth_eq, daysBeforeMonth_eq, monthLength_succ,
    show i + 2 - 1 = i + 1 from rfl, Nat.add_sub_cancel, List.take_add_one, List.sum_append]
  cases (monthLengths year)[i]? <;> simp

theorem daysBeforeMonth_lt (year : Nat) {a b : Nat} (h : a < b) (ha : 1 ≤ a) :
    daysBeforeMonth year a + monthLength year a ≤ daysBeforeMonth year b := by
  obtain ⟨i, rfl⟩ : ∃ i, a = i + 1 := ⟨a - 1, by omega⟩
  rw [← daysBeforeMonth_succ]
  induction h with
  | refl => exact Nat.le_refl _
  | @step b hb ih =>
    have hb : i + 1 + 1 ≤ b := hb
    obtain ⟨x, rfl⟩ : ∃ x, b = x + 1 := ⟨b - 1, by omega⟩
    rw [Nat.succ_eq_add_one, daysBeforeMonth_succ year x]
    omega

theorem daysBeforeMonth_le (year month : Nat) : daysBeforeMonth year month ≤ yearLength year := by
  rw [daysBeforeMonth_eq, ← sum_monthLengths]
  have hparts := congrArg List.sum (List.take_append_drop (month - 1) (monthLengths year))
  rw [List.sum_append] at hparts
  omega

theorem splitMonth_spec {lengths : List Nat} {rest : Nat} (h : rest < lengths.sum) :
    ∃ i days, splitMonth lengths rest = (i + 1, days) ∧ days < (lengths[i]?).getD 0 ∧
      (lengths.take i).sum + days = rest := by
  induction lengths generalizing rest with
  | nil => simp at h
  | cons length more ih =>
    rw [splitMonth]
    split
    · rename_i hlt
      exact ⟨0, rest, rfl, hlt, by simp⟩
    · rename_i hge
      rw [List.sum_cons] at h
      obtain ⟨i, days, hsplit, hdays, hsum⟩ := ih (show rest - length < more.sum by omega)
      refine ⟨i + 1, days, by rw [hsplit], hdays, ?_⟩
      rw [List.take_succ_cons, List.sum_cons]
      omega

/-! ### Days -/

section Bounds

variable (d : Date)

theorem bounds : (1 ≤ d.year ∧ d.year ≤ 9999) ∧ 1 ≤ d.day ∧ d.day ≤ monthLength d.year d.month := by
  have h := of_decide_eq_true d.valid
  exact ⟨⟨h.1, h.2.1⟩, h.2.2⟩

theorem one_le_month : 1 ≤ d.month := by
  have hday := d.bounds.2
  by_cases hzero : d.month = 0
  · rw [hzero] at hday
    simp [monthLength] at hday
    omega
  · omega

theorem month_le : d.month ≤ 12 := by
  rcases Nat.lt_or_ge 12 d.month with hbeyond | hle
  · have hday := d.bounds.2
    rw [monthLength_of_lt hbeyond] at hday
    omega
  · exact hle

theorem day_le : d.day ≤ 31 := Nat.le_trans d.bounds.2.2 (monthLength_le _ _)

theorem ordinal_le : d.ordinal ≤ daysBeforeYear d.year + yearLength d.year := by
  have hday := d.bounds.2.2
  obtain ⟨i, hi⟩ : ∃ i, d.month = i + 1 := ⟨d.month - 1, by have := d.one_le_month; omega⟩
  have hmonth := daysBeforeMonth_le d.year (i + 2)
  rw [daysBeforeMonth_succ, ← hi] at hmonth
  rw [ordinal]
  omega

/-- The count of a day is one of the calendar. -/
theorem ordinal_mem : 1 ≤ d.ordinal ∧ d.ordinal ≤ lastOrdinal := by
  have hyear := daysBeforeYear_lt (Nat.lt_succ_of_le d.bounds.1.2) d.bounds.1.1
  have hlast : daysBeforeYear (Nat.succ 9999) = lastOrdinal := by decide
  refine ⟨?_, ?_⟩
  · have := d.bounds.2.1
    rw [ordinal]
    omega
  · have := d.ordinal_le
    omega

end Bounds

theorem ordinal_lt_of_year {a b : Date} (h : a.year < b.year) : a < b := by
  have ha := a.ordinal_le
  have hyear := daysBeforeYear_lt h a.bounds.1.1
  have hb := b.bounds.2.1
  show a.ordinal < b.ordinal
  rw [ordinal.eq_1 b]
  omega

theorem ordinal_lt_of_month {a b : Date} (hyear : a.year = b.year) (h : a.month < b.month) :
    a < b := by
  have ha := a.bounds.2.2
  have hmonth := daysBeforeMonth_lt b.year h a.one_le_month
  have hb := b.bounds.2.1
  show a.ordinal < b.ordinal
  rw [ordinal, ordinal, hyear]
  rw [hyear] at ha
  omega

/-- Days are in the order of their years, then their months, then their days of the month. -/
theorem lt_iff {a b : Date} : a < b ↔ a.year < b.year ∨
    a.year = b.year ∧ (a.month < b.month ∨ a.month = b.month ∧ a.day < b.day) := by
  have hday (hyear : a.year = b.year) (hmonth : a.month = b.month) : a < b ↔ a.day < b.day := by
    show a.ordinal < b.ordinal ↔ _
    rw [ordinal, ordinal, hyear, hmonth]
    omega
  have asymm (h : b < a) : ¬a < b := Nat.lt_asymm h
  rcases Nat.lt_trichotomy a.year b.year with hyear | hyear | hyear
  · exact iff_of_true (ordinal_lt_of_year hyear) (Or.inl hyear)
  · rcases Nat.lt_trichotomy a.month b.month with hmonth | hmonth | hmonth
    · exact iff_of_true (ordinal_lt_of_month hyear hmonth) (Or.inr ⟨hyear, Or.inl hmonth⟩)
    · rw [hday hyear hmonth]
      omega
    · refine iff_of_false (asymm (ordinal_lt_of_month hyear.symm hmonth)) ?_
      omega
  · refine iff_of_false (asymm (ordinal_lt_of_year hyear)) ?_
    omega

theorem ordinal_inj {a b : Date} : a.ordinal = b.ordinal ↔ a = b := by
  refine ⟨fun h => ?_, congrArg ordinal⟩
  have hab : ¬a < b := by
    show ¬a.ordinal < b.ordinal
    omega
  have hba : ¬b < a := by
    show ¬b.ordinal < a.ordinal
    omega
  rw [lt_iff] at hab hba
  obtain ⟨hyear, hmonth, hday⟩ : a.year = b.year ∧ a.month = b.month ∧ a.day = b.day := by omega
  cases a
  cases b
  simp_all

/-! ### The day with a count -/

theorem ofOrdinal?_eq {count : Int} (h : 1 ≤ count) {year rest month days : Nat}
    (hyear : splitYear count.toNat = (year, rest))
    (hmonth : splitMonth (monthLengths year) rest = (month, days)) :
    ofOrdinal? count = ofParts? year month (days + 1) := by
  rw [ofOrdinal?, if_neg (Int.not_lt.mpr h), hyear]
  dsimp only
  rw [hmonth]

/-- The year, the month and the day that a count is split into make up the count, and they are those
of a day unless the year is beyond the calendar. -/
theorem splits {count : Nat} (h : 1 ≤ count) :
    ∃ year rest month days, splitYear count = (year, rest) ∧
      splitMonth (monthLengths year) rest = (month, days) ∧
      daysBeforeYear year + daysBeforeMonth year month + (days + 1) = count ∧
      daysBeforeYear year < count ∧
      (isCalendarDay year month (days + 1) = true ↔ year ≤ 9999) := by
  obtain ⟨hone, hrest, hsum⟩ := splitYear_spec h
  cases hyear : splitYear count with
  | mk year rest =>
  simp only [hyear, ← sum_monthLengths] at hone hrest hsum
  obtain ⟨i, days, hsplit, hlt, hdays⟩ := splitMonth_spec hrest
  refine ⟨year, rest, i + 1, days, rfl, hsplit, ?_, ?_, ?_⟩
  · rw [daysBeforeMonth_eq, Nat.add_sub_cancel]
    omega
  · omega
  · rw [isCalendarDay, decide_eq_true_iff, monthLength_succ]
    omega

/-- Every count of the calendar has a day. -/
theorem exists_ofOrdinal? {count : Int} (h : 1 ≤ count ∧ count ≤ lastOrdinal) :
    ∃ d, ofOrdinal? count = some d ∧ (d.ordinal : Int) = count := by
  obtain ⟨year, rest, month, days, hyear, hmonth, hsum, hbefore, hvalid⟩ :=
    splits (show 1 ≤ count.toNat by omega)
  have hle : year ≤ 9999 := by
    rcases Nat.lt_or_ge 9999 year with hbeyond | hle
    · have hlast : daysBeforeYear 9999 + yearLength 9999 = lastOrdinal := by decide
      have := daysBeforeYear_lt hbeyond (by decide)
      omega
    · exact hle
  have hday := hvalid.mpr hle
  refine ⟨⟨year, month, days + 1, hday⟩, ?_, ?_⟩
  · rw [ofOrdinal?_eq h.1 hyear hmonth, ofParts?, dif_pos hday]
  · show ((daysBeforeYear year + daysBeforeMonth year month + (days + 1) : Nat) : Int) = count
    omega

theorem ofOrdinal?_eq_none_iff {count : Int} :
    ofOrdinal? count = none ↔ count < 1 ∨ (lastOrdinal : Int) < count := by
  by_cases hmem : 1 ≤ count ∧ count ≤ lastOrdinal
  · obtain ⟨d, hd, _⟩ := exists_ofOrdinal? hmem
    rw [hd]
    exact iff_of_false nofun (by omega)
  · refine iff_of_true ?_ (by omega)
    by_cases hone : 1 ≤ count
    · obtain ⟨year, rest, month, days, hyear, hmonth, hsum, _, hvalid⟩ :=
        splits (show 1 ≤ count.toNat by omega)
      rw [ofOrdinal?_eq hone hyear hmonth, ofParts?, dif_neg]
      intro hday
      have hle : daysBeforeYear year + daysBeforeMonth year month + (days + 1) ≤ lastOrdinal :=
        (ordinal_mem ⟨year, month, days + 1, hday⟩).2
      omega
    · rw [ofOrdinal?, if_pos (Int.not_le.mp hone)]

theorem ofOrdinal?_eq_some_iff {count : Int} {d : Date} :
    ofOrdinal? count = some d ↔ (d.ordinal : Int) = count := by
  have found (h : 1 ≤ count ∧ count ≤ lastOrdinal) :
      ofOrdinal? count = some d ↔ (d.ordinal : Int) = count := by
    obtain ⟨e, he, hcount⟩ := exists_ofOrdinal? h
    rw [he, Option.some_inj, ← ordinal_inj]
    omega
  constructor
  · intro h
    by_cases hmem : 1 ≤ count ∧ count ≤ lastOrdinal
    · exact (found hmem).mp h
    · rw [ofOrdinal?_eq_none_iff.mpr (by omega)] at h
      cases h
  · intro h
    have hmem := d.ordinal_mem
    exact (found (by omega)).mpr h

theorem addDays?_eq_some_iff {d e : Date} {days : Int} :
    d.addDays? days = some e ↔ (e.ordinal : Int) = d.ordinal + days :=
  ofOrdinal?_eq_some_iff

end Date
end QueryGate
