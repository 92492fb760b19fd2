import Mathlib.Tactic.FieldSimp
import Mathlib.Tactic.Linarith
import Mathlib.Tactic.Positivity
import QueryGate.Calendar.Moment
import QueryGate.Proofs.Calendar.IsoOrder

/-!
# The order of written clock readings

A clock reading is written from its largest part to its smallest one: the day, the hours, the
minutes and seconds as far as they are given, and any number of digits of a fraction.  A later
reading is written as a later text, whichever of its parts are left out, as long as the same
characters stand between the parts.
-/

namespace QueryGate

open Text

/-! ### Parts of a whole -/

/-- Whole numbers with a part of a whole behind them are in the order of the whole numbers, then in
that of the parts. -/
theorem add_part_lt {a b : ℕ} {x y : ℚ} (hx : 0 ≤ x) (hy : y < 1) (h : (a : ℚ) + x < b + y) :
    a < b ∨ a = b ∧ x < y := by
  rcases Nat.lt_trichotomy a b with hlt | heq | hgt
  · exact Or.inl hlt
  · right
    rw [heq] at h
    exact ⟨heq, lt_of_add_lt_add_left h⟩
  · have hgap : (b : ℚ) + 1 ≤ a := by exact_mod_cast hgt
    linarith

/-- The value of the digits behind a decimal point. -/
def decimalValue : List (Fin 10) → ℚ
  | [] => 0
  | d :: ds => ((d : ℕ) + decimalValue ds) / 10

/-- The character of a digit. -/
def digit (d : Fin 10) : Char := Nat.digitChar d

theorem digit_lt {d e : Fin 10} (h : d < e) : digit d < digit e := by
  revert d e
  decide

theorem decimalValue_mem (ds : List (Fin 10)) : 0 ≤ decimalValue ds ∧ decimalValue ds < 1 := by
  induction ds with
  | nil => exact ⟨le_refl 0, zero_lt_one⟩
  | cons d ds ih =>
    have hd : ((d : ℕ) : ℚ) ≤ 9 := by exact_mod_cast Nat.le_of_lt_succ d.isLt
    have hd' : (0 : ℚ) ≤ (d : ℕ) := Nat.cast_nonneg _
    rw [decimalValue]
    constructor <;> linarith

/-- Digits behind a decimal point are in the order of their values, however many they are. -/
theorem map_digit_lt {ds es : List (Fin 10)} (h : decimalValue ds < decimalValue es) :
    ds.map digit < es.map digit := by
  induction ds generalizing es with
  | nil =>
    cases es with
    | nil => exact absurd h (lt_irrefl _)
    | cons e es => exact List.nil_lt_cons _ _
  | cons d ds ih =>
    cases es with
    | nil => exact absurd h (not_lt.mpr (decimalValue_mem _).1)
    | cons e es =>
      rw [decimalValue, decimalValue, div_lt_div_iff_of_pos_right (by norm_num)] at h
      rw [List.map_cons, List.map_cons, List.cons_lt_cons_iff]
      rcases add_part_lt (decimalValue_mem ds).1 (decimalValue_mem es).2 h with hlt | ⟨heq, hrest⟩
      · exact Or.inl (digit_lt hlt)
      · exact Or.inr ⟨congrArg digit (Fin.ext heq), ih hrest⟩

/-! ### Behind the hours -/

/-- What stands behind the hours: up to `levels` numbers below sixty, of which the last ones may be
left out, and behind all of them a fraction. -/
inductive Below : Nat → Type
  | leftOut {levels : Nat} : Below (levels + 1)
  | part {levels : Nat} (n : Fin 60) (rest : Below levels) : Below (levels + 1)
  | fraction (digits : List (Fin 10)) : Below 0

namespace Below

/-- The part of a whole that the numbers make up. -/
def value {levels : Nat} : Below levels → ℚ
  | leftOut => 0
  | part n rest => ((n : ℕ) + rest.value) / 60
  | fraction digits => decimalValue digits

/-- The written form; nothing is written of an empty fraction. -/
def chars {levels : Nat} (mark : Char) : Below levels → List Char
  | leftOut => []
  | part n rest => ':' :: (Date.padded 2 n ++ rest.chars mark)
  | fraction [] => []
  | fraction (d :: ds) => mark :: (d :: ds).map digit

theorem value_mem {levels : Nat} (r : Below levels) : 0 ≤ r.value ∧ r.value < 1 := by
  induction r with
  | leftOut => exact ⟨le_refl 0, zero_lt_one⟩
  | part n rest ih =>
    have hn : ((n : ℕ) : ℚ) ≤ 59 := by exact_mod_cast Nat.le_of_lt_succ n.isLt
    have hn' : (0 : ℚ) ≤ (n : ℕ) := Nat.cast_nonneg _
    rw [value]
    constructor <;> linarith
  | fraction digits => exact decimalValue_mem digits

theorem chars_fraction_lt (mark : Char) {ds es : List (Fin 10)}
    (h : decimalValue ds < decimalValue es) :
    (fraction ds).chars mark < (fraction es).chars mark := by
  have hdigits := map_digit_lt h
  cases es with
  | nil => exact absurd h (not_lt.mpr (decimalValue_mem ds).1)
  | cons e es =>
    cases ds with
    | nil => exact List.nil_lt_cons _ _
    | cons d ds =>
      rw [chars, chars, List.cons_lt_cons_iff]
      exact Or.inr ⟨rfl, hdigits⟩

theorem chars_lt (mark : Char) {levels : Nat} {r s : Below levels} (h : r.value < s.value) :
    r.chars mark < s.chars mark := by
  induction r with
  | leftOut =>
    cases s with
    | leftOut => exact absurd h (lt_irrefl _)
    | part n rest => exact List.nil_lt_cons _ _
  | part m rest ih =>
    cases s with
    | leftOut => exact absurd h (not_lt.mpr (value_mem _).1)
    | part n rest' =>
      have hm : (Date.padded 2 m).length = 2 := Date.length_padded (by omega) (by decide)
      have hn : (Date.padded 2 n).length = 2 := Date.length_padded (by omega) (by decide)
      have hlength := hm.trans hn.symm
      rw [value, value, div_lt_div_iff_of_pos_right (by norm_num)] at h
      rw [chars, chars, List.cons_lt_cons_iff]
      right
      refine ⟨rfl, (append_lt_append_iff hlength _ _).mpr ?_⟩
      rw [Date.padded_lt_iff hlength, Date.padded_inj]
      exact (add_part_lt (value_mem rest).1 (value_mem rest').2 h).imp_right (.imp_right ih)
  | fraction ds =>
    cases s with
    | fraction es => exact chars_fraction_lt mark h

end Below

/-! ### Readings -/

/-- A reading of a clock whose distance from universal time is not given. -/
structure ClockReading where
  date : Date
  hours : Fin 24
  below : Below 2

namespace ClockReading

/-- The part of the day that has passed. -/
def dayPart (r : ClockReading) : ℚ := ((r.hours : ℕ) + r.below.value) / 24

/-- The days up to the reading. -/
def instant (r : ClockReading) : ℚ := (r.date.ordinal : ℚ) + r.dayPart

/-- The ISO form with the given characters between day and time and in front of a fraction. -/
def chars (between mark : Char) (r : ClockReading) : List Char :=
  r.date.isoChars ++ between :: (Date.padded 2 r.hours ++ r.below.chars mark)

@[inherit_doc chars]
def text (between mark : Char) (r : ClockReading) : String := String.ofList (r.chars between mark)

theorem dayPart_mem (r : ClockReading) : 0 ≤ r.dayPart ∧ r.dayPart < 1 := by
  have hhours : ((r.hours : ℕ) : ℚ) ≤ 23 := by exact_mod_cast Nat.le_of_lt_succ r.hours.isLt
  have hhours' : (0 : ℚ) ≤ (r.hours : ℕ) := Nat.cast_nonneg _
  have hbelow := r.below.value_mem
  rw [dayPart]
  constructor <;> linarith

theorem chars_time_lt (mark : Char) {r s : ClockReading} (h : r.dayPart < s.dayPart) :
    Date.padded 2 r.hours ++ r.below.chars mark < Date.padded 2 s.hours ++ s.below.chars mark := by
  have hr : (Date.padded 2 r.hours).length = 2 := Date.length_padded (by omega) (by decide)
  have hs : (Date.padded 2 s.hours).length = 2 := Date.length_padded (by omega) (by decide)
  have hlength := hr.trans hs.symm
  rw [dayPart, dayPart, div_lt_div_iff_of_pos_right (by norm_num)] at h
  rw [append_lt_append_iff hlength, Date.padded_lt_iff hlength, Date.padded_inj]
  have hbelow := add_part_lt r.below.value_mem.1 s.below.value_mem.2 h
  exact hbelow.imp_right (.imp_right (Below.chars_lt mark))

/-- A later reading is written as a later text. -/
theorem chars_lt (between mark : Char) {r s : ClockReading} (h : r.instant < s.instant) :
    r.chars between mark < s.chars between mark := by
  have hlength : r.date.isoChars.length = s.date.isoChars.length := by
    rw [Date.length_isoChars, Date.length_isoChars]
  rw [chars, chars, append_lt_append_iff hlength]
  rcases add_part_lt r.dayPart_mem.1 s.dayPart_mem.2 h with hday | ⟨hday, htime⟩
  · exact Or.inl (Date.isoChars_lt_iff.mpr hday)
  · right
    rw [Date.ordinal_inj.mp hday, List.cons_lt_cons_iff]
    exact ⟨rfl, Or.inr ⟨rfl, chars_time_lt mark htime⟩⟩

/-- The last of several texts is of a last reading. -/
theorem instant_le_of_text_le {between mark : Char} {r s : ClockReading}
    (h : r.text between mark ≤ s.text between mark) : r.instant ≤ s.instant := by
  by_contra hlater
  have hchars := chars_lt between mark (not_le.mp hlater)
  rw [← String.not_lt] at h
  apply h
  rw [String.lt_iff, text, text, String.toList_ofList, String.toList_ofList]
  exact hchars

end ClockReading

/-! ### Points in time -/

theorem exists_digit {c : Char} (h : isAsciiDigit c = true) : ∃ d, digit d = c := by
  have hcode := (isAsciiDigit_iff c).mp h
  exact ⟨⟨c.toNat - 48, by omega⟩, digitChar_toNat_sub h⟩

theorem exists_digits {cs : List Char} (h : ∀ c ∈ cs, isAsciiDigit c = true) :
    ∃ ds : List (Fin 10), ds.map digit = cs := by
  induction cs with
  | nil => exact ⟨[], rfl⟩
  | cons c cs ih =>
    obtain ⟨hc, hcs⟩ := List.forall_mem_cons.mp h
    obtain ⟨d, rfl⟩ := exists_digit hc
    obtain ⟨ds, rfl⟩ := ih hcs
    exact ⟨d :: ds, rfl⟩

theorem decimalValue_eq (ds : List (Fin 10)) :
    decimalValue ds = (digitsValue (ds.map digit) : ℚ) / 10 ^ ds.length := by
  induction ds with
  | nil => simp [decimalValue, digitsValue]
  | cons d ds ih =>
    have hd : (digit d).toNat - 48 = d := by
      rw [digit, Nat.toNat_digitChar_of_lt_ten d.isLt]
      omega
    rw [decimalValue, ih, List.map_cons, digitsValue_cons, hd, List.length_map, List.length_cons,
      pow_succ]
    push_cast
    field_simp

/-- Millionths are written as six digits, or not at all. -/
theorem exists_fraction {n : Nat} (h : n < 1000000) :
    ∃ ds : List (Fin 10), decimalValue ds = (n : ℚ) / 1000000 ∧
      (Below.fraction ds).chars '.' = if n = 0 then [] else '.' :: Date.padded 6 n := by
  by_cases hzero : n = 0
  · refine ⟨[], ?_, ?_⟩
    · rw [hzero]
      simp [decimalValue]
    · rw [if_pos hzero]
      rfl
  · obtain ⟨ds, hds⟩ := exists_digits (Date.padded_digits 6 n)
    have hlength : ds.length = 6 := by
      rw [← List.length_map digit, hds, Date.length_padded (by omega) (by decide)]
    refine ⟨ds, ?_, ?_⟩
    · rw [decimalValue_eq, hds, Date.digitsValue_padded, hlength]
      norm_num
    · rw [if_neg hzero, ← hds]
      cases ds with
      | nil => cases hlength
      | cons d ds => rfl

/-- A point in time is written as a reading that has come as far. -/
theorem Moment.exists_reading {m : Moment} (hoffset : m.offset = none)
    (hmicros : m.micros < 86400000000) :
    ∃ r : ClockReading, (∀ between, m.chars between = r.chars between '.') ∧
      r.instant = (m.date.ordinal : ℚ) + (m.micros : ℚ) / 86400000000 := by
  obtain ⟨ds, hvalue, hchars⟩ := exists_fraction (Nat.mod_lt m.micros (show 0 < 1000000 by decide))
  have hhours : m.micros / 1000000 / 3600 < 24 := by omega
  have hminutes : m.micros / 1000000 / 60 % 60 < 60 := Nat.mod_lt _ (by decide)
  have hseconds : m.micros / 1000000 % 60 < 60 := Nat.mod_lt _ (by decide)
  refine ⟨⟨m.date, ⟨_, hhours⟩, .part ⟨_, hminutes⟩ (.part ⟨_, hseconds⟩ (.fraction ds))⟩, ?_, ?_⟩
  · intro between
    rw [chars, hoffset, TimeSpan.clock, ← hchars]
    simp [ClockReading.chars, Below.chars]
  · have hparts : m.micros = ((m.micros / 1000000 / 3600 * 60 + m.micros / 1000000 / 60 % 60) * 60
        + m.micros / 1000000 % 60) * 1000000 + m.micros % 1000000 := by
      omega
    have hcast := congrArg (fun n : ℕ => (n : ℚ)) hparts
    simp only [Nat.cast_add, Nat.cast_mul, Nat.cast_ofNat] at hcast
    simp only [ClockReading.instant, ClockReading.dayPart, Below.value, hvalue]
    linarith

end QueryGate
