import QueryGate.Proofs.Calendar.Written
import QueryGate.Question.Phrase

/-!
# Dates in a question

A day is written in its ISO form or with the day in front.  Every such form is read as the day that
it writes, and no other text made of digits and separators is read as a day at all.
-/

namespace QueryGate
namespace Question

open Text Date

/-- The forms of a day with the day in front: day and month in one digit or two, the year in four,
and either separator in both places. -/
inductive DayFirst (d : Date) : List Char → Prop where
  | written {dayWidth monthWidth : Nat} {s t : Char} (hday : dayWidth = 1 ∨ dayWidth = 2)
      (hmonth : monthWidth = 1 ∨ monthWidth = 2) (hs : isDateSeparator s = true)
      (ht : isDateSeparator t = true) :
      DayFirst d (padded dayWidth d.day ++ s :: (padded monthWidth d.month ++ t :: padded 4 d.year))

/-- The texts that write a day. -/
def Writes (d : Date) (cs : List Char) : Prop := cs = d.isoChars ∨ DayFirst d cs

/-! ### Separators -/

theorem not_isAsciiDigit_of_isDateSeparator {c : Char} (h : isDateSeparator c = true) :
    isAsciiDigit c = false := by
  rcases Bool.or_eq_true_iff.mp h with h | h <;> rw [eq_of_beq h] <;> decide

theorem isDateChar_of_digit {c : Char} (h : isAsciiDigit c = true) : isDateChar c = true := by
  rw [isDateChar, h, Bool.true_or]

theorem isDateChar_of_isDateSeparator {c : Char} (h : isDateSeparator c = true) :
    isDateChar c = true := by
  rw [isDateChar, h, Bool.or_true]

theorem withoutLineBreak_eq {cs : List Char} (h : ∀ c ∈ cs, isDateChar c = true) :
    withoutLineBreak cs = cs := by
  refine (eq_of_withoutLineBreak cs).resolve_right fun hbreak => ?_
  have hmem : '\n' ∈ cs := hbreak ▸ List.mem_append_right _ List.mem_cons_self
  exact absurd (h _ hmem) (by decide)

/-! ### Numbers in front of a separator -/

theorem shortNumber?_eq_some {cs rest : List Char} {n : Nat} (h : shortNumber? cs = some (n, rest)) :
    ∃ ds s, cs = ds ++ s :: rest ∧ (ds.length = 1 ∨ ds.length = 2) ∧
      (∀ c ∈ ds, isAsciiDigit c = true) ∧ isDateSeparator s = true ∧ digitsValue ds = n := by
  unfold shortNumber? at h
  split at h
  · rename_i a b r
    split at h
    · cases h
    rename_i ha
    have ha : isAsciiDigit a = true := by simpa using ha
    split at h
    · rename_i hb
      cases h
      exact ⟨[a], b, rfl, Or.inl rfl, by simpa using ha, hb, rfl⟩
    split at h
    · rename_i s r
      split at h
      · rename_i hboth
        obtain ⟨hb, hs⟩ := Bool.and_eq_true_iff.mp hboth
        cases h
        exact ⟨[a, b], s, rfl, Or.inr rfl, by simp [ha, hb], hs, rfl⟩
      · cases h
    · cases h
  · cases h

theorem shortNumber?_append {ds rest : List Char} {s : Char} (hlength : ds.length = 1 ∨ ds.length = 2)
    (hds : ∀ c ∈ ds, isAsciiDigit c = true) (hs : isDateSeparator s = true) :
    shortNumber? (ds ++ s :: rest) = some (digitsValue ds, rest) := by
  match ds, hlength with
  | [a], _ =>
    have ha := hds a (by simp)
    simp [shortNumber?, ha, hs]
  | [a, b], _ =>
    have ha := hds a (by simp)
    have hb := hds b (by simp)
    have hdigit : isDateSeparator b = false := by
      rw [Bool.eq_false_iff]
      intro hsep
      rw [not_isAsciiDigit_of_isDateSeparator hsep] at hb
      cases hb
    simp [shortNumber?, ha, hb, hs, hdigit]

theorem length_padded_le {width n : Nat} (hwidth : width = 1 ∨ width = 2) (hn : n < 100) :
    (padded width n).length = 1 ∨ (padded width n).length = 2 := by
  have hpos := List.length_pos_iff.mpr (padded_ne_nil width n)
  have hle : (Nat.toDigits 10 n).length ≤ 2 :=
    (Nat.length_toDigits_le_iff (by decide) (by decide)).mpr hn
  rw [padded, List.length_append, List.length_replicate] at hpos ⊢
  omega

/-! ### Reading -/

theorem dayFirst?_eq_some_iff {cs : List Char} {d : Date} :
    dayFirst? cs = some d ↔ DayFirst d cs := by
  constructor
  · intro h
    simp only [dayFirst?, Option.bind_eq_bind, Option.bind_eq_some_iff] at h
    obtain ⟨⟨day, rest⟩, hday, ⟨month, rest'⟩, hmonth, h⟩ := h
    obtain ⟨ds, s, rfl, hdsLength, hds, hs, rfl⟩ := shortNumber?_eq_some hday
    obtain ⟨ms, t, rfl, hmsLength, hms, ht, rfl⟩ := shortNumber?_eq_some hmonth
    split at h
    · rename_i hyear
      obtain ⟨hlength, hall⟩ := Bool.and_eq_true_iff.mp hyear
      obtain ⟨hy, hm, hd⟩ : d.year = digitsValue rest' ∧ d.month = digitsValue ms ∧
          d.day = digitsValue ds := ofParts?_eq_some_iff.mp h
      have hne {xs : List Char} (hxs : xs.length = 1 ∨ xs.length = 2) : xs ≠ [] := by
        rintro rfl
        simp at hxs
      have hlength : rest'.length = 4 := by simpa using hlength
      have hyears : padded 4 (digitsValue rest') = rest' := by
        rw [← hlength]
        exact padded_digitsValue rest' (List.all_eq_true.mp hall) (by rintro rfl; simp at hlength)
      rw [← padded_digitsValue ds hds (hne hdsLength), ← padded_digitsValue ms hms (hne hmsLength),
        ← hyears, ← hy, ← hm, ← hd]
      exact .written hdsLength hmsLength hs ht
    · cases h
  · rintro ⟨hday, hmonth, hs, ht⟩
    have hfour : ((padded 4 d.year).length = 4 && (padded 4 d.year).all isAsciiDigit) = true := by
      simp only [length_year, decide_true, Bool.true_and]
      exact List.all_eq_true.mpr (padded_digits 4 d.year)
    rw [dayFirst?, shortNumber?_append (length_padded_le hday (by have := d.day_le; omega))
      (padded_digits _ _) hs]
    simp only [Option.bind_eq_bind, Option.bind_some]
    rw [shortNumber?_append (length_padded_le hmonth (by have := d.month_le; omega))
      (padded_digits _ _) ht]
    simp only [Option.bind_some, hfour, if_true, digitsValue_padded]
    exact ofParts?_eq_some_iff.mpr ⟨rfl, rfl, rfl⟩

/-- No text has both forms: a separator stands among the first characters of the one, and only
digits among those of the other. -/
theorem not_iso_of_dayFirst {d e : Date} {cs : List Char} (h : DayFirst d cs) : cs ≠ e.isoChars := by
  intro hiso
  obtain ⟨hday, _, hs, _⟩ := h
  rename_i dayWidth _ s t _ _
  have hlength := length_padded_le hday (show d.day < 100 by have := d.day_le; omega)
  have hmem : s ∈ e.isoChars.take 4 := by
    rw [← hiso, List.take_append, List.take_of_length_le (by omega)]
    refine List.mem_append_right _ ?_
    rcases hlength with hl | hl <;> simp [hl]
  rw [isoChars, List.append_assoc, List.take_left' (length_year e)] at hmem
  have hdigit := padded_digits _ _ _ hmem
  rw [not_isAsciiDigit_of_isDateSeparator hs] at hdigit
  cases hdigit

/-- The reader of dates reads just the forms of a day. -/
theorem date?_eq_some_iff {cs : List Char} {d : Date} :
    date? cs = some d ↔ Writes d (withoutLineBreak cs) := by
  show (ofIso? (withoutLineBreak cs)).or (dayFirst? (withoutLineBreak cs)) = some d ↔ _
  rw [Option.or_eq_some_iff, ofIso?_eq_some_iff, dayFirst?_eq_some_iff]
  refine or_congr_right ⟨And.right, fun h => ⟨?_, h⟩⟩
  rw [Option.eq_none_iff_forall_ne_some]
  intro e he
  exact not_iso_of_dayFirst h (ofIso?_eq_some_iff.mp he)

/-- A text made of digits and separators is read as a day just when it writes it, in the ISO form or
with the day in front, and as nothing when it writes no day. -/
theorem dates_read_as_written {cs : List Char} (h : ∀ c ∈ cs, isDateChar c = true) :
    (∀ d, date? cs = some d ↔ Writes d cs) ∧ (date? cs = none ↔ ∀ d, ¬Writes d cs) := by
  have hsome (d : Date) : date? cs = some d ↔ Writes d cs := by
    rw [date?_eq_some_iff, withoutLineBreak_eq h]
  refine ⟨hsome, ?_⟩
  rw [Option.eq_none_iff_forall_ne_some]
  exact forall_congr' fun d => not_congr (hsome d)

/-- 29 February of a leap year. -/
def leapDay : Date := ⟨2024, 2, 29, by decide⟩

theorem dates_read_as_written_leapDay :
    (∀ c ∈ "29/2-2024".toList, isDateChar c = true) ∧ Writes leapDay "29/2-2024".toList ∧
      date? "29/2-2024".toList = some leapDay ∧
      (∀ c ∈ "29/2-2023".toList, isDateChar c = true) ∧ date? "29/2-2023".toList = none ∧
      ∀ d, ¬Writes d "29/2-2023".toList := by
  have hleap : ∀ c ∈ "29/2-2024".toList, isDateChar c = true := List.all_eq_true.mp (by decide)
  have hcommon : ∀ c ∈ "29/2-2023".toList, isDateChar c = true := List.all_eq_true.mp (by decide)
  have hwrites : Writes leapDay "29/2-2024".toList :=
    Or.inr (.written (Or.inl rfl) (Or.inl rfl) (by decide : isDateSeparator '/' = true)
      (by decide : isDateSeparator '-' = true))
  have hnone : date? "29/2-2023".toList = none := by decide
  exact ⟨hleap, hwrites, ((dates_read_as_written hleap).1 leapDay).mpr hwrites, hcommon, hnone,
    (dates_read_as_written hcommon).2.mp hnone⟩

end Question
end QueryGate
