import QueryGate.Proofs.Calendar.Count
import QueryGate.Proofs.Text.Numeral

/-!
# Written days

A padded number has the digits of the number and no others, and a run of digits is the padded number
that it writes.  So the ISO form of a day is the one text that is read as the day.
-/

namespace QueryGate
namespace Date

open Text

/-! ### Padded numbers -/

theorem padded_digits (width n : Nat) : ∀ c ∈ padded width n, isAsciiDigit c = true := by
  intro c hc
  rcases List.mem_append.mp hc with hc | hc
  · rw [List.eq_of_mem_replicate hc]
    decide
  · exact isAsciiDigit_of_mem_toDigits hc

theorem padded_ne_nil (width n : Nat) : padded width n ≠ [] := by
  simp [padded, Nat.toDigits_ne_nil]

theorem digitsValue_padded (width n : Nat) : digitsValue (padded width n) = n := by
  rw [padded, digitsValue_zeros_append, digitsValue_toDigits]

theorem length_padded {width n : Nat} (h : n < 10 ^ width) (hwidth : 1 ≤ width) :
    (padded width n).length = width := by
  have hle : (Nat.toDigits 10 n).length ≤ width :=
    (Nat.length_toDigits_le_iff (by decide) hwidth).mpr h
  rw [padded, List.length_append, List.length_replicate]
  omega

/-- A run of digits is its number, padded to the length of the run. -/
theorem padded_digitsValue (ds : List Char) (hds : ∀ c ∈ ds, isAsciiDigit c = true)
    (hne : ds ≠ []) :
    padded ds.length (digitsValue ds) = ds :=
  zeros_append_toDigits hds hne

theorem mem_isoChars {d : Date} {c : Char} (h : c ∈ d.isoChars) :
    isAsciiDigit c = true ∨ c = '-' := by
  simp only [isoChars, List.mem_append, List.mem_cons] at h
  rcases h with (h | h | h) | h | h
  · exact Or.inl (padded_digits _ _ c h)
  · exact Or.inr h
  · exact Or.inl (padded_digits _ _ c h)
  · exact Or.inr h
  · exact Or.inl (padded_digits _ _ c h)

/-! ### The ISO form -/

theorem ofParts?_eq_some_iff {year month day : Nat} {d : Date} :
    ofParts? year month day = some d ↔ d.year = year ∧ d.month = month ∧ d.day = day := by
  unfold ofParts?
  constructor
  · intro h
    split at h
    · cases h
      exact ⟨rfl, rfl, rfl⟩
    · cases h
  · rintro ⟨rfl, rfl, rfl⟩
    exact dif_pos d.valid

section Width

variable (d : Date)

theorem length_year : (padded 4 d.year).length = 4 :=
  length_padded (by have := d.bounds.1.2; omega) (by decide)

theorem length_month : (padded 2 d.month).length = 2 :=
  length_padded (by have := d.month_le; omega) (by decide)

theorem length_day : (padded 2 d.day).length = 2 :=
  length_padded (by have := d.day_le; omega) (by decide)

theorem length_isoChars : d.isoChars.length = 10 := by
  simp [isoChars, length_year, length_month, length_day]

end Width

/-- A text is read as a day just when it is the ISO form of the day. -/
theorem ofIso?_eq_some_iff {cs : List Char} {d : Date} : ofIso? cs = some d ↔ cs = d.isoChars := by
  constructor
  · intro h
    unfold ofIso? at h
    split at h
    · rename_i y1 y2 y3 y4 m1 m2 d1 d2
      split at h
      · rename_i hall
        simp only [List.all_cons, List.all_nil, Bool.and_true, Bool.and_eq_true] at hall
        obtain ⟨hyear, hmonth, hday⟩ := ofParts?_eq_some_iff.mp h
        have hy : padded 4 d.year = [y1, y2, y3, y4] :=
          hyear ▸ padded_digitsValue [y1, y2, y3, y4] (by simp [hall]) (by simp)
        have hm : padded 2 d.month = [m1, m2] :=
          hmonth ▸ padded_digitsValue [m1, m2] (by simp [hall]) (by simp)
        have hd : padded 2 d.day = [d1, d2] :=
          hday ▸ padded_digitsValue [d1, d2] (by simp [hall]) (by simp)
        rw [isoChars, hy, hm, hd]
        rfl
      · cases h
    · cases h
  · rintro rfl
    have hyear := length_year d
    have hmonth := length_month d
    have hday := length_day d
    have hvalues : digitsValue (padded 4 d.year) = d.year ∧
        digitsValue (padded 2 d.month) = d.month ∧ digitsValue (padded 2 d.day) = d.day :=
      ⟨digitsValue_padded _ _, digitsValue_padded _ _, digitsValue_padded _ _⟩
    have hdigits : ∀ c ∈ padded 4 d.year ++ padded 2 d.month ++ padded 2 d.day,
        isAsciiDigit c = true := by
      simp only [List.mem_append]
      rintro c ((hc | hc) | hc) <;> exact padded_digits _ _ c hc
    unfold isoChars
    generalize padded 4 d.year = y at hyear hvalues hdigits ⊢
    generalize padded 2 d.month = m at hmonth hvalues hdigits ⊢
    generalize padded 2 d.day = t at hday hvalues hdigits ⊢
    match y, m, t, hyear, hmonth, hday with
    | [y1, y2, y3, y4], [m1, m2], [d1, d2], _, _, _ =>
      have hall : [y1, y2, y3, y4, m1, m2, d1, d2].all isAsciiDigit = true :=
        List.all_eq_true.mpr hdigits
      show (if [y1, y2, y3, y4, m1, m2, d1, d2].all isAsciiDigit = true then _ else none) = some d
      rw [if_pos hall, hvalues.1, hvalues.2.1, hvalues.2.2]
      exact ofParts?_eq_some_iff.mpr ⟨rfl, rfl, rfl⟩

end Date
end QueryGate
