import Mathlib.Tactic.Ring
import QueryGate.Proofs.Calendar.Written

/-!
# The order of written days

Runs of digits of one length are in the order of the numbers that they write, and so are padded
numbers.  Year, month and day stand at the same places of every ISO form, the year first, so written
days are in the order of the days.
-/

namespace QueryGate
namespace Text

/-- Texts with fronts of one length are in the order of the fronts, then in that of the rests. -/
theorem append_lt_append_iff {a b : List Char} (h : a.length = b.length) (c d : List Char) :
    a ++ c < b ++ d ↔ a < b ∨ a = b ∧ c < d := by
  induction a generalizing b with
  | nil =>
    obtain rfl := List.length_eq_zero_iff.mp h.symm
    simp
  | cons x a ih =>
    obtain ⟨y, b, rfl⟩ := List.exists_cons_of_length_eq_add_one h.symm
    have hrest := ih (Nat.succ.inj h)
    rw [List.cons_append, List.cons_append, List.cons_lt_cons_iff, List.cons_lt_cons_iff, hrest,
      List.cons.injEq, and_or_left, and_assoc, or_assoc]

theorem digitsValue_cons (c : Char) (ds : List Char) :
    digitsValue (c :: ds) = (c.toNat - 48) * 10 ^ ds.length + digitsValue ds := by
  have hfold (n : Nat) : ds.foldl (fun n c => 10 * n + (c.toNat - 48)) n =
      n * 10 ^ ds.length + digitsValue ds := by
    induction ds generalizing n with
    | nil => simp [digitsValue]
    | cons d ds ih =>
      have hvalue : digitsValue (d :: ds) =
          ds.foldl (fun n c => 10 * n + (c.toNat - 48)) (10 * 0 + (d.toNat - 48)) := rfl
      rw [List.foldl_cons, hvalue, ih, ih, List.length_cons, Nat.pow_succ]
      ring
  rw [digitsValue, List.foldl_cons, hfold, Nat.mul_zero, Nat.zero_add]

/-- Runs of digits of one length are in the order of their numbers. -/
theorem digits_lt_iff {a b : List Char} (ha : ∀ c ∈ a, isAsciiDigit c = true)
    (hb : ∀ c ∈ b, isAsciiDigit c = true) (h : a.length = b.length) :
    a < b ↔ digitsValue a < digitsValue b := by
  induction a generalizing b with
  | nil =>
    obtain rfl := List.length_eq_zero_iff.mp h.symm
    simp
  | cons x a ih =>
    obtain ⟨y, b, rfl⟩ := List.exists_cons_of_length_eq_add_one h.symm
    have hlength : a.length = b.length := Nat.succ.inj h
    obtain ⟨hx, ha⟩ := List.forall_mem_cons.mp ha
    obtain ⟨hy, hb⟩ := List.forall_mem_cons.mp hb
    have hxcode := (isAsciiDigit_iff x).mp hx
    have hycode := (isAsciiDigit_iff y).mp hy
    have hsmall := digitsValue_lt ha
    have hsmall' := digitsValue_lt hb
    have hchar : x < y ↔ x.toNat < y.toNat := by rw [Char.lt_def, UInt32.lt_iff_toNat_lt]; rfl
    have hsame : x = y ↔ x.toNat = y.toNat := Char.toNat_inj.symm
    rw [List.cons_lt_cons_iff, ih ha hb hlength, digitsValue_cons, digitsValue_cons, ← hlength,
      hchar, hsame]
    rw [← hlength] at hsmall'
    -- the first digit outweighs all that stand behind it
    rcases Nat.lt_trichotomy x.toNat y.toNat with hlt | heq | hgt
    · have hweight := Nat.mul_le_mul_right (10 ^ a.length)
        (show x.toNat - 48 + 1 ≤ y.toNat - 48 by omega)
      rw [Nat.succ_mul] at hweight
      exact iff_of_true (Or.inl hlt) (Nat.lt_of_lt_of_le (Nat.add_lt_add_left hsmall _)
        (Nat.le_trans hweight (Nat.le_add_right _ _)))
    · simp [heq]
    · have hweight := Nat.mul_le_mul_right (10 ^ a.length)
        (show y.toNat - 48 + 1 ≤ x.toNat - 48 by omega)
      rw [Nat.succ_mul] at hweight
      refine iff_of_false (by omega) (Nat.not_lt.mpr ?_)
      exact Nat.le_trans (Nat.add_le_add_left (Nat.le_of_lt hsmall') _)
        (Nat.le_trans hweight (Nat.le_add_right _ _))

end Text

namespace Date

open Text

theorem padded_lt_iff {width m n : Nat} (h : (padded width m).length = (padded width n).length) :
    padded width m < padded width n ↔ m < n := by
  rw [digits_lt_iff (padded_digits width m) (padded_digits width n) h, digitsValue_padded,
    digitsValue_padded]

theorem padded_inj {width m n : Nat} : padded width m = padded width n ↔ m = n := by
  refine ⟨fun h => ?_, fun h => by rw [h]⟩
  rw [← digitsValue_padded width m, h, digitsValue_padded]

section Order

variable {a b : Date}

theorem isoChars_lt_iff : a.isoChars < b.isoChars ↔ a < b := by
  have hyear : (padded 4 a.year).length = (padded 4 b.year).length := by
    rw [length_year, length_year]
  have hmonth : (padded 2 a.month).length = (padded 2 b.month).length := by
    rw [length_month, length_month]
  have hday : (padded 2 a.day).length = (padded 2 b.day).length := by
    rw [length_day, length_day]
  rw [isoChars, isoChars, List.append_assoc, List.append_assoc, append_lt_append_iff hyear,
    List.cons_append, List.cons_append, List.cons_lt_cons_iff, append_lt_append_iff hmonth,
    List.cons_lt_cons_iff, padded_lt_iff hyear, padded_lt_iff hmonth, padded_lt_iff hday,
    padded_inj, padded_inj, lt_iff]
  simp

/-- Written days are in the order of the days. -/
theorem iso_lt_iff : a.iso < b.iso ↔ a < b := by
  rw [String.lt_iff, iso, iso, String.toList_ofList, String.toList_ofList, isoChars_lt_iff]

theorem iso_le_iff : a.iso ≤ b.iso ↔ a ≤ b := by
  rw [← String.not_lt, iso_lt_iff]
  exact Nat.not_lt

end Order

end Date
end QueryGate
