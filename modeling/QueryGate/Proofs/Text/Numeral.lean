import QueryGate.Number.Whole
import QueryGate.Proofs.Text.Blank

/-!
# Numerals

A run of ASCII digits is a numeral of the number that it writes, and without the zeros in front it
is the decimal text of that number.
-/

namespace QueryGate
namespace Text

theorem isDigits_iff {ds : List Char} :
    isDigits ds = true ↔ ds ≠ [] ∧ ∀ c ∈ ds, '0' ≤ c ∧ c ≤ '9' := by
  simp [isDigits, isAsciiDigit]

/-! ### The decimal text of a number -/

theorem digitChar_toNat_sub {c : Char} (h : isAsciiDigit c = true) :
    Nat.digitChar (c.toNat - 48) = c := by
  obtain ⟨hle, hge⟩ := (isAsciiDigit_iff c).mp h
  apply Char.toNat_inj.mp
  rw [Nat.toNat_digitChar_of_lt_ten (by omega)]
  omega

/-- More digits behind a positive number. -/
theorem toDigits_append_digits {cs : List Char} (hcs : ∀ c ∈ cs, isAsciiDigit c = true) {n : Nat}
    (hn : 0 < n) :
    Nat.toDigits 10 n ++ cs =
      Nat.toDigits 10 (cs.foldl (fun n c => 10 * n + (c.toNat - 48)) n) := by
  induction cs generalizing n with
  | nil => rw [List.append_nil, List.foldl_nil]
  | cons c r ih =>
    obtain ⟨hc, hr⟩ := List.forall_mem_cons.mp hcs
    have hlt : c.toNat - 48 < 10 := by
      have := (isAsciiDigit_iff c).mp hc
      omega
    have hone := Nat.toDigits_append_toDigits (b := 10) (n := n) (by decide) hn hlt
    rw [Nat.toDigits_of_lt_base hlt, digitChar_toNat_sub hc] at hone
    rw [List.foldl_cons, ← ih hr (by omega), ← hone, List.append_assoc]
    rfl

theorem withoutZeros_eq {ds : List Char} (hds : ∀ c ∈ ds, isAsciiDigit c = true) :
    withoutZeros ds = Nat.toDigits 10 (digitsValue ds) := by
  induction ds with
  | nil => rfl
  | cons c r ih =>
    obtain ⟨hc, hr⟩ := List.forall_mem_cons.mp hds
    by_cases hzero : c = '0'
    · rw [hzero]
      exact ih hr
    · have hne : ¬(c == '0') = true := fun heq => hzero (beq_iff_eq.mp heq)
      have hpos : 0 < c.toNat - 48 := by
        have hle := (isAsciiDigit_iff c).mp hc
        have hcode : c.toNat ≠ 48 := fun heq => hzero (Char.toNat_inj.mp heq)
        omega
      have hlt : c.toNat - 48 < 10 := by
        have := (isAsciiDigit_iff c).mp hc
        omega
      have hmore := toDigits_append_digits hr hpos
      rw [Nat.toDigits_of_lt_base hlt, digitChar_toNat_sub hc] at hmore
      have hvalue : digitsValue (c :: r) =
          r.foldl (fun n c => 10 * n + (c.toNat - 48)) (c.toNat - 48) := by
        rw [digitsValue, List.foldl_cons, Nat.mul_zero, Nat.zero_add]
      rw [hvalue, ← hmore, withoutZeros, List.dropWhile_cons, if_neg hne]
      rfl

theorem isAsciiDigit_of_mem_toDigits {c : Char} {n : Nat} (h : c ∈ Nat.toDigits 10 n) :
    isAsciiDigit c = true := by
  have hdigit := Nat.isDigit_of_mem_toDigits (by decide) (by decide) h
  rw [isAsciiDigit_iff]
  simpa [Char.isDigit, UInt32.le_iff_toNat_le] using hdigit

theorem isDigits_toDigits (n : Nat) : isDigits (Nat.toDigits 10 n) = true := by
  have hall : (Nat.toDigits 10 n).all isAsciiDigit = true :=
    List.all_eq_true.mpr fun c => isAsciiDigit_of_mem_toDigits
  simp [isDigits, hall, Nat.toDigits_ne_nil]

theorem toList_toString (n : Nat) : (toString n).toList = Nat.toDigits 10 n := by
  rw [Nat.toString_eq_ofList_toDigits, String.toList_ofList]

theorem digitsValue_eq (ds : List Char) : digitsValue ds = Nat.ofDigitChars 10 ds 0 := by
  rw [Nat.ofDigitChars_eq_foldl]
  rfl

theorem digitsValue_toDigits (n : Nat) : digitsValue (Nat.toDigits 10 n) = n := by
  rw [digitsValue_eq, Nat.ofDigitChars_ten_toDigits]

theorem digitsValue_lt {ds : List Char} (hds : ∀ c ∈ ds, isAsciiDigit c = true) :
    digitsValue ds < Nat.pow 10 ds.length := by
  have hfold (n : Nat) : ds.foldl (fun n c => 10 * n + (c.toNat - 48)) n <
      (n + 1) * 10 ^ ds.length := by
    induction ds generalizing n with
    | nil => simp
    | cons c r ih =>
      obtain ⟨hc, hr⟩ := List.forall_mem_cons.mp hds
      have hlt := (isAsciiDigit_iff c).mp hc
      calc r.foldl (fun n c => 10 * n + (c.toNat - 48)) (10 * n + (c.toNat - 48))
          < (10 * n + (c.toNat - 48) + 1) * 10 ^ r.length := ih hr _
        _ ≤ (n + 1) * 10 * 10 ^ r.length := Nat.mul_le_mul_right _ (by omega)
        _ = (n + 1) * 10 ^ (r.length + 1) := by rw [Nat.pow_succ, Nat.mul_assoc, Nat.mul_comm 10]
  have h := hfold 0
  rw [Nat.zero_add, Nat.one_mul] at h
  exact h

/-- Zeros in front do not count. -/
theorem digitsValue_zeros_append (n : Nat) (ds : List Char) :
    digitsValue (List.replicate n '0' ++ ds) = digitsValue ds := by
  induction n with
  | zero => rfl
  | succ n ih => exact ih

/-- A run of digits is the zeros in front and the decimal text of its number. -/
theorem zeros_append_toDigits {ds : List Char} (hds : ∀ c ∈ ds, isAsciiDigit c = true)
    (hne : ds ≠ []) :
    List.replicate (ds.length - (Nat.toDigits 10 (digitsValue ds)).length) '0' ++
      Nat.toDigits 10 (digitsValue ds) = ds := by
  rw [← withoutZeros_eq hds]
  clear hds
  induction ds with
  | nil => exact absurd rfl hne
  | cons c r ih =>
    by_cases hzero : c = '0'
    · cases r with
      | nil => rw [hzero]; rfl
      | cons d r =>
        have hskip : withoutZeros (c :: d :: r) = withoutZeros (d :: r) := by rw [hzero]; rfl
        have hrest := ih (List.cons_ne_nil d r)
        have hle : (withoutZeros (d :: r)).length ≤ (d :: r).length := by
          have := congrArg List.length hrest
          rw [List.length_append, List.length_replicate] at this
          omega
        rw [hskip, List.length_cons, Nat.succ_sub hle, List.replicate_succ, List.cons_append, hrest,
          hzero]
    · have hkeep : withoutZeros (c :: r) = c :: r := by
        rw [withoutZeros, List.dropWhile_cons, if_neg (by simpa using hzero)]
      rw [hkeep, Nat.sub_self]
      rfl

/-! ### Reading a numeral -/

theorem digitValue?_of_isAsciiDigit {c : Char} (h : isAsciiDigit c = true) :
    digitValue? c = some (c.toNat - 48) := by
  have hc := (isAsciiDigit_iff c).mp h
  have hfirst : (decide (0x30 ≤ c.toNat) && decide (c.toNat < 0x30 + 10)) = true := by
    rw [Bool.and_eq_true, decide_eq_true_iff, decide_eq_true_iff]
    omega
  have hzeros : zeros = 0x30 :: zeros.tail := rfl
  rw [digitValue?, hzeros, List.find?_cons, hfirst]
  rfl

theorem asciiDigits_eq {cs : List Char} (hcs : ∀ c ∈ cs, isAsciiDigit c = true) :
    asciiDigits cs = cs := by
  rw [asciiDigits]
  refine (List.map_congr_left fun c hc => ?_).trans (List.map_id cs)
  have hle := (isAsciiDigit_iff c).mp (hcs c hc)
  rw [digitValue?_of_isAsciiDigit (hcs c hc)]
  show Char.ofNat (48 + (c.toNat - 48)) = c
  rw [Nat.add_sub_cancel' hle.1, Char.ofNat_toNat]

end Text

namespace Whole

open Text

theorem isNumeralBlank_eq_false {c : Char} (hc : isAsciiDigit c = true) :
    isNumeralBlank c = false := by
  have hblank : isBlank c = false := by
    rw [Bool.eq_false_iff]
    intro hblank
    exact absurd hc (Bool.eq_false_iff.mp (not_isAsciiDigit_of_isBlank hblank))
  rw [isNumeralBlank, hblank, Bool.false_and]

theorem dropWhile_isNumeralBlank {cs : List Char} (hcs : ∀ c ∈ cs, isAsciiDigit c = true) :
    cs.dropWhile isNumeralBlank = cs := by
  cases cs with
  | nil => rfl
  | cons c r =>
    have hc := isNumeralBlank_eq_false (hcs c List.mem_cons_self)
    rw [List.dropWhile_cons, hc, if_neg Bool.false_ne_true]

theorem trimNumeral_eq {cs : List Char} (hcs : ∀ c ∈ cs, isAsciiDigit c = true) :
    trimNumeral cs = cs := by
  have hreverse : ∀ c ∈ cs.reverse, isAsciiDigit c = true := fun c hc =>
    hcs c (List.mem_reverse.mp hc)
  rw [trimNumeral, dropWhile_isNumeralBlank hcs, dropWhile_isNumeralBlank hreverse,
    List.reverse_reverse]

theorem groupedDigits?_eq {cs : List Char} (hne : cs ≠ [])
    (hcs : ∀ c ∈ cs, isAsciiDigit c = true) : groupedDigits? cs = some cs := by
  fun_induction groupedDigits? cs with
  | case1 => exact absurd rfl hne
  | case2 c hc => rfl
  | case3 c hc => exact absurd (hcs c List.mem_cons_self) hc
  | case4 c r hc ih =>
    have hunderscore := hcs '_' (by simp)
    exact absurd hunderscore (by decide)
  | case5 c r hc => exact absurd (hcs c List.mem_cons_self) hc
  | case6 c d r hd hc ih =>
    rw [ih (List.cons_ne_nil d r) (List.forall_mem_cons.mp hcs).2]
    rfl
  | case7 c d r hd hc => exact absurd (hcs c List.mem_cons_self) hc

/-- A run of ASCII digits is read as the number that it writes. -/
theorem ofText_digits (shown : String) {cs : List Char} (hcs : isDigits cs = true)
    (hle : cs.length ≤ maxDigits) : ofText shown cs = .ok (digitsValue cs : Int) := by
  obtain ⟨hempty, hall⟩ := Bool.and_eq_true_iff.mp hcs
  have hdigits := List.all_eq_true.mp hall
  have hne : cs ≠ [] := by
    rintro rfl
    cases hempty
  have hgrouped := groupedDigits?_eq hne hdigits
  obtain ⟨c, r, rfl⟩ := List.exists_cons_of_ne_nil hne
  -- No digit is a sign.
  have hminus : c ≠ '-' := by
    rintro rfl
    exact absurd (hdigits '-' List.mem_cons_self) (by decide)
  have hplus : c ≠ '+' := by
    rintro rfl
    exact absurd (hdigits '+' List.mem_cons_self) (by decide)
  simpa [ofText, trimNumeral_eq hdigits, asciiDigits_eq hdigits, hminus, hplus, hgrouped] using hle

end Whole
end QueryGate
