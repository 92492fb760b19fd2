import QueryGate.Proofs.Text.Case
import QueryGate.Text.Digit

/-!
# Word characters and digits under lowering

The small form of a word character is one again, so a word that a text starts with is there in the
lowered text too; and lowering moves no digit of any script.
-/

namespace QueryGate
namespace Text

/-! ### Word characters -/

/-- Whether one span of an ascending list holds all code points from `first` to `last`. -/
def spanHolds : List (Nat × Nat) → Nat → Nat → Bool
  | [], _, _ => false
  | (low, high) :: rest, first, last =>
    if first ≤ high then decide (low ≤ first) && decide (last ≤ high) else spanHolds rest first last

theorem inSpans_of_spanHolds {spans : List (Nat × Nat)} {first last n : Nat}
    (h : spanHolds spans first last = true) (hfirst : first ≤ n) (hlast : n ≤ last) :
    inSpans spans n = true := by
  induction spans with
  | nil => cases h
  | cons span rest ih =>
    obtain ⟨low, high⟩ := span
    rw [spanHolds] at h
    rw [inSpans]
    split at h
    · simp only [Bool.and_eq_true, decide_eq_true_eq] at h
      rw [if_pos (by omega)]
      exact decide_eq_true (by omega)
    · rw [if_neg (by omega)]
      exact ih h

/-- But for the sign for kelvin and the letters in circles, the small forms of a run lie in one span
of word characters. -/
theorem lowerRuns_wordChars : ∀ r ∈ lowerRuns, r.1 = 0x212A ∧ r.2.1 = 0x212A ∨
    r.1 = 0x24B6 ∧ r.2.1 = 0x24CF ∨
    128 ≤ r.1 + r.2.2.2 ∧ (r.2.1 + r.2.2.2 < 0xD800 ∨
      0xDFFF < r.1 + r.2.2.2 ∧ r.2.1 + r.2.2.2 < 0x110000) ∧
    spanHolds wideWordSpans (r.1 + r.2.2.2).toNat (r.2.1 + r.2.2.2).toNat = true := by
  decide +kernel

/-- Letters in circles are no word characters. -/
theorem not_isWordChar_circled {c : Char} (hlow : 0x24B6 ≤ c.toNat) (hhigh : c.toNat ≤ 0x24CF) :
    isWordChar c = false := by
  have hnone : ∀ n, n < 26 → inSpans wideWordSpans (0x24B6 + n) = false := by decide +kernel
  have hcode := hnone (c.toNat - 0x24B6) (by omega)
  rw [show 0x24B6 + (c.toNat - 0x24B6) = c.toNat by omega] at hcode
  rw [isWordChar, if_neg (by omega), hcode]

theorem toNat_ofNat_of_isValidChar {n : Nat} (h : n.isValidChar) : (Char.ofNat n).toNat = n := by
  rw [Char.ofNat, dif_pos h]
  rfl

theorem isWordChar_lowerChar {c : Char} (h : isWordChar c = true) :
    isWordChar (lowerChar c) = true := by
  by_cases hascii : c.toNat < 128
  · rw [lowerChar, if_pos hascii, isWordChar_toLower, h]
  rw [lowerChar_of_not_ascii (by omega)]
  rcases shiftOf_eq lowerRuns c.toNat with hzero | ⟨r, hr, hlow, hhigh, hshift⟩
  · rwa [hzero, shiftChar_zero]
  rw [hshift]
  rcases lowerRuns_wordChars r hr with ⟨hfirst, hlast⟩ | ⟨hfirst, hlast⟩ | ⟨hwide, hvalid, hspan⟩
  · have hkelvin : c = '\u212a' := by
      rw [← Char.ofNat_toNat c, show c.toNat = 0x212A by omega]
    have hrun : ∀ r ∈ lowerRuns, r.1 = 0x212A → isWordChar (shiftChar '\u212a' r.2.2.2) = true := by
      decide +kernel
    rw [hkelvin]
    exact hrun r hr hfirst
  · rw [not_isWordChar_circled (by omega) (by omega)] at h
    cases h
  · have hcode : (shiftChar c r.2.2.2).toNat = ((c.toNat : Int) + r.2.2.2).toNat := by
      apply toNat_ofNat_of_isValidChar
      rcases hvalid with hvalid | hvalid
      · left
        omega
      · right
        omega
    rw [isWordChar, hcode, if_neg (by omega)]
    exact inSpans_of_spanHolds hspan (by omega) (by omega)

/-- A text that starts with a word character does so when it is lowered. -/
theorem isWordChar?_head?_lower {cs : List Char} (h : isWordChar? cs.head? = true) :
    isWordChar? (lower cs).head? = true := by
  cases cs with
  | nil => cases h
  | cons c r =>
    rw [lower, lowerFrom]
    split
    · have hsmall : isWordChar '\u03c2' = true ∧ isWordChar '\u03c3' = true := by decide +kernel
      rw [List.head?_cons, lowerSigma]
      split
      · exact hsmall.1
      · exact hsmall.2
    split
    · exact (by decide : isWordChar 'i' = true)
    · exact isWordChar_lowerChar h

/-! ### Digits -/

theorem lowerRuns_digits : ∀ z ∈ zeros, ∀ r ∈ lowerRuns, r.2.1 < z ∨ z + 9 < r.1 := by
  decide +kernel

/-- No digit of any script has a case. -/
theorem lowerChar_of_digitValue? {c : Char} {d : Nat} (h : digitValue? c = some d) :
    lowerChar c = c := by
  obtain ⟨z, hfind, _⟩ := Option.map_eq_some_iff.mp h
  have hcode := List.find?_some hfind
  simp only [Bool.and_eq_true, decide_eq_true_eq] at hcode
  by_cases hascii : c.toNat < 128
  · exact forall_ascii (p := fun c => digitValue? c ≠ none → lowerChar c = c) (by decide +kernel)
      hascii (by rw [h]; simp)
  · rw [lowerChar_of_not_ascii (by omega)]
    rcases shiftOf_eq lowerRuns c.toNat with hzero | ⟨r, hr, hlow, hhigh, _⟩
    · rw [hzero, shiftChar_zero]
    · have := lowerRuns_digits z (List.mem_of_find?_eq_some hfind) r hr
      omega

theorem getLast?_lowerFrom {c : Char} (hsigma : c ≠ '\u03a3') (hdotted : c ≠ '\u0130')
    (before cs : List Char) : (lowerFrom before (cs ++ [c])).getLast? = some (lowerChar c) := by
  induction cs generalizing before with
  | nil => rw [List.nil_append, lowerFrom, if_neg hsigma, if_neg hdotted]; rfl
  | cons d cs ih =>
    rw [List.cons_append, lowerFrom]
    split
    · rw [List.getLast?_cons, ih, Option.getD_some]
    split
    · rw [List.getLast?_cons, List.getLast?_cons, ih, Option.getD_some, Option.getD_some]
    · rw [List.getLast?_cons, ih, Option.getD_some]

/-- A digit of any script at the end of a text is there when the text is lowered. -/
theorem getLast?_lower_of_digitValue? {cs : List Char} {c : Char} {d : Nat}
    (hc : cs.getLast? = some c) (h : digitValue? c = some d) : (lower cs).getLast? = some c := by
  obtain ⟨cs, rfl⟩ := List.getLast?_eq_some_iff.mp hc
  have hcased : digitValue? '\u03a3' = none ∧ digitValue? '\u0130' = none := by decide
  have hsigma : c ≠ '\u03a3' := by
    rintro rfl
    rw [hcased.1] at h
    cases h
  have hdotted : c ≠ '\u0130' := by
    rintro rfl
    rw [hcased.2] at h
    cases h
  rw [lower, getLast?_lowerFrom hsigma hdotted, lowerChar_of_digitValue? h]

end Text
end QueryGate
