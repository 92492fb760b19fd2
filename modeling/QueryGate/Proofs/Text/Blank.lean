import QueryGate.Sql.Lexer

/-!
# Blanks and the characters of tokens

No blank is a digit, a letter, a quote or any other character that a token can go on with, so a
blank always ends the run of such characters in front of it.
-/

namespace QueryGate
namespace Text

theorem toNat_of_isBlank {c : Char} (h : isBlank c = true) :
    (9 ≤ c.toNat ∧ c.toNat ≤ 13) ∨ (28 ≤ c.toNat ∧ c.toNat ≤ 32) ∨ 133 ≤ c.toNat := by
  simp only [isBlank, Bool.or_eq_true, Bool.and_eq_true, decide_eq_true_eq, beq_iff_eq] at h
  omega

theorem eq_false_of_all {p : Char → Bool} {cs : List Char} (h : cs.all (!p ·) = true) :
    ∀ c ∈ cs, p c = false := by
  simpa using h

theorem isAsciiDigit_iff (c : Char) : isAsciiDigit c = true ↔ 48 ≤ c.toNat ∧ c.toNat ≤ 57 := by
  simp [isAsciiDigit, Char.le_def, UInt32.le_iff_toNat_le]

theorem not_isAsciiDigit_of_isBlank {c : Char} (h : isBlank c = true) : isAsciiDigit c = false := by
  have hb := toNat_of_isBlank h
  rw [Bool.eq_false_iff, ne_eq, isAsciiDigit_iff]
  omega

theorem isAlpha_iff (c : Char) :
    c.isAlpha = true ↔ (65 ≤ c.toNat ∧ c.toNat ≤ 90) ∨ (97 ≤ c.toNat ∧ c.toNat ≤ 122) := by
  change (decide ('A'.val ≤ c.val ∧ c.val ≤ 'Z'.val) ||
    (decide ('a'.val ≤ c.val) && decide (c.val ≤ 'z'.val))) = true ↔ _
  simp [UInt32.le_iff_toNat_le]

theorem toNat_of_isAlphanum {c : Char} (h : c.isAlphanum = true) :
    (48 ≤ c.toNat ∧ c.toNat ≤ 57) ∨ (65 ≤ c.toNat ∧ c.toNat ≤ 90) ∨
      (97 ≤ c.toNat ∧ c.toNat ≤ 122) := by
  rw [Char.isAlphanum, Bool.or_eq_true, isAlpha_iff] at h
  rcases h with hletter | hdigit
  · exact Or.inr hletter
  · simp [Char.isDigit, UInt32.le_iff_toNat_le] at hdigit
    exact Or.inl hdigit

theorem not_isAlphanum_of_isBlank {c : Char} (h : isBlank c = true) : c.isAlphanum = false := by
  rw [Bool.eq_false_iff]
  intro hc
  have hb := toNat_of_isBlank h
  have ha := toNat_of_isAlphanum hc
  omega

/-- A blank is none of the characters that are listed. -/
theorem ne_of_isBlank {c d : Char} (h : isBlank c = true) (hd : isBlank d = false) : c ≠ d := by
  rintro rfl
  rw [h] at hd
  exact Bool.noConfusion hd

theorem not_isWordPart_of_isBlank {c : Char} (h : isBlank c = true) :
    Sql.isWordPart c = false := by
  simp [Sql.isWordPart, not_isAlphanum_of_isBlank h, ne_of_isBlank h (d := '_') (by decide),
    ne_of_isBlank h (d := '$') (by decide)]

theorem isWordPart_of_isWordStart {c : Char} (h : Sql.isWordStart c = true) :
    Sql.isWordPart c = true := by
  simp only [Sql.isWordStart, Bool.or_eq_true] at h
  simp only [Sql.isWordPart, Char.isAlphanum, Bool.or_eq_true]
  exact Or.inl (h.imp Or.inl id)

/-- A text has a line break at its end or none that counts. -/
theorem eq_of_withoutLineBreak (cs : List Char) :
    withoutLineBreak cs = cs ∨ cs = withoutLineBreak cs ++ ['\n'] := by
  unfold withoutLineBreak
  split
  · rename_i r hr
    right
    rw [← List.reverse_reverse cs, hr, List.reverse_cons]
  · exact Or.inl rfl

/-- Whether a text is empty or starts with a blank, so that it continues no token in front. -/
def breaksOff (cs : List Char) : Bool := cs.isEmpty || startsBlank cs

theorem isBlank_of_breaksOff {c : Char} {r : List Char} (h : breaksOff (c :: r) = true) :
    isBlank c = true := by
  simpa [breaksOff, startsBlank] using h

section BreaksOff

variable {p : Char → Bool} {b : List Char}

theorem takeWhile_append_of_breaksOff (hp : ∀ c, isBlank c = true → p c = false)
    (hb : breaksOff b = true) (r : List Char) : (r ++ b).takeWhile p = r.takeWhile p := by
  induction r with
  | nil =>
    cases b with
    | nil => rfl
    | cons c b => simp [hp c (isBlank_of_breaksOff hb)]
  | cons c r ih =>
    rw [List.cons_append, List.takeWhile_cons, List.takeWhile_cons, ih]

theorem dropWhile_append_of_breaksOff (hp : ∀ c, isBlank c = true → p c = false)
    (hb : breaksOff b = true) (r : List Char) : (r ++ b).dropWhile p = r.dropWhile p ++ b := by
  induction r with
  | nil =>
    cases b with
    | nil => rfl
    | cons c b => simp [hp c (isBlank_of_breaksOff hb)]
  | cons c r ih =>
    rw [List.cons_append, List.dropWhile_cons, List.dropWhile_cons]
    split
    · exact ih
    · rfl

end BreaksOff

end Text
end QueryGate
