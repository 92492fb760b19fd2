import QueryGate.Proofs.Text.Collapse

/-!
# Letter case of single characters and of texts

Lowering a text moves no blank and makes none, so it does not matter whether a text is lowered or
collapsed first.  Folding takes few characters to ASCII letters, all of them word characters.
-/

namespace QueryGate
namespace Text

/-! ### Characters that are moved -/

theorem toNat_ofNat_of_ne_zero {n : Nat} (h : (Char.ofNat n).toNat ≠ 0) :
    (Char.ofNat n).toNat = n := by
  by_cases hn : n.isValidChar
  · rw [Char.ofNat, dif_pos hn]
    rfl
  · rw [Char.ofNat, dif_neg hn] at h
    exact absurd rfl h

theorem toNat_shiftChar {c : Char} {shift : Int} (h : (shiftChar c shift).toNat ≠ 0) :
    ((shiftChar c shift).toNat : Int) = c.toNat + shift := by
  unfold shiftChar at h ⊢
  have hcode := toNat_ofNat_of_ne_zero h
  omega

theorem lowerChar_of_not_ascii {c : Char} (h : 128 ≤ c.toNat) :
    lowerChar c = shiftChar c (shiftOf lowerRuns c.toNat) := by
  rw [lowerChar, if_neg (by omega)]

/-- Beyond ASCII only the sign for kelvin lowers to an ASCII letter. -/
theorem lowerRuns_beyond_ascii :
    ∀ r ∈ lowerRuns, 128 ≤ r.1 + r.2.2.2 ∨ r.1 = 0x212A ∧ r.2.1 = 0x212A := by
  decide +kernel

theorem shiftChar_zero (c : Char) : shiftChar c 0 = c := by
  simp [shiftChar]

/-- A code point that a list of runs moves lies in one of the runs. -/
theorem shiftOf_eq (runs : List (Nat × Nat × Nat × Int)) (n : Nat) :
    shiftOf runs n = 0 ∨ ∃ r ∈ runs, r.1 ≤ n ∧ n ≤ r.2.1 ∧ shiftOf runs n = r.2.2.2 := by
  unfold shiftOf
  split
  · rename_i r hr
    have hfound := List.find?_some hr
    simp only [Bool.and_eq_true, decide_eq_true_eq] at hfound
    exact Or.inr ⟨r, List.mem_of_find?_eq_some hr, hfound.1.1, hfound.1.2, rfl⟩
  · exact Or.inl rfl

/-- A character beyond ASCII stays as it is, or one of the runs moves it. -/
theorem lowerChar_cases {c : Char} (hc : 128 ≤ c.toNat) (hsmall : (lowerChar c).toNat ≠ 0) :
    lowerChar c = c ∨ ∃ r ∈ lowerRuns,
      r.1 ≤ c.toNat ∧ c.toNat ≤ r.2.1 ∧ ((lowerChar c).toNat : Int) = c.toNat + r.2.2.2 := by
  rw [lowerChar_of_not_ascii hc] at hsmall ⊢
  rcases shiftOf_eq lowerRuns c.toNat with hzero | ⟨r, hr, hlow, hhigh, hshift⟩
  · rw [hzero]
    exact Or.inl (shiftChar_zero c)
  · have hmoved := toNat_shiftChar hsmall
    rw [hshift] at hmoved ⊢
    exact Or.inr ⟨r, hr, hlow, hhigh, hmoved⟩

/-- A character beyond ASCII that lowers to ASCII is the sign for kelvin. -/
theorem toNat_eq_kelvin {c : Char} (hc : 128 ≤ c.toNat) (hsmall : (lowerChar c).toNat ≠ 0)
    (h : (lowerChar c).toNat < 128) : c.toNat = 0x212A := by
  rcases lowerChar_cases hc hsmall with heq | ⟨r, hr, hlow, hhigh, hmoved⟩
  · rw [heq] at h
    omega
  · have := lowerRuns_beyond_ascii r hr
    omega

/-- What holds of the first 128 characters holds of every ASCII character. -/
theorem forall_ascii {p : Char → Prop} (h : ∀ n, n < 128 → p (Char.ofNat n)) {c : Char}
    (hc : c.toNat < 128) : p c := by
  have := h c.toNat hc
  rwa [Char.ofNat_toNat] at this

theorem toLower_of_not_ascii {c : Char} (h : 128 ≤ c.toNat) : c.toLower = c := by
  unfold Char.toLower
  split
  · rename_i hupper
    have hcode : c.toNat ≤ 90 := UInt32.le_iff_toNat_le.mp hupper.2
    omega
  · rfl

/-- What a text is searched, compared and split by in a character. -/
structure Traits where
  blank : Bool
  wordChar : Bool
  digit : Bool
  passed : Bool
  cased : Bool
  small : Char
  capital : List Char
  deriving DecidableEq

/-- The traits of a character. -/
def traits (c : Char) : Traits where
  blank := isBlank c
  wordChar := isWordChar c
  digit := isAsciiDigit c
  passed := inSpans passedSpans c.toNat
  cased := inSpans casedSpans c.toNat
  small := c.toLower
  capital := upperChar c

/-- A character and its small letter have the same traits. -/
theorem traits_toLower (c : Char) : traits c.toLower = traits c := by
  by_cases hc : c.toNat < 128
  · exact forall_ascii (p := fun c => traits c.toLower = traits c) (by decide +kernel) hc
  · rw [toLower_of_not_ascii (by omega)]

theorem isBlank_toLower (c : Char) : isBlank c.toLower = isBlank c :=
  congrArg Traits.blank (traits_toLower c)

theorem isWordChar_toLower (c : Char) : isWordChar c.toLower = isWordChar c :=
  congrArg Traits.wordChar (traits_toLower c)

theorem isAsciiDigit_toLower (c : Char) : isAsciiDigit c.toLower = isAsciiDigit c :=
  congrArg Traits.digit (traits_toLower c)

/-! ### Lowering and collapsing -/

/-- No blank has a case. -/
theorem caseless_of_isBlank {c : Char} (h : isBlank c = true) :
    lowerChar c = c ∧ inSpans passedSpans c.toNat = false ∧ inSpans casedSpans c.toNat = false :=
  forall_isBlank (p := fun c => lowerChar c = c ∧ inSpans passedSpans c.toNat = false ∧
    inSpans casedSpans c.toNat = false) (by decide +kernel) h

theorem lowerChar_of_isBlank {c : Char} (h : isBlank c = true) : lowerChar c = c :=
  (caseless_of_isBlank h).1

/-- An ASCII character folds to its small letter, which is one. -/
theorem toLower_of_ascii {c : Char} (hc : c.toNat < 128) :
    fold c = c.toLower ∧ c.toLower.toNat < 128 :=
  forall_ascii (p := fun c => fold c = c.toLower ∧ c.toLower.toNat < 128) (by decide +kernel) hc

theorem isBlank_lowerChar (c : Char) : isBlank (lowerChar c) = isBlank c := by
  cases hc : isBlank c with
  | true => rw [lowerChar_of_isBlank hc, hc]
  | false =>
    rw [Bool.eq_false_iff]
    intro hblank
    by_cases hascii : c.toNat < 128
    · rw [lowerChar, if_pos hascii, isBlank_toLower, hc] at hblank
      cases hblank
    · have hcode := toNat_mem_of_isBlank hblank
      have hsmall : (lowerChar c).toNat ≠ 0 := by
        intro hzero
        rw [hzero] at hcode
        revert hcode
        decide
      rcases lowerChar_cases (by omega) hsmall with heq | ⟨r, hr, hlow, hhigh, hmoved⟩
      · rw [heq, hc] at hblank
        cases hblank
      · have hnone : ∀ r ∈ lowerRuns, ∀ n ∈ blankCodes,
            (n : Int) < r.1 + r.2.2.2 ∨ r.2.1 + r.2.2.2 < (n : Int) := by decide +kernel
        have := hnone r hr _ hcode
        omega

theorem not_isBlank_lowerSigma (before after : List Char) :
    isBlank (lowerSigma before after) = false := by
  unfold lowerSigma
  split <;> decide

theorem startsBlank_lowerFrom (before cs : List Char) :
    startsBlank (lowerFrom before cs) = startsBlank cs := by
  cases cs with
  | nil => rfl
  | cons c r =>
    rw [lowerFrom]
    split
    · rename_i hsigma
      rw [startsBlank, startsBlank, not_isBlank_lowerSigma, hsigma]
      decide
    split
    · rename_i hdotted
      rw [startsBlank, startsBlank, hdotted]
      decide
    · exact isBlank_lowerChar c

theorem metCased_of_startsBlank {cs : List Char} (h : startsBlank cs = true) :
    metCased cs = false := by
  cases cs with
  | nil => rfl
  | cons c r =>
    have hc : isBlank c = true := h
    obtain ⟨_, hpassed, hcased⟩ := caseless_of_isBlank hc
    simp [metCased, hpassed, hcased]

theorem metCased_cons (c : Char) {a b : List Char} (h : metCased a = metCased b) :
    metCased (c :: a) = metCased (c :: b) := by
  rw [metCased, metCased, h]

theorem metCased_collapse (cs : List Char) : metCased (collapse cs) = metCased cs := by
  induction cs with
  | nil => rfl
  | cons c r ih =>
    cases hc : isBlank c with
    | false => rw [collapse_of_not_isBlank hc, metCased_cons c ih]
    | true =>
      have hstart : startsBlank (c :: r) = true := hc
      rw [metCased_of_startsBlank hstart, metCased_of_startsBlank (by rwa [startsBlank_collapse])]

theorem lowerFrom_of_isBlank {c : Char} (h : isBlank c = true) (before r : List Char) :
    lowerFrom before (c :: r) = c :: lowerFrom (c :: before) r := by
  have hsigma : c ≠ '\u03a3' := ne_of_isBlank h (by decide)
  have hdotted : c ≠ '\u0130' := ne_of_isBlank h (by decide)
  rw [lowerFrom, if_neg hsigma, if_neg hdotted, lowerChar_of_isBlank h]

/-- Lowering keeps the blanks of a text. -/
theorem mem_lower_of_isBlank {c : Char} (hblank : isBlank c = true) {cs : List Char} (h : c ∈ cs) :
    c ∈ lower cs := by
  have within (before : List Char) : c ∈ lowerFrom before cs := by
    induction cs generalizing before with
    | nil => cases h
    | cons x r ih =>
      rcases List.mem_cons.mp h with rfl | h
      · rw [lowerFrom_of_isBlank hblank]
        exact List.mem_cons_self
      · rw [lowerFrom]
        split
        · exact List.mem_cons_of_mem _ (ih h _)
        · split
          · exact List.mem_cons_of_mem _ (List.mem_cons_of_mem _ (ih h _))
          · exact List.mem_cons_of_mem _ (ih h _)
  exact within []

/-- Of what stands in front of a text only the letter that a sigma would meet matters, and nothing
if the text starts with a blank. -/
theorem lowerFrom_collapse (cs : List Char) {a b : List Char}
    (h : startsBlank cs = true ∨ metCased a = metCased b) :
    lowerFrom a (collapse cs) = collapse (lowerFrom b cs) := by
  induction cs generalizing a b with
  | nil => rfl
  | cons c r ih =>
    cases hc : isBlank c with
    | true =>
      have hspace : isBlank ' ' = true := by decide
      rw [collapse_of_isBlank hc, lowerFrom_of_isBlank hc, collapse_of_isBlank hc,
        startsBlank_lowerFrom]
      split
      · rename_i hr
        exact ih (Or.inl hr)
      · rw [lowerFrom_of_isBlank hspace, ih (b := c :: b)]
        right
        rw [metCased_of_startsBlank (show startsBlank (' ' :: a) = true from hspace),
          metCased_of_startsBlank (show startsBlank (c :: b) = true from hc)]
    | false =>
      have hmet : metCased a = metCased b := by
        refine h.resolve_left ?_
        rw [startsBlank, hc]
        decide
      have hrest := ih (a := c :: a) (b := c :: b) (Or.inr (metCased_cons c hmet))
      rw [collapse_of_not_isBlank hc, lowerFrom, lowerFrom]
      split
      · have hsigma : lowerSigma a (collapse r) = lowerSigma b r := by
          rw [lowerSigma, lowerSigma, hmet, metCased_collapse]
        rw [hsigma, hrest, collapse_of_not_isBlank (not_isBlank_lowerSigma b r)]
      split
      · rw [hrest, collapse_of_not_isBlank (by decide), collapse_of_not_isBlank (by decide)]
      · rw [hrest, collapse_of_not_isBlank (by rw [isBlank_lowerChar, hc])]

/-- A text can be collapsed before or after it is lowered. -/
theorem lower_collapse (cs : List Char) : lower (collapse cs) = collapse (lower cs) :=
  lowerFrom_collapse cs (Or.inr rfl)

/-! ### Folding -/

theorem fold_of_ascii {c : Char} (hc : c.toNat < 128) : fold c = c.toLower :=
  (toLower_of_ascii hc).1

/-- The characters beyond ASCII that fold to ASCII letters: the dotted and the dotless I, the long S
and the sign for kelvin. -/
def foldingToAscii : List Nat := [0x130, 0x131, 0x17F, 0x212A]

theorem toNat_mem_of_fold {c : Char} (hc : 128 ≤ c.toNat) (hne : (fold c).toNat ≠ 0)
    (h : (fold c).toNat < 128) : c.toNat ∈ foldingToAscii := by
  by_cases hdotted : c = '\u0130'
  · rw [hdotted]
    decide
  simp only [fold, if_neg hdotted] at hne h
  split at h
  · rename_i n hlookup
    rw [hlookup] at hne
    obtain ⟨front, back, hpairs, _⟩ := List.lookup_eq_some_iff.mp hlookup
    have hmem : ((lowerChar c).toNat, n) ∈ foldPairs := by
      rw [hpairs]
      simp
    have hpair : ∀ p ∈ foldPairs, (Char.ofNat p.2).toNat < 128 →
        p.1 ∈ foldingToAscii ∧ p.1 ≠ 0 ∧
          ∀ r ∈ lowerRuns, (p.1 : Int) < r.1 + r.2.2.2 ∨ r.2.1 + r.2.2.2 < (p.1 : Int) := by
      decide +kernel
    obtain ⟨hlisted, hsmall, hnone⟩ := hpair _ hmem h
    rcases lowerChar_cases hc hsmall with heq | ⟨r, hr, hlow, hhigh, hmoved⟩
    · rwa [heq] at hlisted
    · have := hnone r hr
      dsimp only at this
      omega
  · rename_i hlookup
    rw [hlookup] at hne
    rw [toNat_eq_kelvin hc hne h]
    decide

/-- What is the same letter as an ASCII word character is a word character. -/
theorem isWordChar_of_sameLetter {k c : Char} (hk : k.toNat < 128) (hw : isWordChar k = true)
    (h : sameLetter k c = true) : isWordChar c = true := by
  have hfold : k.toLower = fold c := by
    rw [← fold_of_ascii hk]
    exact eq_of_beq h
  have hword : isWordChar (fold c) = true := by rw [← hfold, isWordChar_toLower, hw]
  by_cases hc : c.toNat < 128
  · rwa [fold_of_ascii hc, isWordChar_toLower] at hword
  · obtain ⟨_, hlower⟩ := toLower_of_ascii hk
    have hne : (fold c).toNat ≠ 0 := by
      intro hzero
      have hnul : fold c = Char.ofNat 0 := by rw [← hzero, Char.ofNat_toNat]
      rw [hnul] at hword
      revert hword
      decide
    have hmem := toNat_mem_of_fold (by omega) hne (by rwa [← hfold])
    have hall : ∀ n ∈ foldingToAscii, isWordChar (Char.ofNat n) = true := by decide +kernel
    have := hall _ hmem
    rwa [Char.ofNat_toNat] at this

section WordLetter

variable {k c : Char} (hk : k.toNat < 128)
include hk

theorem not_sameLetter_of_not_isWordChar (hw : isWordChar k = true) (hc : isWordChar c = false) :
    sameLetter k c = false := by
  rw [← Bool.not_eq_true]
  intro hsame
  rw [isWordChar_of_sameLetter hk hw hsame] at hc
  cases hc

theorem not_sameLetter_of_isBlank (hw : isWordChar k = true) (hc : isBlank c = true) :
    sameLetter k c = false :=
  not_sameLetter_of_not_isWordChar hk hw (not_isWordChar_of_isBlank hc)

theorem not_sameLetter_of_isAsciiDigit (hd : isAsciiDigit k = false) (hc : isAsciiDigit c = true) :
    sameLetter k c = false := by
  have hsmall : c.toNat < 128 := by
    have := (isAsciiDigit_iff c).mp hc
    omega
  rw [sameLetter, fold_of_ascii hk, fold_of_ascii hsmall]
  refine beq_false_of_ne ?_
  intro heq
  have hlower : isAsciiDigit k.toLower = isAsciiDigit c.toLower := by rw [heq]
  rw [isAsciiDigit_toLower, isAsciiDigit_toLower, hd, hc] at hlower
  cases hlower

end WordLetter

end Text
end QueryGate
