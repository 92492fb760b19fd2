import QueryGate.Proofs.Text.Case
import QueryGate.Text.Digit
import QueryGate.Text.WordSearch

/-!
# Texts that differ in letter case only

`Char.toLower` moves the capital letters of ASCII and nothing else, so two texts differ in the case
of ASCII letters only just when they become the same by it.  Blanks and word characters stay where
they are, and every form in which texts are compared, in lower case, in upper case or folded,
forgets the difference.
-/

namespace QueryGate
namespace Text

/-! ### Characters -/

theorem toLower_toLower (c : Char) : c.toLower.toLower = c.toLower :=
  congrArg Traits.small (traits_toLower c)

theorem upperChar_toLower (c : Char) : upperChar c.toLower = upperChar c :=
  congrArg Traits.capital (traits_toLower c)

theorem lowerChar_toLower (c : Char) : lowerChar c.toLower = lowerChar c := by
  by_cases hc : c.toNat < 128
  · rw [lowerChar, lowerChar, if_pos hc, if_pos (toLower_of_ascii hc).2, toLower_toLower]
  · rw [toLower_of_not_ascii (by omega)]

theorem fold_toLower (c : Char) : fold c.toLower = fold c := by
  by_cases hc : c.toNat < 128
  · rw [fold_of_ascii hc, fold_of_ascii (toLower_of_ascii hc).2, toLower_toLower]
  · rw [toLower_of_not_ascii (by omega)]

/-- A character that is moved is a letter, and so is what it is moved to. -/
theorem toLower_cases (c : Char) :
    c.toLower = c ∨ c.isAlpha = true ∧ c.toLower.isAlpha = true := by
  unfold Char.toLower
  split
  · rename_i hupper
    right
    have hlow : 65 ≤ c.toNat := UInt32.le_iff_toNat_le.mp hupper.1
    have hhigh : c.toNat ≤ 90 := UInt32.le_iff_toNat_le.mp hupper.2
    simp [isAlpha_iff]
    omega
  · exact Or.inl rfl

theorem toLower_eq_iff {c d : Char} (hd : d.isAlpha = false) : c.toLower = d ↔ c = d := by
  rcases toLower_cases c with hsame | ⟨hc, hlower⟩
  · rw [hsame]
  · constructor
    · rintro rfl
      rw [hd] at hlower
      cases hlower
    · rintro rfl
      rw [hd] at hc
      cases hc

theorem toLower_of_not_isAlpha {c : Char} (h : c.isAlpha = false) : c.toLower = c :=
  (toLower_eq_iff h).mpr rfl

theorem toLower_of_isAsciiDigit {c : Char} (h : isAsciiDigit c = true) : c.toLower = c := by
  apply toLower_of_not_isAlpha
  rw [Bool.eq_false_iff]
  intro halpha
  have hdigit := (isAsciiDigit_iff c).mp h
  have hletter := (isAlpha_iff c).mp halpha
  omega

/-! ### Blanks -/

theorem startsBlank_map_toLower (cs : List Char) :
    startsBlank (cs.map Char.toLower) = startsBlank cs := by
  cases cs with
  | nil => rfl
  | cons c r => exact isBlank_toLower c

theorem trimRight_map_toLower (cs : List Char) :
    trimRight (cs.map Char.toLower) = (trimRight cs).map Char.toLower := by
  induction cs with
  | nil => rfl
  | cons c r ih =>
    rw [List.map_cons, trimRight, trimRight, ih, isBlank_toLower]
    cases trimRight r with
    | nil => cases isBlank c <;> rfl
    | cons d kept => rfl

theorem trim_map_toLower (cs : List Char) :
    trim (cs.map Char.toLower) = (trim cs).map Char.toLower := by
  have hblank : isBlank ∘ Char.toLower = isBlank := funext isBlank_toLower
  rw [trim, trim, trimLeft, trimLeft, List.dropWhile_map, hblank, trimRight_map_toLower]

theorem collapse_map_toLower (cs : List Char) :
    collapse (cs.map Char.toLower) = (collapse cs).map Char.toLower := by
  induction cs with
  | nil => rfl
  | cons c r ih =>
    rw [List.map_cons, collapse, collapse, isBlank_toLower, startsBlank_map_toLower, ih]
    split
    · split <;> rfl
    · rfl

theorem squeeze_map_toLower (cs : List Char) :
    squeeze (cs.map Char.toLower) = (squeeze cs).map Char.toLower := by
  rw [squeeze, squeeze, collapse_map_toLower, trim_map_toLower]

/-! ### Lower and upper case -/

theorem upper_map_toLower (cs : List Char) : upper (cs.map Char.toLower) = upper cs := by
  rw [upper, upper, List.flatMap_map, funext upperChar_toLower]

theorem metCased_map_toLower (cs : List Char) : metCased (cs.map Char.toLower) = metCased cs := by
  induction cs with
  | nil => rfl
  | cons c r ih =>
    have hpassed : inSpans passedSpans c.toLower.toNat = inSpans passedSpans c.toNat :=
      congrArg Traits.passed (traits_toLower c)
    have hcased : inSpans casedSpans c.toLower.toNat = inSpans casedSpans c.toNat :=
      congrArg Traits.cased (traits_toLower c)
    rw [List.map_cons, metCased, metCased, hpassed, hcased, ih]

theorem lowerFrom_map_toLower (before cs : List Char) :
    lowerFrom (before.map Char.toLower) (cs.map Char.toLower) = lowerFrom before cs := by
  induction cs generalizing before with
  | nil => rfl
  | cons c r ih =>
    have hsigma : c.toLower = '\u03a3' ↔ c = '\u03a3' := toLower_eq_iff (by decide)
    have hdotted : c.toLower = '\u0130' ↔ c = '\u0130' := toLower_eq_iff (by decide)
    simp only [List.map_cons, lowerFrom, hsigma, hdotted, lowerSigma, metCased_map_toLower,
      lowerChar_toLower, ← ih (c :: before)]

theorem lower_map_toLower (cs : List Char) : lower (cs.map Char.toLower) = lower cs :=
  lowerFrom_map_toLower [] cs

theorem lower_of_ascii {cs : List Char} (h : ∀ c ∈ cs, c.toNat < 128) :
    lower cs = cs.map Char.toLower := by
  have within (before : List Char) : lowerFrom before cs = cs.map Char.toLower := by
    induction cs generalizing before with
    | nil => rfl
    | cons c r ih =>
      obtain ⟨hc, hr⟩ := List.forall_mem_cons.mp h
      have hne (k : Char) (hk : 128 ≤ k.toNat) : c ≠ k := by
        rintro rfl
        omega
      rw [lowerFrom, if_neg (hne _ (by decide)), if_neg (hne _ (by decide)), lowerChar, if_pos hc,
        ih hr]
      rfl
  exact within []

/-- A lower-case text is its own lower-case form, if it is in ASCII. -/
theorem lower_lower_of_ascii {cs : List Char} (h : ∀ c ∈ cs, c.toNat < 128) :
    lower (lower cs) = lower cs := by
  rw [lower_of_ascii h, lower_map_toLower, lower_of_ascii h]

/-! ### Searching -/

theorem wordEdge_map_toLower (before after : Option Char) :
    wordEdge (before.map Char.toLower) (after.map Char.toLower) = wordEdge before after := by
  have hword (c? : Option Char) : isWordChar? (c?.map Char.toLower) = isWordChar? c? := by
    cases c? with
    | none => rfl
    | some c => exact isWordChar_toLower c
  rw [wordEdge, wordEdge, hword, hword]

theorem wordHere_map_toLower (before : Option Char) (word text : List Char) :
    wordHere sameLetter (before.map Char.toLower) word (text.map Char.toLower) =
      wordHere sameLetter before word text := by
  induction word generalizing before text with
  | nil => rw [wordHere, wordHere, List.head?_map, wordEdge_map_toLower]
  | cons k word ih =>
    cases text with
    | nil => rfl
    | cons c r =>
      rw [List.map_cons, wordHere, wordHere, sameLetter, sameLetter, fold_toLower,
        ← ih (some c) r, Option.map_some]

theorem containsWordFrom_map_toLower (word : List Char) (before : Option Char) (text : List Char) :
    containsWordFrom sameLetter word (before.map Char.toLower) (text.map Char.toLower) =
      containsWordFrom sameLetter word before text := by
  induction text generalizing before with
  | nil =>
    have hedge := wordEdge_map_toLower before none
    have hhere := wordHere_map_toLower before word []
    rw [Option.map_none] at hedge
    rw [List.map_nil] at hhere ⊢
    rw [containsWordFrom, containsWordFrom, hedge, hhere]
  | cons c r ih =>
    have hedge := wordEdge_map_toLower before (some c)
    have hhere := wordHere_map_toLower before word (c :: r)
    rw [Option.map_some] at hedge
    rw [List.map_cons] at hhere ⊢
    rw [containsWordFrom, containsWordFrom, hedge, hhere, ← ih (some c), Option.map_some]

theorem containsWord_map_toLower (word text : List Char) :
    containsWord word (text.map Char.toLower) = containsWord word text :=
  containsWordFrom_map_toLower word none text

theorem isPrefixOf_map_toLower {part : List Char} (hpart : ∀ k ∈ part, k.isAlpha = false)
    (text : List Char) : part.isPrefixOf (text.map Char.toLower) = part.isPrefixOf text := by
  induction part generalizing text with
  | nil => rfl
  | cons k part ih =>
    obtain ⟨hk, htail⟩ := List.forall_mem_cons.mp hpart
    cases text with
    | nil => rfl
    | cons c r =>
      have hsame : (k == c.toLower) = (k == c) := by
        rw [Bool.eq_iff_iff, beq_iff_eq, beq_iff_eq, eq_comm, toLower_eq_iff hk, eq_comm]
      rw [List.map_cons, List.isPrefixOf, List.isPrefixOf, hsame, ih htail]

/-- A part without letters is looked for character by character. -/
theorem containsText_map_toLower {part : List Char} (hpart : ∀ k ∈ part, k.isAlpha = false)
    (text : List Char) : containsText part (text.map Char.toLower) = containsText part text := by
  induction text with
  | nil => rfl
  | cons c r ih =>
    have hfront := isPrefixOf_map_toLower hpart (c :: r)
    rw [List.map_cons] at hfront ⊢
    rw [containsText, containsText, hfront, ih]

/-! ### Digits -/

theorem isDigits_map_toLower (cs : List Char) :
    isDigits (cs.map Char.toLower) = isDigits cs := by
  have hdigit : isAsciiDigit ∘ Char.toLower = isAsciiDigit := funext isAsciiDigit_toLower
  rw [isDigits, isDigits, List.all_map, hdigit, List.isEmpty_map]

theorem map_toLower_of_isDigits {cs : List Char} (h : isDigits cs = true) :
    cs.map Char.toLower = cs := by
  rw [isDigits, Bool.and_eq_true, List.all_eq_true] at h
  have hsame : cs.map Char.toLower = cs.map id :=
    List.map_congr_left fun c hc => toLower_of_isAsciiDigit (h.2 c hc)
  rw [hsame, List.map_id]

end Text
end QueryGate
