import QueryGate.Proofs.Text.Blank
import QueryGate.Text.WordSearch

/-!
# Collapsed texts

Collapsing replaces every run of blanks by one space.  A search for something without blanks finds
the same in a text and in its collapsed form: no blank is part of a word, and between two words the
collapsed text still has one.
-/

namespace QueryGate
namespace Text

theorem collapse_of_not_isBlank {c : Char} (h : isBlank c = false) (r : List Char) :
    collapse (c :: r) = c :: collapse r := by
  rw [collapse, if_neg (by simp [h])]

theorem collapse_of_isBlank {c : Char} (h : isBlank c = true) (r : List Char) :
    collapse (c :: r) = if startsBlank r = true then collapse r else ' ' :: collapse r := by
  rw [collapse, if_pos h]

@[simp] theorem startsBlank_collapse (cs : List Char) :
    startsBlank (collapse cs) = startsBlank cs := by
  induction cs with
  | nil => rfl
  | cons c r ih =>
    cases hc : isBlank c with
    | false => rw [collapse_of_not_isBlank hc, startsBlank, startsBlank]
    | true =>
      rw [collapse_of_isBlank hc, startsBlank, hc]
      split
      · rwa [ih]
      · rfl

/-- The characters up to a blank or the end are left as they are. -/
theorem collapse_append {a : List Char} (ha : ∀ c ∈ a, isBlank c = false) (b : List Char) :
    collapse (a ++ b) = a ++ collapse b := by
  induction a with
  | nil => rfl
  | cons c a ih =>
    have hc : isBlank c = false := ha c (by simp)
    rw [List.cons_append, collapse_of_not_isBlank hc, ih (fun d hd => ha d (by simp [hd]))]
    rfl

/-- Collapsing changes neither side of a character that is no blank. -/
theorem collapse_append_cons {c : Char} (hc : isBlank c = false) (a b : List Char) :
    collapse (a ++ c :: b) = collapse a ++ c :: collapse b := by
  induction a with
  | nil => exact collapse_of_not_isBlank hc b
  | cons d a ih =>
    cases hd : isBlank d with
    | false =>
      rw [List.cons_append, collapse_of_not_isBlank hd, collapse_of_not_isBlank hd, ih]
      rfl
    | true =>
      have hstart : startsBlank (a ++ c :: b) = startsBlank a := by
        cases a with
        | nil => exact hc
        | cons e a => rfl
      rw [List.cons_append, collapse_of_isBlank hd, collapse_of_isBlank hd, hstart, ih]
      split <;> rfl

/-- The collapsed form of a text starts with its first character or, in its place, a blank. -/
theorem collapse_cons (c : Char) (r : List Char) :
    ∃ d s, collapse (c :: r) = d :: s ∧ (d = c ∨ (isBlank c = true ∧ isBlank d = true)) := by
  cases hc : isBlank c with
  | false => exact ⟨c, _, collapse_of_not_isBlank hc r, Or.inl rfl⟩
  | true =>
    have hstart : startsBlank (collapse (c :: r)) = true := by
      rw [startsBlank_collapse]
      exact hc
    cases hd : collapse (c :: r) with
    | nil => simp [hd, startsBlank] at hstart
    | cons d s =>
      rw [hd] at hstart
      exact ⟨d, s, rfl, Or.inr ⟨rfl, hstart⟩⟩

theorem collapse_cons_ne {c d : Char} (hd : isBlank d = false) (hc : c ≠ d) (r : List Char) :
    ∃ e s, collapse (c :: r) = e :: s ∧ e ≠ d := by
  obtain ⟨e, s, hs, rfl | ⟨_, he⟩⟩ := collapse_cons c r
  · exact ⟨e, s, hs, hc⟩
  · exact ⟨e, s, hs, ne_of_isBlank he hd⟩

section Runs

variable {p : Char → Bool} (hp : ∀ c, isBlank c = true → p c = false)
include hp

theorem takeWhile_collapse (cs : List Char) : (collapse cs).takeWhile p = cs.takeWhile p := by
  induction cs with
  | nil => rfl
  | cons c r ih =>
    cases hc : isBlank c with
    | false => rw [collapse_of_not_isBlank hc, List.takeWhile_cons, List.takeWhile_cons, ih]
    | true =>
      obtain ⟨d, s, hs, hd⟩ := collapse_cons c r
      have hblank : isBlank d = true := hd.elim (fun h => h ▸ hc) And.right
      simp [hs, hp c hc, hp d hblank]

theorem dropWhile_collapse (cs : List Char) :
    (collapse cs).dropWhile p = collapse (cs.dropWhile p) := by
  induction cs with
  | nil => rfl
  | cons c r ih =>
    cases hc : isBlank c with
    | false =>
      rw [collapse_of_not_isBlank hc, List.dropWhile_cons, List.dropWhile_cons, ih]
      split
      · rfl
      · exact (collapse_of_not_isBlank hc r).symm
    | true =>
      obtain ⟨d, s, hs, hd⟩ := collapse_cons c r
      have hblank : isBlank d = true := hd.elim (fun h => h ▸ hc) And.right
      simp [hs, hp c hc, hp d hblank]

end Runs

theorem all_isBlank_collapse (cs : List Char) : (collapse cs).all isBlank = cs.all isBlank := by
  induction cs with
  | nil => rfl
  | cons c r ih =>
    cases hc : isBlank c with
    | false => simp [collapse_of_not_isBlank hc, hc]
    | true =>
      rw [collapse_of_isBlank hc, List.all_cons, hc, Bool.true_and, ← ih]
      split
      · rfl
      · simp [show isBlank ' ' = true by decide]

theorem mem_collapse {c : Char} {cs : List Char} (h : c ∈ collapse cs) : c ∈ cs ∨ c = ' ' := by
  induction cs with
  | nil => exact Or.inl h
  | cons d r ih =>
    cases hd : isBlank d with
    | false =>
      rw [collapse_of_not_isBlank hd, List.mem_cons] at h
      rcases h with rfl | h
      · exact Or.inl (by simp)
      · exact (ih h).imp (List.mem_cons_of_mem d) id
    | true =>
      rw [collapse_of_isBlank hd] at h
      split at h
      · exact (ih h).imp (List.mem_cons_of_mem d) id
      · rcases List.mem_cons.mp h with rfl | h
        · exact Or.inr rfl
        · exact (ih h).imp (List.mem_cons_of_mem d) id

/-- Without blanks there is nothing to collapse. -/
theorem collapse_of_not_mem {cs : List Char} (h : ' ' ∉ collapse cs) : collapse cs = cs := by
  have hnone : ∀ c ∈ cs, isBlank c = false := by
    induction cs with
    | nil => nofun
    | cons c r ih =>
      cases hc : isBlank c with
      | false =>
        rw [collapse_of_not_isBlank hc, List.mem_cons, not_or] at h
        simpa [hc] using ih h.2
      | true =>
        exfalso
        rw [collapse_of_isBlank hc] at h
        split at h
        · rename_i hstart
          have hr := ih h
          cases r with
          | nil => cases hstart
          | cons d r =>
            rw [startsBlank, hr d (by simp)] at hstart
            cases hstart
        · exact h List.mem_cons_self
  have hwhole := collapse_append hnone []
  rw [List.append_nil, collapse_nil, List.append_nil] at hwhole
  exact hwhole

theorem collapse_concat {c : Char} (hc : isBlank c = false) (a : List Char) :
    ∃ b, collapse (a ++ [c]) = b ++ [c] := by
  induction a with
  | nil => exact ⟨[], by rw [List.nil_append, collapse_of_not_isBlank hc]; rfl⟩
  | cons d a ih =>
    obtain ⟨b, hb⟩ := ih
    cases hd : isBlank d with
    | false => exact ⟨d :: b, by rw [List.cons_append, collapse_of_not_isBlank hd, hb]; rfl⟩
    | true =>
      rw [List.cons_append, collapse_of_isBlank hd, hb]
      split
      · exact ⟨b, rfl⟩
      · exact ⟨' ' :: b, rfl⟩

theorem trimLeft_of_not_startsBlank {cs : List Char} (h : startsBlank cs = false) :
    trimLeft cs = cs := by
  cases cs with
  | nil => rfl
  | cons c r => exact List.dropWhile_cons_of_neg (by simpa [startsBlank] using h)

theorem trimLeft_append_cons {c : Char} (hc : isBlank c = false) (a b : List Char) :
    trimLeft (a ++ c :: b) = trimLeft a ++ c :: b := by
  induction a with
  | nil => exact List.dropWhile_cons_of_neg (by simp [hc])
  | cons d a ih =>
    unfold trimLeft at ih ⊢
    rw [List.cons_append, List.dropWhile_cons, List.dropWhile_cons]
    split
    · exact ih
    · rfl

theorem trimLeft_eq (cs : List Char) :
    ∃ front, cs = front ++ trimLeft cs ∧ ∀ c ∈ front, isBlank c = true :=
  ⟨cs.takeWhile isBlank, List.takeWhile_append_dropWhile.symm,
    List.all_eq_true.mp List.all_takeWhile⟩

theorem trimRight_eq (cs : List Char) :
    ∃ back, cs = trimRight cs ++ back ∧ ∀ c ∈ back, isBlank c = true := by
  induction cs with
  | nil => exact ⟨[], rfl, nofun⟩
  | cons c r ih =>
    obtain ⟨back, hr, hback⟩ := ih
    rw [trimRight]
    split
    · rename_i hnil
      rw [hnil, List.nil_append] at hr
      subst hr
      split
      · rename_i hc
        exact ⟨c :: r, rfl, by simpa [hc] using hback⟩
      · exact ⟨r, rfl, hback⟩
    · exact ⟨back, by rw [List.cons_append, ← hr], hback⟩

theorem trimRight_concat {c : Char} (hc : isBlank c = false) (a : List Char) :
    trimRight (a ++ [c]) = a ++ [c] := by
  induction a with
  | nil => simp [trimRight, hc]
  | cons d a ih =>
    rw [List.cons_append, trimRight, ih]
    split
    · simp_all
    · rfl

/-- Nothing is trimmed from a text with no blank at its ends. -/
theorem squeeze_concat {a : List Char} {c : Char} (ha : startsBlank (a ++ [c]) = false)
    (hc : isBlank c = false) : squeeze (a ++ [c]) = collapse (a ++ [c]) := by
  obtain ⟨b, hb⟩ := collapse_concat hc a
  unfold squeeze trim
  rw [trimLeft_of_not_startsBlank (by rwa [startsBlank_collapse]), hb, trimRight_concat hc]

/-! ### Searching -/

/-- The code points of the blanks. -/
def blankCodes : List Nat :=
  [9, 10, 11, 12, 13, 28, 29, 30, 31, 32, 0x85, 0xA0, 0x1680, 0x2000, 0x2001, 0x2002, 0x2003,
    0x2004, 0x2005, 0x2006, 0x2007, 0x2008, 0x2009, 0x200A, 0x2028, 0x2029, 0x202F, 0x205F, 0x3000]

theorem toNat_mem_of_isBlank {c : Char} (h : isBlank c = true) : c.toNat ∈ blankCodes := by
  simp only [isBlank, Bool.or_eq_true, Bool.and_eq_true, decide_eq_true_eq, beq_iff_eq] at h
  simp only [blankCodes, List.mem_cons, List.not_mem_nil, or_false]
  rcases h with (((((((((h | h) | h) | h) | h) | h) | h) | h) | h) | h) | h <;> omega

/-- What holds of the listed characters holds of every blank. -/
theorem forall_isBlank {p : Char → Prop} (h : ∀ n ∈ blankCodes, p (Char.ofNat n)) {c : Char}
    (hc : isBlank c = true) : p c := by
  have := h _ (toNat_mem_of_isBlank hc)
  rwa [Char.ofNat_toNat] at this

theorem not_isWordChar_of_isBlank {c : Char} (h : isBlank c = true) : isWordChar c = false :=
  forall_isBlank (p := fun c => isWordChar c = false) (by decide +kernel) h

/-- Two texts with the same characters up to blanks start alike. -/
theorem isWordChar?_head?_collapse (cs : List Char) :
    isWordChar? (collapse cs).head? = isWordChar? cs.head? := by
  cases cs with
  | nil => rfl
  | cons c r =>
    cases hc : isBlank c with
    | false => rw [collapse_of_not_isBlank hc]; rfl
    | true =>
      have hstart : startsBlank (collapse (c :: r)) = true := by
        rw [startsBlank_collapse]
        exact hc
      cases hd : collapse (c :: r) with
      | nil => simp [hd, startsBlank] at hstart
      | cons d more =>
        rw [hd] at hstart
        simp [isWordChar?, not_isWordChar_of_isBlank (show isBlank d = true from hstart),
          not_isWordChar_of_isBlank hc]

section Part

variable {part : List Char} (hpart : ∀ k ∈ part, isBlank k = false)
include hpart

theorem isPrefixOf_collapse (cs : List Char) :
    part.isPrefixOf (collapse cs) = part.isPrefixOf cs := by
  induction part generalizing cs with
  | nil => simp
  | cons k part ih =>
    have hk : isBlank k = false := hpart k (by simp)
    have no {text : List Char} (h : startsBlank text = true) :
        (k :: part).isPrefixOf text = false := by
      cases text with
      | nil => rfl
      | cons d text =>
        have hne : (k == d) = false := by
          simpa using (ne_of_isBlank (show isBlank d = true from h) hk).symm
        simp [List.isPrefixOf, hne]
    cases cs with
    | nil => rfl
    | cons c r =>
      cases hc : isBlank c with
      | false =>
        rw [collapse_of_not_isBlank hc, List.isPrefixOf, List.isPrefixOf,
          ih (fun d hd => hpart d (by simp [hd]))]
      | true =>
        have hstart : startsBlank (c :: r) = true := hc
        rw [no hstart, no (by rwa [startsBlank_collapse])]

/-- A part without blanks stands in a text if it stands in the collapsed form. -/
theorem containsText_collapse (hne : part ≠ []) (cs : List Char) :
    containsText part (collapse cs) = containsText part cs := by
  obtain ⟨k, more, rfl⟩ := List.exists_cons_of_ne_nil hne
  have hk : isBlank k = false := hpart k (by simp)
  have skip {c : Char} (hc : isBlank c = true) (r : List Char) :
      containsText (k :: more) (c :: r) = containsText (k :: more) r := by
    have hkc : (k == c) = false := by simpa using (ne_of_isBlank hc hk).symm
    simp [containsText, List.isPrefixOf, hkc]
  induction cs with
  | nil => rfl
  | cons c r ih =>
    cases hc : isBlank c with
    | false =>
      have hhere := isPrefixOf_collapse hpart (c :: r)
      rw [collapse_of_not_isBlank hc] at hhere ⊢
      rw [containsText, containsText, hhere, ih]
    | true =>
      rw [collapse_of_isBlank hc, skip hc]
      split
      · exact ih
      · rw [skip (by decide), ih]

end Part

section Word

variable {same : Char → Char → Bool} {word : List Char}

/-- Of the character in front of a text it only matters whether it is part of a word. -/
theorem wordHere_before {a b : Option Char} (h : isWordChar? a = isWordChar? b)
    (word text : List Char) : wordHere same a word text = wordHere same b word text := by
  cases word with
  | nil => simp [wordHere, wordEdge, h]
  | cons k word => cases text <;> rfl

theorem containsWordFrom_before {a b : Option Char} (h : isWordChar? a = isWordChar? b)
    (word text : List Char) :
    containsWordFrom same word a text = containsWordFrom same word b text := by
  cases text with
  | nil => simp [containsWordFrom, wordEdge, h, wordHere_before h]
  | cons c text => simp [containsWordFrom, wordEdge, h, wordHere_before h]

variable (hword : ∀ k ∈ word, ∀ c, isBlank c = true → same k c = false)
include hword

theorem wordHere_collapse (before : Option Char) (cs : List Char) :
    wordHere same before word (collapse cs) = wordHere same before word cs := by
  induction word generalizing before cs with
  | nil => simp [wordHere, wordEdge, isWordChar?_head?_collapse]
  | cons k word ih =>
    have no {text : List Char} (h : startsBlank text = true) :
        wordHere same before (k :: word) text = false := by
      cases text with
      | nil => rfl
      | cons d text => simp [wordHere, hword k (by simp) d h]
    cases cs with
    | nil => rfl
    | cons c r =>
      cases hc : isBlank c with
      | false =>
        rw [collapse_of_not_isBlank hc, wordHere, wordHere,
          ih (fun k hk => hword k (by simp [hk]))]
      | true =>
        have hstart : startsBlank (c :: r) = true := hc
        rw [no hstart, no (by rwa [startsBlank_collapse])]

theorem containsWordFrom_of_isBlank (hne : word ≠ []) (before : Option Char) {c : Char}
    (hc : isBlank c = true) (r : List Char) :
    containsWordFrom same word before (c :: r) = containsWordFrom same word none r := by
  obtain ⟨k, more, rfl⟩ := List.exists_cons_of_ne_nil hne
  have hafter : isWordChar? (some c) = isWordChar? none := not_isWordChar_of_isBlank hc
  simp [containsWordFrom, wordHere, hword k (by simp) c hc, containsWordFrom_before hafter]

/-- A word without blanks stands in a text if it stands in the collapsed form. -/
theorem containsWordFrom_collapse (hne : word ≠ []) (before : Option Char) (cs : List Char) :
    containsWordFrom same word before (collapse cs) = containsWordFrom same word before cs := by
  induction cs generalizing before with
  | nil => rfl
  | cons c r ih =>
    cases hc : isBlank c with
    | false =>
      have hhere := wordHere_collapse hword before (c :: r)
      rw [collapse_of_not_isBlank hc] at hhere ⊢
      rw [containsWordFrom, containsWordFrom, hhere, ih]
    | true =>
      rw [collapse_of_isBlank hc, containsWordFrom_of_isBlank hword hne before hc]
      split
      · rw [ih]
        cases r with
        | nil => simp_all [startsBlank]
        | cons d r =>
          have hd : isBlank d = true := by assumption
          rw [containsWordFrom_of_isBlank hword hne before hd,
            containsWordFrom_of_isBlank hword hne none hd]
      · rw [containsWordFrom_of_isBlank hword hne before (by decide), ih]

end Word

end Text
end QueryGate
