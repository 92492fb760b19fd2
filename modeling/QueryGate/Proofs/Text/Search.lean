import QueryGate.Proofs.Text.Collapse

/-!
# Searching a text in parts

A character that belongs to nothing that is searched for divides a text: what is searched for stands
on one side of it or on the other.
-/

namespace QueryGate
namespace Text

theorem containsText_iff {part : List Char} (cs : List Char) :
    containsText part cs = true ↔ part <:+: cs := by
  induction cs with
  | nil => simp [containsText]
  | cons c r ih =>
    rw [containsText, Bool.or_eq_true, List.isPrefixOf_iff_prefix, ih, List.infix_cons_iff]

theorem containsText_of_not_mem {part cs : List Char} {k : Char} (hk : k ∈ part) (h : k ∉ cs) :
    containsText part cs = false := by
  rw [Bool.eq_false_iff, ne_eq, containsText_iff]
  intro hmem
  exact h (hmem.subset hk)

section Part

variable {part : List Char} {c : Char} (hc : c ∉ part)
include hc

theorem isPrefixOf_append_cons (a b : List Char) :
    part.isPrefixOf (a ++ c :: b) = part.isPrefixOf a := by
  induction part generalizing a with
  | nil => simp
  | cons k part ih =>
    cases a with
    | nil =>
      have hk : (k == c) = false := beq_false_of_ne (List.ne_of_not_mem_cons hc).symm
      simp [List.isPrefixOf, hk]
    | cons d a =>
      rw [List.cons_append, List.isPrefixOf, List.isPrefixOf,
        ih (List.not_mem_of_not_mem_cons hc)]

theorem containsText_append_cons (hne : part ≠ []) (a b : List Char) :
    containsText part (a ++ c :: b) = (containsText part a || containsText part b) := by
  induction a with
  | nil =>
    have hhere := isPrefixOf_append_cons hc [] b
    rw [List.nil_append] at hhere ⊢
    cases part with
    | nil => exact absurd rfl hne
    | cons k part =>
      simp only [containsText, hhere]
      rfl
  | cons d a ih =>
    have hhere := isPrefixOf_append_cons hc (d :: a) b
    rw [List.cons_append] at hhere ⊢
    rw [containsText, containsText, hhere, ih, Bool.or_assoc]

end Part

/-! ### Words -/

/-- The runs of word characters between the other characters of a text. -/
def wordsOf : List Char → List (List Char)
  | [] => [[]]
  | c :: r =>
    match wordsOf r with
    | [] => []
    | w :: more => if isWordChar c then (c :: w) :: more else [] :: w :: more

theorem wordsOf_eq (cs : List Char) :
    ∃ more, wordsOf cs = cs.takeWhile isWordChar :: more := by
  induction cs with
  | nil => exact ⟨[], rfl⟩
  | cons c r ih =>
    obtain ⟨more, hr⟩ := ih
    cases hc : isWordChar c with
    | true => exact ⟨more, by simp [wordsOf, hr, hc]⟩
    | false => exact ⟨r.takeWhile isWordChar :: more, by simp [wordsOf, hr, hc]⟩

theorem wordsOf_cons_of_not_isWordChar {c : Char} (hc : isWordChar c = false) (r : List Char) :
    wordsOf (c :: r) = [] :: wordsOf r := by
  obtain ⟨more, hr⟩ := wordsOf_eq r
  simp [wordsOf, hr, hc]

/-- A character that belongs to no word divides the words of a text. -/
theorem wordsOf_append_cons {c : Char} (hc : isWordChar c = false) (a b : List Char) :
    wordsOf (a ++ c :: b) = wordsOf a ++ wordsOf b := by
  induction a with
  | nil => exact wordsOf_cons_of_not_isWordChar hc b
  | cons d a ih =>
    obtain ⟨more, ha⟩ := wordsOf_eq a
    simp only [List.cons_append, wordsOf, ih, ha]
    split <;> rfl

theorem wordsOf_of_all {cs : List Char} (h : ∀ c ∈ cs, isWordChar c = true) :
    wordsOf cs = [cs] := by
  induction cs with
  | nil => rfl
  | cons c cs ih =>
    simp [wordsOf, ih (fun d hd => h d (by simp [hd])), h c (by simp)]

section Word

variable {same : Char → Char → Bool} {word : List Char}

/-- Two words are the same letter by letter. -/
def sameWord (same : Char → Char → Bool) : List Char → List Char → Bool
  | [], [] => true
  | k :: word, c :: w => same k c && sameWord same word w
  | _, _ => false

/-- A word that stands at the front of a text is its first run of word characters. -/
theorem sameWord_of_wordHere {before : Option Char} {text : List Char}
    (hsame : ∀ k ∈ word, ∀ c ∈ text, same k c = true → isWordChar c = true)
    (hbefore : word = [] → isWordChar? before = true)
    (h : wordHere same before word text = true) :
    sameWord same word (text.takeWhile isWordChar) = true := by
  induction word generalizing before text with
  | nil =>
    cases text with
    | nil => rfl
    | cons c text =>
      have hedge : isWordChar? before ≠ isWordChar c := bne_iff_ne.mp h
      have hc : isWordChar c = false := by simpa [hbefore rfl] using hedge
      simp [hc, sameWord]
  | cons k word ih =>
    cases text with
    | nil => cases h
    | cons c text =>
      rw [wordHere, Bool.and_eq_true] at h
      have hc := hsame k (by simp) c (by simp) h.1
      have hafter : isWordChar? (some c) = true := hc
      have hrest := ih (fun k hk d hd => hsame k (by simp [hk]) d (by simp [hd]))
        (fun _ => hafter) h.2
      simp [hc, sameWord, h.1, hrest]

/-- A word that stands in a text is one of the words of the text. -/
theorem mem_wordsOf_of_containsWordFrom (hne : word ≠ []) {before : Option Char}
    {cs : List Char} (hsame : ∀ k ∈ word, ∀ c ∈ cs, same k c = true → isWordChar c = true)
    (h : containsWordFrom same word before cs = true) :
    ∃ w ∈ (if isWordChar? before = true then (wordsOf cs).tail else wordsOf cs),
      sameWord same word w = true := by
  obtain ⟨k, rest, rfl⟩ := List.exists_cons_of_ne_nil hne
  induction cs generalizing before with
  | nil => simp [containsWordFrom, wordHere] at h
  | cons c r ih =>
    obtain ⟨more, hmore⟩ := wordsOf_eq (c :: r)
    rw [containsWordFrom, Bool.or_eq_true, Bool.and_eq_true] at h
    rcases h with ⟨hedge, hhere⟩ | hlater
    · have hc : isWordChar c = true := by
        rw [wordHere, Bool.and_eq_true] at hhere
        exact hsame k (by simp) c (by simp) hhere.1
      have hbefore : isWordChar? before = false := by simpa [wordEdge, isWordChar?, hc] using hedge
      have hfirst := sameWord_of_wordHere hsame (fun h => absurd h (by simp)) hhere
      refine ⟨_, ?_, hfirst⟩
      simp [hbefore, hmore]
    · obtain ⟨w, hw, hsw⟩ := ih (fun k hk d hd => hsame k hk d (by simp [hd])) hlater
      have htail : w ∈ (wordsOf (c :: r)).tail := by
        obtain ⟨tail, hr⟩ := wordsOf_eq r
        cases hc : isWordChar c with
        | true => simpa [isWordChar?, hc, wordsOf, hr] using hw
        | false =>
          rw [wordsOf_cons_of_not_isWordChar hc]
          simpa [isWordChar?, hc] using hw
      refine ⟨w, ?_, hsw⟩
      split
      · exact htail
      · exact List.mem_of_mem_tail htail

/-- The last character of a text, or the one in front of it. -/
theorem getLast?_cons_or (c : Char) (x : List Char) (before : Option Char) :
    (c :: x).getLast?.or before = x.getLast?.or (some c) := by
  cases h : x.getLast? <;> simp [List.getLast?_cons, h]

theorem wordHere_of_sameWord {before : Option Char} {w rest : List Char}
    (h : sameWord same word w = true)
    (hedge : wordEdge (w.getLast?.or before) rest.head? = true) :
    wordHere same before word (w ++ rest) = true := by
  induction word generalizing before w with
  | nil =>
    cases w with
    | nil => exact hedge
    | cons c w => cases h
  | cons k word ih =>
    cases w with
    | nil => cases h
    | cons c w =>
      rw [sameWord, Bool.and_eq_true] at h
      rw [List.cons_append, wordHere, h.1, Bool.true_and]
      apply ih h.2
      rwa [← getLast?_cons_or]

theorem containsWordFrom_append {before : Option Char} {front text : List Char} (hne : text ≠ [])
    (hedge : wordEdge (front.getLast?.or before) text.head? = true)
    (h : wordHere same (front.getLast?.or before) word text = true) :
    containsWordFrom same word before (front ++ text) = true := by
  induction front generalizing before with
  | nil =>
    cases text with
    | nil => exact absurd rfl hne
    | cons c text =>
      rw [List.nil_append, containsWordFrom]
      exact Bool.or_eq_true_iff.mpr (Or.inl (Bool.and_eq_true_iff.mpr ⟨hedge, h⟩))
  | cons d front ih =>
    rw [List.cons_append, containsWordFrom]
    apply Bool.or_eq_true_iff.mpr
    right
    apply ih
    · rwa [← getLast?_cons_or]
    · rwa [← getLast?_cons_or]

/-- A word of word characters stands in a text wherever it is written between other characters. -/
theorem containsWordFrom_of_sameWord {front w rest : List Char} (hne : w ≠ [])
    (h : sameWord same word w = true) (hw : ∀ c ∈ w, isWordChar c = true)
    (hfront : isWordChar? front.getLast? = false) (hrest : isWordChar? rest.head? = false) :
    containsWordFrom same word none (front ++ (w ++ rest)) = true := by
  have hfirst : isWordChar? (w ++ rest).head? = true := by
    cases w with
    | nil => exact absurd rfl hne
    | cons c w => exact hw c List.mem_cons_self
  have hlast : isWordChar? (w.getLast?.or (front.getLast?.or none)) = true := by
    rw [List.getLast?_eq_some_getLast hne]
    exact hw _ (List.getLast_mem hne)
  apply containsWordFrom_append
  · simp [hne]
  · rw [Option.or_none, wordEdge, hfront, hfirst]
    rfl
  · apply wordHere_of_sameWord h
    rw [wordEdge, hlast, hrest]
    rfl

end Word

/-! ### Characters between words -/

section Between

variable {same : Char → Char → Bool} {word : List Char}

theorem not_containsWordFrom_nil (hne : word ≠ []) (before : Option Char) :
    containsWordFrom same word before [] = false := by
  obtain ⟨k, more, rfl⟩ := List.exists_cons_of_ne_nil hne
  simp [containsWordFrom, wordHere]

/-- A character between words that is none of the letters of `word`. -/
structure Separates (same : Char → Char → Bool) (word : List Char) (c : Char) : Prop where
  edge : isWordChar c = false
  absent : ∀ k ∈ word, same k c = false

section Cons

variable {c : Char} (hc : Separates same word c)
include hc

theorem wordHere_append_cons (before : Option Char) (a b : List Char) :
    wordHere same before word (a ++ c :: b) = wordHere same before word a := by
  have hedge := hc.edge
  have habsent := hc.absent
  clear hc
  induction word generalizing before a with
  | nil =>
    cases a with
    | nil => simp [wordHere, wordEdge, isWordChar?, hedge]
    | cons d a => rfl
  | cons k word ih =>
    obtain ⟨hk, hword⟩ := List.forall_mem_cons.mp habsent
    cases a with
    | nil => simp [wordHere, hk]
    | cons d a => rw [List.cons_append, wordHere, wordHere, ih _ _ hword]

theorem containsWordFrom_cons_of_separates (hne : word ≠ []) (before : Option Char)
    (b : List Char) :
    containsWordFrom same word before (c :: b) = containsWordFrom same word none b := by
  obtain ⟨k, more, rfl⟩ := List.exists_cons_of_ne_nil hne
  have hafter : isWordChar? (some c) = isWordChar? none := hc.edge
  have hhere : wordHere same before (k :: more) (c :: b) = false := by
    rw [wordHere, hc.absent k List.mem_cons_self, Bool.false_and]
  rw [containsWordFrom, hhere, Bool.and_false, Bool.false_or, containsWordFrom_before hafter]

/-- A word stands in front of a character between words or behind it. -/
theorem containsWordFrom_append_cons (hne : word ≠ []) (before : Option Char) (a b : List Char) :
    containsWordFrom same word before (a ++ c :: b) =
      (containsWordFrom same word before a || containsWordFrom same word none b) := by
  induction a generalizing before with
  | nil =>
    rw [List.nil_append, containsWordFrom_cons_of_separates hc hne, not_containsWordFrom_nil hne,
      Bool.false_or]
  | cons d a ih =>
    have hhere := wordHere_append_cons hc before (d :: a) b
    rw [List.cons_append] at hhere ⊢
    rw [containsWordFrom, containsWordFrom, hhere, ih, Bool.or_assoc]

end Cons

/-- Characters that are none of the letters of a word only matter to what comes behind them. -/
theorem containsWordFrom_append_of_absent (hne : word ≠ []) {a : List Char}
    (ha : ∀ c ∈ a, ∀ k ∈ word, same k c = false) (before : Option Char) (b : List Char) :
    containsWordFrom same word before (a ++ b) =
      containsWordFrom same word (a.getLast?.or before) b := by
  obtain ⟨k, more, rfl⟩ := List.exists_cons_of_ne_nil hne
  induction a generalizing before with
  | nil => rfl
  | cons d a ih =>
    obtain ⟨hd, ha⟩ := List.forall_mem_cons.mp ha
    have hhere : wordHere same before (k :: more) (d :: (a ++ b)) = false := by
      rw [wordHere, hd k List.mem_cons_self, Bool.false_and]
    rw [List.cons_append, containsWordFrom, hhere, Bool.and_false, Bool.false_or, ih _ ha,
      getLast?_cons_or]

theorem not_containsWordFrom_of_absent (hne : word ≠ []) {a : List Char}
    (ha : ∀ c ∈ a, ∀ k ∈ word, same k c = false) (before : Option Char) :
    containsWordFrom same word before a = false := by
  have hskip := containsWordFrom_append_of_absent hne ha before []
  rwa [List.append_nil, not_containsWordFrom_nil hne] at hskip

end Between

/-! ### Blanks at the ends -/

section Blanks

variable {same : Char → Char → Bool} {word : List Char}
  (hword : ∀ k ∈ word, ∀ c, isBlank c = true → same k c = false)
include hword

theorem separates_of_isBlank {c : Char} (hc : isBlank c = true) : Separates same word c :=
  ⟨not_isWordChar_of_isBlank hc, fun k hk => hword k hk c hc⟩

theorem containsWordFrom_blanks_append (hne : word ≠ []) {front : List Char}
    (hfront : ∀ c ∈ front, isBlank c = true) (cs : List Char) :
    containsWordFrom same word none (front ++ cs) = containsWordFrom same word none cs := by
  induction front with
  | nil => rfl
  | cons b front ih =>
    obtain ⟨hb, hfront⟩ := List.forall_mem_cons.mp hfront
    rw [List.cons_append,
      containsWordFrom_cons_of_separates (separates_of_isBlank hword hb) hne, ih hfront]

theorem containsWordFrom_append_blanks (hne : word ≠ []) {back : List Char}
    (hback : ∀ c ∈ back, isBlank c = true) (before : Option Char) (cs : List Char) :
    containsWordFrom same word before (cs ++ back) = containsWordFrom same word before cs := by
  cases back with
  | nil => rw [List.append_nil]
  | cons b back =>
    obtain ⟨hb, hback⟩ := List.forall_mem_cons.mp hback
    have hempty : containsWordFrom same word none (back ++ []) = false := by
      rw [containsWordFrom_blanks_append hword hne hback, not_containsWordFrom_nil hne]
    rw [List.append_nil] at hempty
    rw [containsWordFrom_append_cons (separates_of_isBlank hword hb) hne, hempty, Bool.or_false]

/-- A word without blanks stands in a text if it stands between the words that are left when the
blanks are collapsed and trimmed. -/
theorem containsWordFrom_squeeze (hne : word ≠ []) (cs : List Char) :
    containsWordFrom same word none (squeeze cs) = containsWordFrom same word none cs := by
  obtain ⟨front, hcollapse, hfront⟩ := trimLeft_eq (collapse cs)
  obtain ⟨back, htrimmed, hback⟩ := trimRight_eq (trimLeft (collapse cs))
  rw [← containsWordFrom_collapse hword hne none cs, hcollapse,
    containsWordFrom_blanks_append hword hne hfront, htrimmed,
    containsWordFrom_append_blanks hword hne hback]
  rfl

end Blanks

end Text
end QueryGate
