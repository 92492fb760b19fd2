import QueryGate.Proofs.Text.Case
import QueryGate.Proofs.Text.Search
import QueryGate.Guard.Check
import QueryGate.Policy.Shipped

/-!
# The wording of a statement

The first two checks of the guard search the text of a statement.  They find nothing in a quiet
text: one of ASCII characters without the end of a statement, a comment or an escape, none of whose
words is forbidden.  Quiet texts stay quiet when they are put together with a space, a line break or
a quote between them.
-/

namespace QueryGate
namespace Guard

open Text

/-- The letters of the words that no query may contain, in lower case. -/
def forbiddenLetters : List (List Char) :=
  [['i', 'n', 's', 'e', 'r', 't'], ['u', 'p', 'd', 'a', 't', 'e'],
      ['d', 'e', 'l', 'e', 't', 'e'], ['r', 'e', 'p', 'l', 'a', 'c', 'e'], ['d', 'r', 'o', 'p'],
      ['t', 'r', 'u', 'n', 'c', 'a', 't', 'e'], ['a', 'l', 't', 'e', 'r'],
      ['c', 'r', 'e', 'a', 't', 'e'], ['r', 'e', 'n', 'a', 'm', 'e'], ['g', 'r', 'a', 'n', 't'],
      ['r', 'e', 'v', 'o', 'k', 'e'], ['m', 'e', 'r', 'g', 'e'], ['c', 'a', 'l', 'l'],
      ['e', 'x', 'e', 'c'], ['e', 'x', 'e', 'c', 'u', 't', 'e'],
      ['p', 'r', 'e', 'p', 'a', 'r', 'e'], ['d', 'e', 'a', 'l', 'l', 'o', 'c', 'a', 't', 'e'],
      ['h', 'a', 'n', 'd', 'l', 'e', 'r'], ['l', 'o', 'c', 'k'], ['u', 'n', 'l', 'o', 'c', 'k'],
      ['s', 'e', 't'], ['d', 'e', 's', 'c', 'r', 'i', 'b', 'e'],
      ['e', 'x', 'p', 'l', 'a', 'i', 'n'], ['s', 'h', 'o', 'w'], ['u', 's', 'e'],
      ['i', 'n', 't', 'o'], ['o', 'u', 't', 'f', 'i', 'l', 'e'],
      ['d', 'u', 'm', 'p', 'f', 'i', 'l', 'e'], ['i', 'n', 'f', 'i', 'l', 'e'],
      ['l', 'o', 'a', 'd'], ['l', 'o', 'a', 'd', '_', 'f', 'i', 'l', 'e'],
      ['s', 'l', 'e', 'e', 'p'], ['b', 'e', 'n', 'c', 'h', 'm', 'a', 'r', 'k']]

theorem map_toLower_shippedKeywords :
    Policy.shippedKeywords.map (fun word => word.toList.map Char.toLower) = forbiddenLetters := by
  rfl

/-- Whether a character is none of those that end a statement, start a comment or escape. -/
def isQuietChar (c : Char) : Bool := decide (c.toNat < 128) && !(['/', ';', '#', '\\'].contains c)

/-- Whether a text holds nothing that is searched for. -/
def isQuiet (cs : List Char) : Bool :=
  cs.all isQuietChar && !containsText ['-', '-'] cs &&
    (wordsOf cs).all fun w => !forbiddenLetters.contains (w.map Char.toLower)

/-! ### Forbidden words -/

theorem mem_forbiddenLetters {word : String} (h : word ∈ Policy.shippedKeywords) :
    word.toList.map Char.toLower ∈ forbiddenLetters := by
  rw [← map_toLower_shippedKeywords]
  exact List.mem_map_of_mem h

/-- The letters of a forbidden word are ASCII letters and underscores. -/
theorem isWordChar_of_forbidden {word : String} (h : word ∈ Policy.shippedKeywords) :
    word.toList ≠ [] ∧ ∀ k ∈ word.toList, k.toNat < 128 ∧ isWordChar k = true := by
  have hall : ∀ w ∈ Policy.shippedKeywords, w.toList ≠ [] ∧
      (w.toList.all fun k => k.toNat < 128 && isWordChar k) = true := by decide
  obtain ⟨hne, hletters⟩ := hall word h
  exact ⟨hne, by simpa using hletters⟩

theorem map_toLower_of_sameWord {word w : List Char} (hword : ∀ k ∈ word, k.toNat < 128)
    (hw : ∀ c ∈ w, c.toNat < 128) (h : sameWord sameLetter word w = true) :
    word.map Char.toLower = w.map Char.toLower := by
  induction word generalizing w with
  | nil =>
    cases w with
    | nil => rfl
    | cons c w => cases h
  | cons k word ih =>
    cases w with
    | nil => cases h
    | cons c w =>
      rw [sameWord, Bool.and_eq_true] at h
      have hfold := eq_of_beq h.1
      rw [fold_of_ascii (hword k (by simp)), fold_of_ascii (hw c (by simp))] at hfold
      rw [List.map_cons, List.map_cons, hfold,
        ih (fun k hk => hword k (by simp [hk])) (fun c hc => hw c (by simp [hc])) h.2]

theorem ascii_of_isQuiet {cs : List Char} (h : isQuiet cs = true) : ∀ c ∈ cs, c.toNat < 128 := by
  intro c hc
  simp only [isQuiet, Bool.and_eq_true] at h
  have hchar := List.all_eq_true.mp h.1.1 c hc
  simp only [isQuietChar, Bool.and_eq_true, decide_eq_true_eq] at hchar
  exact hchar.1

theorem mem_of_mem_wordsOf {c : Char} {w cs : List Char} (hw : w ∈ wordsOf cs) (hc : c ∈ w) :
    c ∈ cs := by
  induction cs generalizing w with
  | nil => simp_all [wordsOf]
  | cons d cs ih =>
    obtain ⟨more, hmore⟩ := wordsOf_eq cs
    rw [hmore] at ih
    simp only [wordsOf, hmore] at hw
    split at hw
    · rcases List.mem_cons.mp hw with rfl | hw
      · rcases List.mem_cons.mp hc with rfl | hc
        · simp
        · exact List.mem_cons_of_mem d (ih (by simp) hc)
      · exact List.mem_cons_of_mem d (ih (List.mem_cons_of_mem _ hw) hc)
    · rcases List.mem_cons.mp hw with rfl | hw
      · cases hc
      · exact List.mem_cons_of_mem d (ih hw hc)

/-- No forbidden word stands in a quiet text. -/
theorem not_containsWord_of_isQuiet {cs : List Char} (h : isQuiet cs = true) {word : String}
    (hword : word ∈ Policy.shippedKeywords) : containsWord word.toList (collapse cs) = false := by
  obtain ⟨hne, hletters⟩ := isWordChar_of_forbidden hword
  have hascii := ascii_of_isQuiet h
  have hblank : ∀ k ∈ word.toList, ∀ c, isBlank c = true → sameLetter k c = false :=
    fun k hk c => not_sameLetter_of_isBlank (hletters k hk).1 (hletters k hk).2
  have hsame : ∀ k ∈ word.toList, ∀ c ∈ cs, sameLetter k c = true → isWordChar c = true := by
    intro k hk c _
    exact isWordChar_of_sameLetter (hletters k hk).1 (hletters k hk).2
  unfold containsWord
  rw [containsWordFrom_collapse hblank hne, Bool.eq_false_iff]
  intro hfound
  obtain ⟨w, hw, hsw⟩ := mem_wordsOf_of_containsWordFrom hne hsame hfound
  have hw : w ∈ wordsOf cs := by simpa [isWordChar?] using hw
  have heq := map_toLower_of_sameWord (fun k hk => (hletters k hk).1)
    (fun c hc => hascii c (mem_of_mem_wordsOf hw hc)) hsw
  simp only [isQuiet, Bool.and_eq_true] at h
  have hnot := List.all_eq_true.mp h.2 w hw
  rw [← heq] at hnot
  simp [mem_forbiddenLetters hword] at hnot

theorem checkKeywords_of_isQuiet {cs : List Char} (h : isQuiet cs = true) :
    checkKeywords Policy.shipped (collapse cs) = .ok () := by
  have hnone : Policy.shipped.forbiddenKeywords.find?
      (fun word => containsWord word.toList (collapse cs)) = none := by
    rw [List.find?_eq_none]
    intro word hword
    rw [not_containsWord_of_isQuiet h hword]
    decide
  unfold checkKeywords
  rw [hnone]

/-! ### The end of a statement, comments and escapes -/

theorem no_terminator_of_isQuiet {cs : List Char} (h : isQuiet cs = true) :
    (terminators.any fun part => containsText part.toList (collapse cs)) = false := by
  have hchar : ∀ c ∈ cs, isQuietChar c = true := by
    simp only [isQuiet, Bool.and_eq_true] at h
    exact List.all_eq_true.mp h.1.1
  have hdash : containsText ['-', '-'] cs = false := by
    simp only [isQuiet, Bool.and_eq_true, Bool.not_eq_true'] at h
    exact h.1.2
  have absent {part : List Char} {k : Char} (hpart : part.all (!isBlank ·) = true)
      (hk : k ∈ part) (hquiet : isQuietChar k = false) :
      containsText part (collapse cs) = false := by
    rw [containsText_collapse (eq_false_of_all hpart) (List.ne_nil_of_mem hk)]
    refine containsText_of_not_mem hk ?_
    intro hmem
    rw [hchar k hmem] at hquiet
    cases hquiet
  have hdouble : containsText ['-', '-'] (collapse cs) = false := by
    rw [containsText_collapse (eq_false_of_all (by decide)) (by decide), hdash]
  have hsemi : containsText [';'] (collapse cs) = false :=
    absent (k := ';') (by decide) (by decide) (by decide)
  have hopen : containsText ['/', '*'] (collapse cs) = false :=
    absent (k := '/') (by decide) (by decide) (by decide)
  have hclose : containsText ['*', '/'] (collapse cs) = false :=
    absent (k := '/') (by decide) (by decide) (by decide)
  have hhash : containsText ['#'] (collapse cs) = false :=
    absent (k := '#') (by decide) (by decide) (by decide)
  have hescape : containsText ['\\'] (collapse cs) = false :=
    absent (k := '\\') (by decide) (by decide) (by decide)
  simp [terminators, hdouble, hsemi, hopen, hclose, hhash, hescape]

theorem checkShape_of_isQuiet {cs : List Char} (h : isQuiet cs = true)
    (hstart : "SELECT ".toList.isPrefixOf (upper (collapse cs)) = true) :
    checkShape (collapse cs) = .ok () := by
  have hnonempty : (collapse cs).isEmpty = false := by
    cases hcs : collapse cs with
    | nil =>
      rw [hcs] at hstart
      cases hstart
    | cons c r => rfl
  unfold checkShape
  rw [no_terminator_of_isQuiet h, hstart, hnonempty]
  rfl

/-- A quiet text that starts as a query, has no blanks at its ends and is read as queries that are
allowed. -/
structure IsQuietQuery (sql : List Char) : Prop where
  quiet : isQuiet sql = true
  squeezed : squeeze sql = collapse sql
  start : "SELECT ".toList.isPrefixOf (upper (collapse sql)) = true
  allowed : ((queriesOf (collapse sql)).bind (checkQueries Policy.shipped)).isOk = true

instance (sql : List Char) : Decidable (IsQuietQuery sql) :=
  decidable_of_iff
    (isQuiet sql = true ∧ squeeze sql = collapse sql ∧
      "SELECT ".toList.isPrefixOf (upper (collapse sql)) = true ∧
      ((queriesOf (collapse sql)).bind (checkQueries Policy.shipped)).isOk = true)
    ⟨fun h => ⟨h.1, h.2.1, h.2.2.1, h.2.2.2⟩, fun h => ⟨h.1, h.2, h.3, h.4⟩⟩

/-- The two searches of the guard need not be run on a quiet text. -/
theorem accepts_of_isQuietQuery {sql : List Char} (h : IsQuietQuery sql) :
    accepts Policy.shipped sql = true := by
  have hallowed : ∃ u, (queriesOf (collapse sql)).bind (checkQueries Policy.shipped) = .ok u := by
    have hok := h.allowed
    cases hrun : (queriesOf (collapse sql)).bind (checkQueries Policy.shipped) with
    | error fault =>
      rw [hrun] at hok
      cases hok
    | ok u => exact ⟨u, rfl⟩
  obtain ⟨u, hrun⟩ := hallowed
  have hcheck : check Policy.shipped sql = .ok u := by
    simp only [check, h.squeezed, checkShape_of_isQuiet h.quiet h.start,
      checkKeywords_of_isQuiet h.quiet, bind, Except.bind]
    exact hrun
  rw [accepts, hcheck]

/-! ### Putting texts together -/

/-- A character that stands between quiet texts without being part of a word. -/
def divides (c : Char) : Bool := isQuietChar c && !isWordChar c && c != '-'

theorem isQuiet_append_cons {c : Char} (hc : divides c = true) (a b : List Char) :
    isQuiet (a ++ c :: b) = (isQuiet a && isQuiet b) := by
  simp only [divides, Bool.and_eq_true, Bool.not_eq_true', bne_iff_ne, ne_eq] at hc
  have hdash : c ∉ ['-', '-'] := by simp [hc.2]
  unfold isQuiet
  rw [containsText_append_cons hdash (by decide), wordsOf_append_cons hc.1.2, List.all_append,
    List.all_append, List.all_cons, hc.1.1, Bool.not_or]
  ac_rfl

end Guard
end QueryGate
