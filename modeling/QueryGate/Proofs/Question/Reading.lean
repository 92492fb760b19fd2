import QueryGate.Proofs.Question.WrittenDate
import QueryGate.Proofs.Text.Caseless
import QueryGate.Proofs.Text.Places

/-!
# What the readers of phrases read

Each reader reads its words from the front of a text, with blanks between them.  The numbers and the
dates among them are runs of characters with a blank in front, and no such run stops in the middle
of a number.
-/

namespace QueryGate
namespace Question

open Text

/-! ### Characters of dates -/

theorem isDateChar_cases {c : Char} (h : isDateChar c = true) :
    isAsciiDigit c = true ∨ isDateSeparator c = true :=
  Bool.or_eq_true_iff.mp h

theorem not_isBlank_of_isDateChar {c : Char} (h : isDateChar c = true) : isBlank c = false := by
  rw [Bool.eq_false_iff]
  intro hblank
  rcases isDateChar_cases h with hdigit | hseparator
  · rw [not_isAsciiDigit_of_isBlank hblank] at hdigit
    cases hdigit
  · rcases Bool.or_eq_true_iff.mp hseparator with hc | hc <;>
      · rw [eq_of_beq hc] at hblank
        revert hblank
        decide

theorem isWordChar_of_isAsciiDigit {c : Char} (h : isAsciiDigit c = true) : isWordChar c = true := by
  have hcode := (isAsciiDigit_iff c).mp h
  have hdigits : isAsciiDigit c = true → isWordChar c = true :=
    forall_ascii (p := fun c => isAsciiDigit c = true → isWordChar c = true) (by decide +kernel)
      (by omega)
  exact hdigits h

theorem not_isWordChar_of_isDateSeparator {c : Char} (h : isDateSeparator c = true) :
    isWordChar c = false := by
  rcases Bool.or_eq_true_iff.mp h with hc | hc <;> rw [eq_of_beq hc] <;> decide

/-! ### Words -/

/-- Words that are read have a blank behind them. -/
theorem afterWords?_eq_some {words : List String} (hne : words ≠ []) {cs rest : List Char}
    (h : afterWords? words cs = some rest) :
    ∃ front b, isBlank b = true ∧ cs = front ++ b :: rest := by
  induction words generalizing cs with
  | nil => exact absurd rfl hne
  | cons word words ih =>
    simp only [afterWords?, Option.bind_eq_bind, Option.bind_eq_some_iff] at h
    obtain ⟨_, hword, more, hblanks, h⟩ := h
    obtain rfl := afterChars?_eq_some hword
    obtain ⟨blanks, hblank, rfl⟩ := afterBlanks?_eq_some hblanks
    cases words with
    | nil =>
      obtain rfl := Option.some.inj h
      obtain ⟨front, b, rfl, hb⟩ := hblank.exists_concat
      exact ⟨word.toList ++ front, b, hb, by simp⟩
    | cons next words =>
      obtain ⟨front, b, hb, rfl⟩ := ih (by simp) h
      exact ⟨word.toList ++ (blanks ++ front), b, hb, by simp⟩

theorem afterWord?_eq_some {word : String} {cs rest : List Char}
    (h : afterWords? [word] cs = some rest) :
    ∃ blanks, Blanks blanks ∧ cs = word.toList ++ (blanks ++ rest) := by
  simp only [afterWords?, Option.bind_eq_bind, Option.bind_eq_some_iff] at h
  obtain ⟨_, hword, _, hblanks, hend⟩ := h
  obtain rfl := Option.some.inj hend
  obtain rfl := afterChars?_eq_some hword
  obtain ⟨blanks, hblank, rfl⟩ := afterBlanks?_eq_some hblanks
  exact ⟨blanks, hblank, rfl⟩

theorem afterWord?_append {word : String} {blanks rest : List Char} (hblank : Blanks blanks)
    (hrest : startsBlank rest = false) :
    afterWords? [word] (word.toList ++ (blanks ++ rest)) = some rest := by
  simp only [afterWords?, Option.bind_eq_bind, afterChars?_append, Option.bind_some,
    afterBlanks?_append hblank hrest]

theorem afterWord?_append_cons {word : String} {c : Char} (hc : isBlank c = false)
    (hmem : c ∉ word.toList) (a r : List Char) :
    afterWords? [word] (a ++ c :: r) = (afterWords? [word] a).map (· ++ c :: r) := by
  simp only [afterWords?, Option.bind_eq_bind, afterChars?_append_cons hmem]
  cases afterChars? word.toList a with
  | none => rfl
  | some rest =>
    simp only [Option.map_some, Option.bind_some, afterBlanks?_append_cons hc]
    cases afterBlanks? rest <;> rfl

/-! ### Runs of date characters -/

/-- The largest number below a bound that a test accepts. -/
theorem find?_reverse_range_eq_some_iff {p : Nat → Bool} {m n : Nat} :
    (List.range m).reverse.find? p = some n ↔
      n < m ∧ p n = true ∧ ∀ k, n < k → k < m → p k = false := by
  induction m with
  | zero => simp
  | succ m ih =>
    rw [List.range_succ, List.reverse_append, List.reverse_singleton, List.singleton_append,
      List.find?_cons]
    cases hm : p m with
    | true =>
      simp only [Option.some.injEq]
      constructor
      · rintro rfl
        exact ⟨by omega, hm, fun k hk hlt => by omega⟩
      · rintro ⟨hlt, hn, hnone⟩
        rcases Nat.lt_or_ge n m with hless | hge
        · rw [hnone m hless (by omega)] at hm
          cases hm
        · omega
    | false =>
      simp only [ih]
      constructor
      · rintro ⟨hlt, hn, hnone⟩
        refine ⟨by omega, hn, fun k hk hle => ?_⟩
        rcases Nat.lt_or_ge k m with hless | hge
        · exact hnone k hk hless
        · rwa [show k = m by omega]
      · rintro ⟨hlt, hn, hnone⟩
        refine ⟨?_, hn, fun k hk hlt => hnone k hk (by omega)⟩
        rcases Nat.lt_or_ge n m with hless | hge
        · exact hless
        · rw [show n = m by omega, hm] at hn
          cases hn

theorem dateRun?_eq_some_iff {least most : Nat} {cs run : List Char} :
    dateRun? least most cs = some run ↔
      ∃ n, (n ≤ min most (cs.takeWhile isDateChar).length ∧ (least ≤ n ∧ endsAtEdge cs n = true) ∧
        ∀ k, n < k → k ≤ min most (cs.takeWhile isDateChar).length → least ≤ k →
          endsAtEdge cs k = false) ∧ cs.take n = run := by
  unfold dateRun?
  rw [Option.map_eq_some_iff]
  refine exists_congr fun n => and_congr_left fun _ => ?_
  rw [find?_reverse_range_eq_some_iff]
  refine and_congr Nat.lt_succ_iff (and_congr (by simp) (forall_congr' fun k => ?_))
  rw [Nat.lt_succ_iff]
  simp

theorem endsAtEdge_length {run : List Char} (hne : run ≠ []) (rest : List Char) :
    endsAtEdge (run ++ rest) run.length = wordEdge run.getLast? rest.head? := by
  have hpos := List.length_pos_iff.mpr hne
  rw [endsAtEdge, List.getElem?_append_left (by omega), List.getElem?_append_right (Nat.le_refl _),
    Nat.sub_self, ← List.getLast?_eq_getElem?, ← List.head?_eq_getElem?,
    bne_iff_ne.mpr (by omega), Bool.true_and]

theorem endsAtEdge_beyond (run rest : List Char) (i : Nat) :
    endsAtEdge (run ++ rest) (run.length + 1 + i) = wordEdge rest[i]? rest[i + 1]? := by
  rw [endsAtEdge, List.getElem?_append_right (by omega), List.getElem?_append_right (by omega),
    bne_iff_ne.mpr (by omega), Bool.true_and,
    show run.length + 1 + i - 1 - run.length = i by omega,
    show run.length + 1 + i - run.length = i + 1 by omega]

/-- A run that is read stands in front of the text, made of date characters up to an edge. -/
theorem exists_of_dateRun? {least most : Nat} {cs run : List Char}
    (h : dateRun? least most cs = some run) :
    ∃ rest, cs = run ++ rest ∧ least ≤ run.length ∧ run ≠ [] ∧
      (∀ c ∈ run, isDateChar c = true) ∧ wordEdge run.getLast? rest.head? = true := by
  obtain ⟨n, ⟨hle, ⟨hleast, hedge⟩, _⟩, rfl⟩ := dateRun?_eq_some_iff.mp h
  have havailable : n ≤ (cs.takeWhile isDateChar).length := by omega
  have hlength : (cs.take n).length = n := by
    have := (List.takeWhile_prefix isDateChar (l := cs)).length_le
    rw [List.length_take]
    omega
  have hne : cs.take n ≠ [] := by
    intro hnil
    rw [hnil] at hlength
    rw [← hlength] at hedge
    cases hedge
  have hrun : cs.take n <+: cs.takeWhile isDateChar :=
    List.prefix_of_prefix_length_le (List.take_prefix n cs) (List.takeWhile_prefix isDateChar)
      (by omega)
  refine ⟨cs.drop n, (List.take_append_drop n cs).symm, by omega, hne,
    fun c hc => List.all_eq_true.mp List.all_takeWhile c (hrun.subset hc), ?_⟩
  rw [← endsAtEdge_length hne, List.take_append_drop, hlength]
  exact hedge

/-- A run of date characters up to the end of a word, with no such end among those behind it. -/
structure LongestRun (run rest : List Char) : Prop where
  ne_nil : run ≠ []
  dateChars : ∀ c ∈ run, isDateChar c = true
  edge : wordEdge run.getLast? rest.head? = true
  longest : ∀ i, i < (rest.takeWhile isDateChar).length → wordEdge rest[i]? rest[i + 1]? = false

theorem dateRun?_eq_some_iff_longestRun {cs run : List Char} :
    dateRun? 1 cs.length cs = some run ↔ ∃ rest, cs = run ++ rest ∧ LongestRun run rest := by
  have hall (run rest : List Char) (hrun : ∀ c ∈ run, isDateChar c = true) :
      min (run ++ rest).length ((run ++ rest).takeWhile isDateChar).length =
        run.length + (rest.takeWhile isDateChar).length := by
    have := (List.takeWhile_prefix isDateChar (l := rest)).length_le
    rw [List.takeWhile_append_of_pos hrun, List.length_append, List.length_append]
    omega
  constructor
  · intro h
    obtain ⟨rest, rfl, hleast, hne, hrun, hedge⟩ := exists_of_dateRun? h
    refine ⟨rest, rfl, hne, hrun, hedge, fun i hi => ?_⟩
    obtain ⟨n, ⟨hle, _, hnone⟩, htake⟩ := dateRun?_eq_some_iff.mp h
    rw [hall run rest hrun] at hle hnone
    have hlength := congrArg List.length htake
    have hrest := (List.takeWhile_prefix isDateChar (l := rest)).length_le
    rw [List.length_take, List.length_append] at hlength
    rw [← endsAtEdge_beyond run]
    exact hnone _ (by omega) (by omega) (by omega)
  · rintro ⟨rest, rfl, hne, hrun, hedge, hlongest⟩
    have hpos := List.length_pos_iff.mpr hne
    refine dateRun?_eq_some_iff.mpr ⟨run.length, ⟨?_, ⟨hpos, ?_⟩, fun k hk hle _ => ?_⟩, ?_⟩
    · rw [hall run rest hrun]
      omega
    · rw [endsAtEdge_length hne, hedge]
    · rw [hall run rest hrun] at hle
      obtain ⟨i, rfl⟩ : ∃ i, k = run.length + 1 + i := ⟨k - run.length - 1, by omega⟩
      rw [endsAtEdge_beyond]
      exact hlongest i (by omega)
    · exact List.take_left

/-! ### Phrases -/

/-- A text without the letter of a plural in front. -/
def withoutPlural : List Char → List Char
  | 's' :: r => r
  | r => r

/-- Whether a unit and `ago` stand behind a number. -/
def agoBehind (unit : String) (cs : List Char) : Bool :=
  (afterBlanks? cs).any fun rest =>
    (afterChars? unit.toList rest).any fun rest =>
      (afterBlanks? (withoutPlural rest)).any fun rest =>
        wordHere (fun a b => a == b) none "ago".toList rest

/-- A number of units is the run of digits in front of the unit. -/
theorem readAgo?_eq_some_iff {unit : String} {cs : List Char} {n : Nat} :
    readAgo? unit cs = some n ↔
      (cs.takeWhile isAsciiDigit ≠ [] ∧ (cs.takeWhile isAsciiDigit).length ≤ 9) ∧
        agoBehind unit (cs.dropWhile isAsciiDigit) = true ∧
        digitsValue (cs.takeWhile isAsciiDigit) = n := by
  have hbounds : (cs.takeWhile isAsciiDigit ≠ [] ∧ (cs.takeWhile isAsciiDigit).length ≤ 9) ↔
      ¬((cs.takeWhile isAsciiDigit).isEmpty || 9 < (cs.takeWhile isAsciiDigit).length) = true := by
    simp
  rw [hbounds]
  simp only [readAgo?, Option.bind_eq_bind]
  split
  · rename_i hbad
    exact ⟨nofun, fun h => absurd hbad h.1⟩
  · rename_i hgood
    simp only [agoBehind, Option.bind_eq_some_iff, Option.any_eq_true]
    constructor
    · rintro ⟨back, hback, rest, hrest, behind, hbehind, h⟩
      split at h
      · rename_i hago
        exact ⟨hgood, ⟨back, hback, rest, hrest, behind, hbehind, hago⟩, Option.some.inj h⟩
      · cases h
    · rintro ⟨_, ⟨back, hback, rest, hrest, behind, hbehind, hago⟩, rfl⟩
      exact ⟨back, hback, rest, hrest, behind, hbehind, if_pos hago⟩

theorem exists_of_readAgo? {unit : String} {cs : List Char} {n : Nat}
    (h : readAgo? unit cs = some n) :
    ∃ ds b rest, cs = ds ++ b :: rest ∧ ds ≠ [] ∧ (∀ c ∈ ds, isAsciiDigit c = true) ∧
      isBlank b = true ∧ digitsValue ds = n := by
  obtain ⟨⟨hne, _⟩, hbehind, hn⟩ := readAgo?_eq_some_iff.mp h
  unfold agoBehind at hbehind
  cases hblanks : afterBlanks? (cs.dropWhile isAsciiDigit) with
  | none =>
    rw [hblanks] at hbehind
    cases hbehind
  | some rest =>
    obtain ⟨blanks, hblank, hrest⟩ := afterBlanks?_eq_some hblanks
    obtain ⟨b, more, rfl, hb⟩ := hblank.exists_cons
    refine ⟨cs.takeWhile isAsciiDigit, b, more ++ rest, ?_, hne,
      List.all_eq_true.mp List.all_takeWhile, hb, hn⟩
    rw [← List.cons_append, ← hrest, List.takeWhile_append_dropWhile]

/-- The run behind the words has a blank in front and ends at the edge of a word. -/
theorem readOn?_eq_some {words : List String} (hne : words ≠ []) {cs run : List Char}
    (h : readOn? words cs = some run) :
    ∃ front b rest, cs = front ++ b :: (run ++ rest) ∧ isBlank b = true ∧ run ≠ [] ∧
      (∀ c ∈ run, isDateChar c = true) ∧ wordEdge run.getLast? rest.head? = true := by
  simp only [readOn?, Option.bind_eq_bind, Option.bind_eq_some_iff] at h
  obtain ⟨back, hwords, hrun⟩ := h
  obtain ⟨front, b, hb, rfl⟩ := afterWords?_eq_some hne hwords
  obtain ⟨rest, rfl, _, hrunNe, hdate, hedge⟩ := exists_of_dateRun? hrun
  exact ⟨front, b, rest, rfl, hb, hrunNe, hdate, hedge⟩

/-- What stands between two dates: `and` with blanks around it. -/
def Joint (cs : List Char) : Prop :=
  ∃ front back, Blanks front ∧ Blanks back ∧ cs = front ++ ("and".toList ++ back)

theorem Joint.exists_cons {cs : List Char} (h : Joint cs) :
    ∃ b more, cs = b :: more ∧ isBlank b = true := by
  obtain ⟨front, back, hfront, _, rfl⟩ := h
  obtain ⟨b, more, rfl, hb⟩ := hfront.exists_cons
  exact ⟨b, more ++ ("and".toList ++ back), by simp, hb⟩

theorem startsBlank_of_dateChars {run : List Char} (hne : run ≠ [])
    (hrun : ∀ c ∈ run, isDateChar c = true) (rest : List Char) :
    startsBlank (run ++ rest) = false := by
  obtain ⟨c, more, rfl⟩ := List.exists_cons_of_ne_nil hne
  exact not_isBlank_of_isDateChar (hrun c List.mem_cons_self)

theorem readBetween?_eq_some_iff {cs v w : List Char} :
    readBetween? cs = some (v, w) ↔
      ∃ gap joint rest, cs = "between".toList ++ (gap ++ (v ++ (joint ++ (w ++ rest)))) ∧
        Blanks gap ∧ Joint joint ∧ (v ≠ [] ∧ ∀ c ∈ v, isDateChar c = true) ∧
        LongestRun w rest := by
  simp only [readBetween?, Option.bind_eq_bind, Option.bind_eq_some_iff]
  constructor
  · rintro ⟨back, hbetween, h⟩
    obtain ⟨gap, hgap, rfl⟩ := afterWord?_eq_some hbetween
    split at h
    · cases h
    rename_i hempty
    simp only [Option.bind_eq_some_iff] at h
    obtain ⟨_, hblanks, _, hand, second, hsecond, h⟩ := h
    obtain ⟨front, hfront, hback⟩ := afterBlanks?_eq_some hblanks
    obtain ⟨behind, hbehind, rfl⟩ := afterWord?_eq_some hand
    obtain ⟨rest, rfl, hrun⟩ := dateRun?_eq_some_iff_longestRun.mp hsecond
    obtain ⟨rfl, rfl⟩ := Prod.mk.inj (Option.some.inj h)
    refine ⟨gap, front ++ ("and".toList ++ behind), rest, ?_, hgap,
      ⟨front, behind, hfront, hbehind, rfl⟩, ⟨?_, List.all_eq_true.mp List.all_takeWhile⟩, hrun⟩
    · have hsplit := List.takeWhile_append_dropWhile (p := isDateChar) (l := back)
      rw [hback] at hsplit
      rw [List.append_assoc, List.append_assoc, hsplit]
    · intro hnil
      rw [hnil] at hempty
      exact hempty rfl
  · rintro ⟨gap, joint, rest, rfl, hgap, hjoint, ⟨hv, hdate⟩, hrun⟩
    have hstop : ∀ c ∈ (joint ++ (w ++ rest)).head?, isDateChar c = false := by
      obtain ⟨b, more, rfl, hb⟩ := hjoint.exists_cons
      rintro _ ⟨⟩
      rw [Bool.eq_false_iff]
      intro hbad
      rw [not_isBlank_of_isDateChar hbad] at hb
      cases hb
    have htake := takeWhile_run hdate hstop
    have hdrop := dropWhile_run hdate hstop
    obtain ⟨front, behind, hfront, hbehind, rfl⟩ := hjoint
    refine ⟨_, afterWord?_append hgap (startsBlank_of_dateChars hv hdate _), ?_⟩
    simp only [htake, hdrop, if_neg (show ¬v.isEmpty = true by simpa using hv)]
    simp only [List.append_assoc, Option.bind_eq_some_iff]
    exact ⟨_, afterBlanks?_append hfront rfl, _,
      afterWord?_append hbehind (startsBlank_of_dateChars hrun.ne_nil hrun.dateChars rest), w,
      dateRun?_eq_some_iff_longestRun.mpr ⟨rest, rfl, hrun⟩, rfl⟩

end Question
end QueryGate
