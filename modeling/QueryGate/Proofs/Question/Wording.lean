import QueryGate.Proofs.Question.Naming

/-!
# The texts of phrases with digits

A phrase that counts back, or that states one date or two, is a text of a fixed form.  Where a kind
of phrase is found in a question, a text of its form stands, and a word starts with it.  That text
says by itself what the question says.
-/

namespace QueryGate
namespace Question

open Text

/-! ### Forms -/

/-- Words, each with blanks behind it. -/
inductive Spoken : List String → List Char → Prop where
  | nil : Spoken [] []
  | cons {word : String} {words : List String} {blanks more : List Char} (hblanks : Blanks blanks)
      (hmore : Spoken words more) : Spoken (word :: words) (word.toList ++ (blanks ++ more))

/-- A unit and `ago` behind a number. -/
inductive AgoTail (unit : String) : List Char → Prop where
  | ago {front plural back : List Char} (hfront : Blanks front)
      (hplural : plural = [] ∨ plural = ['s']) (hback : Blanks back) :
      AgoTail unit (front ++ (unit.toList ++ (plural ++ (back ++ "ago".toList))))

/-- A number of units ago. -/
inductive Ago (unit : String) : List Char → Prop where
  | count {ds tail : List Char} (hne : ds ≠ []) (hds : ∀ c ∈ ds, isAsciiDigit c = true)
      (htail : AgoTail unit tail) : Ago unit (ds ++ tail)

/-- The kinds of phrases with digits. -/
def numbered : List Kind := [.daysAgo, .weeksAgo, .between, .on_, .weekOf]

/-- The texts of phrases with digits. -/
inductive Wording : Kind → List Char → Prop where
  | daysAgo {words : List Char} (hago : Ago "day" words) : Wording .daysAgo words
  | weeksAgo {words : List Char} (hago : Ago "week" words) : Wording .weeksAgo words
  | between {gap v joint w : List Char} (hgap : Blanks gap)
      (hv : v ≠ [] ∧ ∀ c ∈ v, isDateChar c = true) (hjoint : Joint joint)
      (hw : w ≠ [] ∧ ∀ c ∈ w, isDateChar c = true) :
      Wording .between ("between".toList ++ (gap ++ (v ++ (joint ++ w))))
  | on_ {words run : List Char} (hwords : Spoken ["on"] words)
      (hrun : run ≠ [] ∧ ∀ c ∈ run, isDateChar c = true) : Wording .on_ (words ++ run)
  | weekOf {words run : List Char} (hwords : Spoken ["week", "of"] words)
      (hrun : run ≠ [] ∧ ∀ c ∈ run, isDateChar c = true) : Wording .weekOf (words ++ run)

theorem Ago.ne_nil {unit : String} {words : List Char} (h : Ago unit words) : words ≠ [] := by
  cases h with
  | count hne => exact List.append_ne_nil_of_left_ne_nil hne _

theorem Wording.ne_nil {kind : Kind} {words : List Char} (h : Wording kind words) : words ≠ [] := by
  cases h with
  | daysAgo hago => exact hago.ne_nil
  | weeksAgo hago => exact hago.ne_nil
  | between => exact List.append_ne_nil_of_left_ne_nil (by decide) _
  | on_ _ hrun => exact List.append_ne_nil_of_right_ne_nil _ hrun.1
  | weekOf _ hrun => exact List.append_ne_nil_of_right_ne_nil _ hrun.1

theorem Wording.starts {kind : Kind} {words : List Char} (h : Wording kind words) :
    isWordChar? words.head? = true := by
  have hago {unit : String} (hago : Ago unit words) : isWordChar? words.head? = true := by
    obtain ⟨hne, hds, _⟩ := hago
    obtain ⟨k, more, rfl⟩ := List.exists_cons_of_ne_nil hne
    exact isWordChar_of_isAsciiDigit (hds k List.mem_cons_self)
  cases h with
  | daysAgo h => exact hago h
  | weeksAgo h => exact hago h
  | between => rfl
  | on_ hwords =>
    cases hwords
    rfl
  | weekOf hwords =>
    cases hwords
    rfl

/-- A phrase with digits stands between `front` and `back`, and a word starts with it. -/
structure PhraseAt (q : List Char) (kind : Kind) (front words back : List Char) : Prop where
  split : q = front ++ (words ++ back)
  wording : Wording kind words
  starts : wordEdge front.getLast? words.head? = true

/-! ### What the readers read -/

theorem Spoken.exists_blanks {word : String} {words : List String} {cs : List Char}
    (h : Spoken (word :: words) cs) :
    ∃ blanks more, cs = word.toList ++ (blanks ++ more) ∧ Blanks blanks ∧ Spoken words more := by
  cases h with
  | cons hblanks hmore => exact ⟨_, _, rfl, hblanks, hmore⟩

theorem Spoken.eq_nil {cs : List Char} (h : Spoken [] cs) : cs = [] := by
  cases h
  rfl

theorem exists_spoken {words : List String} {cs rest : List Char}
    (h : afterWords? words cs = some rest) : ∃ front, cs = front ++ rest ∧ Spoken words front := by
  induction words generalizing cs with
  | nil => exact ⟨[], Option.some.inj h, .nil⟩
  | cons word words ih =>
    simp only [afterWords?, Option.bind_eq_bind, Option.bind_eq_some_iff] at h
    obtain ⟨_, hword, _, hblanks, h⟩ := h
    obtain rfl := afterChars?_eq_some hword
    obtain ⟨blanks, hblank, rfl⟩ := afterBlanks?_eq_some hblanks
    obtain ⟨front, rfl, hfront⟩ := ih h
    exact ⟨_, by simp, .cons hblank hfront⟩

theorem afterWords?_append {words : List String} {front rest : List Char} (h : Spoken words front)
    (hwords : ∀ word ∈ words, ∀ r, startsBlank (word.toList ++ r) = false)
    (hrest : startsBlank rest = false) : afterWords? words (front ++ rest) = some rest := by
  induction h with
  | nil => rfl
  | @cons word words blanks more hblanks hmore ih =>
    obtain ⟨_, hwords⟩ := List.forall_mem_cons.mp hwords
    have hnext : startsBlank (more ++ rest) = false := by
      cases hmore with
      | nil => exact hrest
      | cons =>
        rw [List.append_assoc]
        exact hwords _ List.mem_cons_self _
    simp only [afterWords?, Option.bind_eq_bind, List.append_assoc, afterChars?_append,
      afterBlanks?_append hblanks hnext, Option.bind_some, ih hwords]

theorem eq_append_of_wordHere {before : Option Char} {word cs : List Char}
    (h : wordHere (fun a b => a == b) before word cs = true) : ∃ rest, cs = word ++ rest := by
  induction word generalizing before cs with
  | nil => exact ⟨cs, rfl⟩
  | cons k word ih =>
    cases cs with
    | nil => cases h
    | cons c cs =>
      obtain ⟨hk, hrest⟩ := Bool.and_eq_true_iff.mp h
      obtain ⟨rest, rfl⟩ := ih hrest
      exact ⟨rest, by rw [eq_of_beq hk, List.cons_append]⟩

theorem withoutPlural_cases (cs : List Char) :
    ∃ plural, (plural = [] ∨ plural = ['s']) ∧ cs = plural ++ withoutPlural cs := by
  unfold withoutPlural
  split
  · exact ⟨['s'], Or.inr rfl, rfl⟩
  · exact ⟨[], Or.inl rfl, rfl⟩

theorem exists_agoTail {unit : String} {cs : List Char} (h : agoBehind unit cs = true) :
    ∃ tail rest, cs = tail ++ rest ∧ AgoTail unit tail := by
  simp only [agoBehind, Option.any_eq_true] at h
  obtain ⟨_, hblanks, _, hunit, _, hmore, hago⟩ := h
  obtain ⟨front, hfront, rfl⟩ := afterBlanks?_eq_some hblanks
  obtain rfl := afterChars?_eq_some hunit
  rename_i behind _
  obtain ⟨plural, hplural, hbehind⟩ := withoutPlural_cases behind
  obtain ⟨back, hback, hrest⟩ := afterBlanks?_eq_some hmore
  obtain ⟨rest, rfl⟩ := eq_append_of_wordHere hago
  refine ⟨_, rest, ?_, .ago hfront hplural hback⟩
  rw [hbehind, hrest]
  simp

theorem agoBehind_of_agoTail {unit : String}
    (hunit : ∀ r, startsBlank (unit.toList ++ r) = false) {tail : List Char}
    (h : AgoTail unit tail) : agoBehind unit tail = true := by
  obtain @⟨front, plural, back, hfront, hplural, hback⟩ := h
  have hsingular : withoutPlural (plural ++ (back ++ "ago".toList)) = back ++ "ago".toList := by
    rcases hplural with rfl | rfl
    · obtain ⟨b, more, rfl, hb⟩ := hback.exists_cons
      have hne : b ≠ 's' := by
        rintro rfl
        exact absurd hb (by decide)
      simp [withoutPlural, hne]
    · rfl
  simp only [agoBehind, Option.any_eq_true]
  refine ⟨_, afterBlanks?_append hfront (hunit _), _, afterChars?_append _ _, "ago".toList, ?_, rfl⟩
  rw [hsingular]
  exact afterBlanks?_append hback rfl

theorem exists_wording_of_readAgo? {unit : String}
    (hunit : ∀ r, startsBlank (unit.toList ++ r) = false) {cs : List Char} {n : Nat}
    (h : readAgo? unit cs = some n) :
    ∃ words rest, cs = words ++ rest ∧ Ago unit words ∧ readAgo? unit words = some n := by
  obtain ⟨⟨hne, hle⟩, hbehind, hn⟩ := readAgo?_eq_some_iff.mp h
  obtain ⟨tail, rest, hrest, htail⟩ := exists_agoTail hbehind
  have hdigits : ∀ c ∈ cs.takeWhile isAsciiDigit, isAsciiDigit c = true :=
    List.all_eq_true.mp List.all_takeWhile
  have hstop : NotDigit tail.head? := by
    obtain ⟨hfront, _, _⟩ := htail
    obtain ⟨b, more, rfl, hb⟩ := hfront.exists_cons
    exact notDigit_of_isBlank hb
  refine ⟨cs.takeWhile isAsciiDigit ++ tail, rest, ?_, .count hne hdigits htail,
    readAgo?_eq_some_iff.mpr ?_⟩
  · rw [List.append_assoc, ← hrest, List.takeWhile_append_dropWhile]
  · rw [takeWhile_run hdigits hstop, dropWhile_run hdigits hstop]
    exact ⟨⟨hne, hle⟩, agoBehind_of_agoTail hunit htail, hn⟩

/-- A written date ends a word. -/
theorem Writes.edge {d : Date} {run : List Char} (h : Writes d run) :
    wordEdge run.getLast? none = true := by
  rw [wordEdge, h.dateShaped.isWordChar?_getLast?]
  rfl

theorem dateRun?_of_append {least most : Nat} {run rest : List Char}
    (h : dateRun? least most (run ++ rest) = some run) (hedge : wordEdge run.getLast? none = true) :
    dateRun? least most run = some run := by
  obtain ⟨_, _, hleast, hne, hrun, _⟩ := exists_of_dateRun? h
  obtain ⟨n, ⟨hle, _, _⟩, htake⟩ := dateRun?_eq_some_iff.mp h
  have hmost : run.length ≤ most := by
    rw [← htake, List.length_take]
    omega
  have hall : run.takeWhile isDateChar = run := by
    rw [← List.append_nil run, List.takeWhile_append_of_pos hrun, List.takeWhile_nil]
  have hend := endsAtEdge_length hne []
  rw [List.append_nil] at hend
  refine dateRun?_eq_some_iff.mpr ⟨run.length, ⟨?_, ⟨hleast, hend.trans hedge⟩, ?_⟩, List.take_length⟩
  · rw [hall]
    omega
  · intro k hk hbeyond
    rw [hall] at hbeyond
    omega

theorem exists_wording_of_readOn? {words : List String}
    (hwords : ∀ word ∈ words, ∀ r, startsBlank (word.toList ++ r) = false) {cs run : List Char}
    (h : readOn? words cs = some run) {d : Date} (hd : date? run = some d) :
    ∃ front rest, cs = (front ++ run) ++ rest ∧ Spoken words front ∧
      (run ≠ [] ∧ ∀ c ∈ run, isDateChar c = true) ∧ readOn? words (front ++ run) = some run := by
  simp only [readOn?, Option.bind_eq_bind, Option.bind_eq_some_iff] at h
  obtain ⟨_, hafter, hrun⟩ := h
  obtain ⟨front, rfl, hfront⟩ := exists_spoken hafter
  obtain ⟨rest, rfl, _, hne, hdate, _⟩ := exists_of_dateRun? hrun
  have hstart : startsBlank run = false := by
    have hstart := startsBlank_of_dateChars hne hdate []
    rwa [List.append_nil] at hstart
  refine ⟨front, rest, (List.append_assoc _ _ _).symm, hfront, ⟨hne, hdate⟩, ?_⟩
  simp only [readOn?, Option.bind_eq_bind, afterWords?_append hfront hwords hstart,
    Option.bind_some]
  exact dateRun?_of_append hrun (writes_of_date? hdate hd).edge

/-- What a reader of phrases finds stands in the text with a word starting there, and is found in
that part of the text alone. -/
theorem exists_phraseAt_of_read {α : Type} {read : List Char → Option α} {q : List Char} {found : α}
    {kind : Kind} (h : firstMatch? read q = some found)
    (hread : ∀ cs, read cs = some found →
      ∃ words rest, cs = words ++ rest ∧ Wording kind words ∧ read words = some found) :
    ∃ front words back, PhraseAt q kind front words back ∧
      firstMatch? read words = some found := by
  obtain ⟨front, _, _, rfl, _, hat⟩ := exists_of_firstMatchFrom? h
  obtain ⟨hedge, hfound⟩ := readAt_eq_some hat
  obtain ⟨words, rest, rfl, hwording, halone⟩ := hread _ hfound
  have hhead : (words ++ rest).head? = words.head? := by
    obtain ⟨c, more, rfl⟩ := List.exists_cons_of_ne_nil hwording.ne_nil
    rfl
  rw [hhead, Option.or_none] at hedge
  refine ⟨front, words, rest, ⟨rfl, hwording, hedge⟩, ?_⟩
  refine firstMatchFrom?_eq_some hwording.ne_nil skips_nil ?_
  have hstart : wordEdge none words.head? = true := by
    rw [wordEdge, hwording.starts]
    rfl
  exact (if_pos hstart).trans halone

theorem exists_phraseAt_of_ago {unit : String}
    (hunit : ∀ r, startsBlank (unit.toList ++ r) = false) {q : List Char} {kind : Kind}
    (hkind : ∀ words, Ago unit words → Wording kind words) {n : Nat}
    (h : firstMatch? (readAgo? unit) q = some n) :
    ∃ front words back, PhraseAt q kind front words back ∧
      firstMatch? (readAgo? unit) words = some n := by
  refine exists_phraseAt_of_read h fun cs hread => ?_
  obtain ⟨words, rest, rfl, hago, halone⟩ := exists_wording_of_readAgo? hunit hread
  exact ⟨words, rest, rfl, hkind words hago, halone⟩

theorem exists_phraseAt_of_findDated {words : List String}
    (hwords : ∀ word ∈ words, ∀ r, startsBlank (word.toList ++ r) = false)
    {phraseOf : Date → Phrase} {q : List Char} {kind : Kind}
    (hkind : ∀ front run, Spoken words front → (run ≠ [] ∧ ∀ c ∈ run, isDateChar c = true) →
      Wording kind (front ++ run))
    {phrase : Phrase} (h : findDated words phraseOf q = .phrase phrase) :
    ∃ front text back, PhraseAt q kind front text back ∧
      findDated words phraseOf text = .phrase phrase := by
  obtain ⟨run, d, hrun, hd, rfl⟩ := exists_of_findDated h
  obtain ⟨front, text, back, hat, halone⟩ := exists_phraseAt_of_read hrun fun cs hread => by
    obtain ⟨front, rest, rfl, hfront, hdate, halone⟩ := exists_wording_of_readOn? hwords hread hd
    exact ⟨_, rest, rfl, hkind front run hfront hdate, halone⟩
  refine ⟨front, text, back, hat, ?_⟩
  rw [findDated, halone]
  simp [hd, Found.ofDates]

/-- Where a kind with digits has a phrase, the text of the phrase stands, and by itself it says the
same phrase. -/
theorem exists_phraseAt {q : List Char} {kind : Kind} {phrase : Phrase} (hkind : kind ∈ numbered)
    (h : kind.find q = .phrase phrase) :
    ∃ front words back, PhraseAt q kind front words back ∧ kind.find words = .phrase phrase := by
  simp only [numbered, List.mem_cons, List.not_mem_nil, or_false] at hkind
  rcases hkind with rfl | rfl | rfl | rfl | rfl
  · obtain ⟨n, hn, rfl⟩ := Option.map_eq_some_iff.mp (ofOption_eq_phrase_iff.mp h)
    obtain ⟨front, words, back, hat, halone⟩ :=
      exists_phraseAt_of_ago (fun _ => rfl) (fun _ => .daysAgo) hn
    exact ⟨front, words, back, hat, by rw [Kind.find, halone]; rfl⟩
  · obtain ⟨n, hn, rfl⟩ := Option.map_eq_some_iff.mp (ofOption_eq_phrase_iff.mp h)
    obtain ⟨front, words, back, hat, halone⟩ :=
      exists_phraseAt_of_ago (fun _ => rfl) (fun _ => .weeksAgo) hn
    exact ⟨front, words, back, hat, by rw [Kind.find, halone]; rfl⟩
  · obtain ⟨v, w, a, b, hruns, ha, hb, rfl⟩ := exists_of_find_between h
    obtain ⟨front, words, back, hat, halone⟩ := exists_phraseAt_of_read hruns fun cs hread => by
      obtain ⟨gap, joint, rest, rfl, hgap, hjoint, hv, hw⟩ := readBetween?_eq_some_iff.mp hread
      have hend : LongestRun w [] :=
        ⟨hw.ne_nil, hw.dateChars, (writes_of_date? hw.dateChars hb).edge, fun i hi => by cases hi⟩
      exact ⟨_, rest, by simp, .between hgap hv hjoint ⟨hw.ne_nil, hw.dateChars⟩,
        readBetween?_eq_some_iff.mpr ⟨gap, joint, [], by simp, hgap, hjoint, hv, hend⟩⟩
    refine ⟨front, words, back, hat, ?_⟩
    rw [Kind.find, halone]
    simp [ha, hb, Found.ofDates]
  · exact exists_phraseAt_of_findDated (by simp +decide [startsBlank]) (fun _ _ => .on_) h
  · exact exists_phraseAt_of_findDated (by simp +decide [startsBlank]) (fun _ _ => .weekOf) h

end Question
end QueryGate
