import QueryGate.Proofs.Question.Reading

/-!
# Exchanging two dates

The dates of a `between` can change places.  No reader of another phrase sees which date stands at a
place: such a reader never gets past the first digit of a date, and behind a date it sees its last
number only as some number.
-/

namespace QueryGate
namespace Question

open Text Date

/-! ### The shape of a date -/

/-- A run of date characters that starts with a digit and ends with a short number behind a
separator. -/
structure DateShaped (w : List Char) : Prop where
  starts : ∃ j more, w = j :: more ∧ isAsciiDigit j = true
  ends : ∃ u s g, w = u ++ s :: g ∧ (∀ c ∈ u, isDateChar c = true) ∧ isDateSeparator s = true ∧
    g ≠ [] ∧ (∀ c ∈ g, isAsciiDigit c = true) ∧ g.length ≤ 9

theorem starts_padded (width n : Nat) (r : List Char) :
    ∃ j more, padded width n ++ r = j :: more ∧ isAsciiDigit j = true := by
  obtain ⟨j, more, hcons⟩ := List.exists_cons_of_ne_nil (padded_ne_nil width n)
  refine ⟨j, more ++ r, by rw [hcons, List.cons_append], padded_digits width n j ?_⟩
  rw [hcons]
  exact List.mem_cons_self

theorem Writes.dateShaped {d : Date} {w : List Char} (h : Writes d w) : DateShaped w := by
  have hdate (width n : Nat) (c : Char) (hc : c ∈ padded width n) : isDateChar c = true :=
    isDateChar_of_digit (padded_digits width n c hc)
  rcases h with rfl | h
  · refine ⟨?_, padded 4 d.year ++ '-' :: padded 2 d.month, '-', padded 2 d.day, rfl, ?_, rfl,
      padded_ne_nil _ _, padded_digits _ _, by rw [length_day]; decide⟩
    · rw [isoChars, List.append_assoc]
      exact starts_padded _ _ _
    · intro c hc
      rcases List.mem_append.mp hc with hc | hc
      · exact hdate _ _ c hc
      · rcases List.mem_cons.mp hc with rfl | hc
        · rfl
        · exact hdate _ _ c hc
  · obtain ⟨_, _, hs, ht⟩ := h
    rename_i dayWidth monthWidth s t _ _
    refine ⟨starts_padded _ _ _, padded dayWidth d.day ++ s :: padded monthWidth d.month, t,
      padded 4 d.year, by simp, ?_, ht, padded_ne_nil _ _, padded_digits _ _,
      by rw [length_year]; decide⟩
    intro c hc
    rcases List.mem_append.mp hc with hc | hc
    · exact hdate _ _ c hc
    · rcases List.mem_cons.mp hc with rfl | hc
      · exact isDateChar_of_isDateSeparator hs
      · exact hdate _ _ c hc

theorem DateShaped.exists_concat {w : List Char} (h : DateShaped w) :
    ∃ front k, w = front ++ [k] ∧ isAsciiDigit k = true := by
  obtain ⟨u, s, g, rfl, _, _, hg, hdigits, _⟩ := h.ends
  refine ⟨u ++ s :: g.dropLast, g.getLast hg, ?_, hdigits _ (List.getLast_mem hg)⟩
  rw [List.append_assoc, List.cons_append, List.dropLast_concat_getLast]

theorem DateShaped.ne_nil {w : List Char} (h : DateShaped w) : w ≠ [] := by
  obtain ⟨j, more, rfl, _⟩ := h.starts
  exact List.cons_ne_nil j more

theorem DateShaped.dateChars {w : List Char} (h : DateShaped w) : ∀ c ∈ w, isDateChar c = true := by
  obtain ⟨u, s, g, rfl, hu, hs, _, hdigits, _⟩ := h.ends
  intro c hc
  rcases List.mem_append.mp hc with hc | hc
  · exact hu c hc
  · rcases List.mem_cons.mp hc with rfl | hc
    · exact isDateChar_of_isDateSeparator hs
    · exact isDateChar_of_digit (hdigits c hc)

/-! ### Readers that do not see dates -/

section Quiet

variable {α : Type} {read : List Char → Option α}

/-- What follows a text is no digit, and what is in front of it is none either. -/
def NotDigit (c : Option Char) : Prop := ∀ d ∈ c, isAsciiDigit d = false

/-- A reader that does not see which date stands at a place. -/
structure Quiet (read : List Char → Option α) : Prop where
  front : ∀ {a r : List Char} {j : Char}, a ≠ [] → NotDigit a.getLast? → isAsciiDigit j = true →
    (read (a ++ j :: r)).isSome = (read (a ++ ['0'])).isSome
  inside : ∀ {a r : List Char} {s : Char}, (∀ c ∈ a, isDateChar c = true) →
    isDateSeparator s = true → read (a ++ s :: r) = none
  behind : ∀ {g r : List Char}, g ≠ [] → (∀ c ∈ g, isAsciiDigit c = true) → g.length ≤ 9 →
    NotDigit r.head? → (read (g ++ r)).isSome = (read ('0' :: r)).isSome

theorem firstMatchFrom?_before {a b : Option Char} (h : isWordChar? a = isWordChar? b)
    (cs : List Char) : firstMatchFrom? read a cs = firstMatchFrom? read b cs := by
  cases cs with
  | nil => rfl
  | cons c r =>
    have hedge : wordEdge a (some c) = wordEdge b (some c) := by rw [wordEdge, wordEdge, h]
    rw [firstMatchFrom?, firstMatchFrom?, hedge]

theorem readAt_of_none {before : Option Char} {x y : List Char} (h : read y = none) :
    readAt read before x y = none := by
  rw [readAt, h]
  split <;> rfl

/-- Nothing starts in a text that ends with a separator behind date characters. -/
theorem Quiet.skips (hquiet : Quiet read) {u : List Char} {s : Char}
    (hu : ∀ c ∈ u, isDateChar c = true) (hs : isDateSeparator s = true) (before : Option Char)
    (back : List Char) : Skips read before (u ++ [s]) back := by
  intro x y hne hfront
  rcases List.append_eq_append_iff.mp hfront with ⟨z, hx, hz⟩ | ⟨z, hu', hy⟩
  · cases z with
    | nil =>
      rw [← List.nil_append y] at hz
      obtain rfl : y = [s] := hz.symm
      exact readAt_of_none (hquiet.inside (a := []) nofun hs)
    | cons c z =>
      obtain ⟨_, hnil⟩ := List.append_eq_nil_iff.mp (List.cons.inj hz).2.symm
      exact absurd hnil hne
  · rw [hy, List.append_assoc]
    exact readAt_of_none (hquiet.inside (fun c hc => hu c (by simp [hu', hc])) hs)

/-- No word starts between two digits. -/
theorem skips_digits {k : Char} (hk : isAsciiDigit k = true) {ds : List Char}
    (hds : ∀ c ∈ ds, isAsciiDigit c = true) (back : List Char) : Skips read (some k) ds back := by
  intro x y hne hfront
  obtain ⟨c, more, rfl⟩ := List.exists_cons_of_ne_nil hne
  -- Both neighbours of such a place are word characters, so it is no edge.
  have hlast : isWordChar? (x.getLast?.or (some k)) = true := by
    cases h : x.getLast? with
    | none => exact isWordChar_of_isAsciiDigit hk
    | some d =>
      exact isWordChar_of_isAsciiDigit (hds d (by simp [hfront, List.mem_of_getLast? h]))
  have hnext : isWordChar? (c :: more ++ back).head? = true :=
    isWordChar_of_isAsciiDigit (hds c (by simp [hfront]))
  rw [readAt, wordEdge, hlast, hnext]
  rfl

/-- Nothing is found in a date and behind it but what its last number starts and what is behind. -/
theorem firstMatchFrom?_dateShaped (hquiet : Quiet read) {w y : List Char} (hw : DateShaped w)
    (hy : NotDigit y.head?) (before : Option Char) :
    (firstMatchFrom? read before (w ++ y)).isSome =
      (firstMatchFrom? read (some '-') ('0' :: y)).isSome := by
  obtain ⟨u, s, g, rfl, hu, hs, hg, hdigits, hlength⟩ := hw.ends
  obtain ⟨k, more, rfl⟩ := List.exists_cons_of_ne_nil hg
  have hk := hdigits k List.mem_cons_self
  have hmore : ∀ c ∈ more, isAsciiDigit c = true := fun c hc =>
    hdigits c (List.mem_cons_of_mem k hc)
  have hend : isWordChar? (more.getLast?.or (some k)) = isWordChar? (some '0') := by
    refine Eq.trans ?_ (by decide : true = isWordChar? (some '0'))
    cases h : more.getLast? with
    | none => exact isWordChar_of_isAsciiDigit hk
    | some d => exact isWordChar_of_isAsciiDigit (hmore d (List.mem_of_getLast? h))
  have hplace : (readAt read (some s) [] (k :: (more ++ y))).isSome =
      (readAt read (some '-') [] ('0' :: y)).isSome := by
    have hedge : wordEdge (some s) (some k) = true := by
      rw [wordEdge, isWordChar?, isWordChar?, not_isWordChar_of_isDateSeparator hs,
        isWordChar_of_isAsciiDigit hk]
      rfl
    have hzero : wordEdge (some '-') (some '0') = true := by decide
    have hread := hquiet.behind (List.cons_ne_nil k more) hdigits hlength hy
    rwa [readAt, readAt, List.head?_cons, List.head?_cons, List.getLast?_nil, Option.none_or,
      Option.none_or, if_pos hedge, if_pos hzero]
  calc (firstMatchFrom? read before (u ++ s :: (k :: more) ++ y)).isSome
    _ = (firstMatchFrom? read before ((u ++ [s]) ++ (k :: (more ++ y)))).isSome := by simp
    _ = (firstMatchFrom? read (some s) (k :: (more ++ y))).isSome := by
      rw [firstMatchFrom?_append (hquiet.skips hu hs before _)]
      simp
    _ = ((readAt read (some s) [] (k :: (more ++ y))).isSome ||
          (firstMatchFrom? read (some '0') y).isSome) := by
      rw [firstMatchFrom?_cons, Option.isSome_or, firstMatchFrom?_append (skips_digits hk hmore y),
        firstMatchFrom?_before hend]
    _ = (firstMatchFrom? read (some '-') ('0' :: y)).isSome := by
      rw [hplace, firstMatchFrom?_cons, Option.isSome_or]

/-- A search goes on in front of a date and behind it, whichever the date is. -/
theorem firstMatchFrom?_append_dateShaped (hquiet : Quiet read) {w y : List Char}
    (hw : DateShaped w) (hy : NotDigit y.head?) (x : List Char) (before : Option Char)
    (hx : NotDigit (x.getLast?.or before)) :
    (firstMatchFrom? read before (x ++ (w ++ y))).isSome =
      ((firstMatchFrom? read before (x ++ ['0', '-'])).isSome ||
        (firstMatchFrom? read (some '-') ('0' :: y)).isSome) := by
  induction x generalizing before with
  | nil =>
    have hskips : Skips read before (['0'] ++ ['-']) [] :=
      hquiet.skips (List.all_eq_true.mp (by decide)) (by decide) before []
    have hnone : firstMatchFrom? read before ['0', '-'] = none := firstMatchFrom?_append hskips
    rw [List.nil_append, List.nil_append, hnone]
    exact firstMatchFrom?_dateShaped hquiet hw hy before
  | cons c x ih =>
    -- At a place in front of the date the reader gets as far as the first digit, which it takes
    -- for any other.
    obtain ⟨j, more, hw', hj⟩ := hw.starts
    rw [getLast?_cons_or] at hx
    have hplace : (readAt read before [] (c :: (x ++ (w ++ y)))).isSome =
        (readAt read before [] (c :: (x ++ ['0', '-']))).isSome := by
      have hlast : NotDigit (c :: x).getLast? := by
        rwa [← Option.or_none (o := (c :: x).getLast?), getLast?_cons_or]
      have hdate := hquiet.front (r := more ++ y) (List.cons_ne_nil c x) hlast hj
      have hzero := hquiet.front (r := ['-']) (List.cons_ne_nil c x) hlast
        (by decide : isAsciiDigit '0' = true)
      rw [readAt, readAt, List.head?_cons, List.head?_cons, hw', List.cons_append]
      split
      · exact hdate.trans hzero.symm
      · rfl
    rw [List.cons_append, List.cons_append, firstMatchFrom?_cons, firstMatchFrom?_cons,
      Option.isSome_or, Option.isSome_or, ih (some c) hx, hplace, Bool.or_assoc]

/-- A search does not see whether two dates have changed places. -/
theorem firstMatch?_exchange (hquiet : Quiet read) {v w front joint rest : List Char}
    (hv : DateShaped v) (hw : DateShaped w) (hfront : NotDigit front.getLast?)
    (hstart : NotDigit joint.head?) (hend : NotDigit joint.getLast?) (hne : joint ≠ [])
    (hrest : NotDigit rest.head?) :
    (firstMatch? read (front ++ (v ++ (joint ++ (w ++ rest))))).isSome =
      (firstMatch? read (front ++ (w ++ (joint ++ (v ++ rest))))).isSome := by
  have hlast : NotDigit (('0' :: joint).getLast?.or (some '-')) := by
    rw [List.getLast?_eq_some_getLast hne] at hend
    rwa [getLast?_cons_or, List.getLast?_eq_some_getLast hne]
  have hhead (r : List Char) : NotDigit (joint ++ r).head? := by
    obtain ⟨c, more, rfl⟩ := List.exists_cons_of_ne_nil hne
    exact hstart
  have hsplit {v w : List Char} (hv : DateShaped v) (hw : DateShaped w) :
      (firstMatch? read (front ++ (v ++ (joint ++ (w ++ rest))))).isSome =
        ((firstMatchFrom? read none (front ++ ['0', '-'])).isSome ||
          ((firstMatchFrom? read (some '-') (('0' :: joint) ++ ['0', '-'])).isSome ||
            (firstMatchFrom? read (some '-') ('0' :: rest)).isSome)) := by
    rw [firstMatch?, firstMatchFrom?_append_dateShaped hquiet hv (hhead _) front none
      (by rwa [Option.or_none]), ← firstMatchFrom?_append_dateShaped hquiet hw hrest _ _ hlast,
      List.cons_append]
  rw [hsplit hv hw, hsplit hw hv]

end Quiet

/-! ### The readers of the other phrases -/

theorem wordHere_append_digit {word : List Char} (hword : ∀ k ∈ word, isAsciiDigit k = false)
    {j : Char} (hj : isAsciiDigit j = true) (before : Option Char) (a r : List Char) :
    wordHere (fun a b => a == b) before word (a ++ j :: r) =
      wordHere (fun a b => a == b) before word (a ++ ['0']) := by
  induction word generalizing before a with
  | nil =>
    cases a with
    | nil =>
      have hword : isWordChar? (some j) = isWordChar? (some '0') :=
        (isWordChar_of_isAsciiDigit hj).trans (by decide)
      simp only [wordHere, List.nil_append, List.head?_cons, wordEdge, hword]
    | cons d a => rfl
  | cons k word ih =>
    obtain ⟨hk, hword⟩ := List.forall_mem_cons.mp hword
    have hne {c : Char} (hc : isAsciiDigit c = true) : (k == c) = false := by
      refine beq_false_of_ne ?_
      rintro rfl
      rw [hk] at hc
      cases hc
    cases a with
    | nil =>
      rw [List.nil_append, List.nil_append, wordHere, wordHere, hne hj,
        hne (by decide : isAsciiDigit '0' = true)]
      rfl
    | cons d a => rw [List.cons_append, List.cons_append, wordHere, wordHere, ih hword]

/-- A word of letters as a reader. -/
def readWord (word : List Char) (cs : List Char) : Option Unit :=
  if wordHere (fun a b => a == b) none word cs then some () else none

theorem wordHere_before {word : List Char} (hne : word ≠ []) (a b : Option Char) (cs : List Char) :
    wordHere (fun a b => a == b) a word cs = wordHere (fun a b => a == b) b word cs := by
  obtain ⟨k, word, rfl⟩ := List.exists_cons_of_ne_nil hne
  cases cs <;> rfl

theorem containsExactWord_eq {word : List Char} (hne : word ≠ []) (cs : List Char) :
    containsExactWord word cs = (firstMatch? (readWord word) cs).isSome := by
  have within (before : Option Char) : containsWordFrom (fun a b => a == b) word before cs =
      (firstMatchFrom? (readWord word) before cs).isSome := by
    induction cs generalizing before with
    | nil => exact not_containsWordFrom_nil hne before
    | cons c r ih =>
      have hplace : (readAt (readWord word) before [] (c :: r)).isSome =
          (wordEdge before (some c) && wordHere (fun a b => a == b) none word (c :: r)) := by
        rw [readAt, List.head?_cons, List.getLast?_nil, Option.none_or]
        cases wordEdge before (some c) with
        | false => rfl
        | true => cases h : wordHere (fun a b => a == b) none word (c :: r) <;> simp [readWord, h]
      rw [containsWordFrom, firstMatchFrom?_cons, Option.isSome_or, ih, hplace,
        wordHere_before hne before none]
  exact within none

/-- A reader that fails at every character of a date sees no date. -/
theorem quiet_of_not_dateChar {α : Type} {read : List Char → Option α}
    (hfront : ∀ {a r : List Char} {j : Char}, isAsciiDigit j = true →
      (read (a ++ j :: r)).isSome = (read (a ++ ['0'])).isSome)
    (hnone : ∀ {c : Char} (r : List Char), isDateChar c = true → read (c :: r) = none) :
    Quiet read where
  front _ _ hj := hfront hj
  inside {a r s} ha hs := by
    cases a with
    | nil => exact hnone r (isDateChar_of_isDateSeparator hs)
    | cons c a => exact hnone (a ++ s :: r) (ha c List.mem_cons_self)
  behind {g r} hg hdigits _ _ := by
    obtain ⟨k, more, rfl⟩ := List.exists_cons_of_ne_nil hg
    rw [List.cons_append, hnone _ (isDateChar_of_digit (hdigits k List.mem_cons_self)),
      hnone r (by decide : isDateChar '0' = true)]

theorem quiet_readWord {word : List Char} (hne : word ≠ [])
    (hword : ∀ k ∈ word, isDateChar k = false) : Quiet (readWord word) := by
  have hdigit : ∀ k ∈ word, isAsciiDigit k = false := fun k hk =>
    (Bool.or_eq_false_iff.mp (hword k hk)).1
  refine quiet_of_not_dateChar (fun hj => ?_) fun r hc => ?_
  · rw [readWord, readWord, wordHere_append_digit hdigit hj]
  · obtain ⟨k, word, rfl⟩ := List.exists_cons_of_ne_nil hne
    rename_i c
    have hk : (k == c) = false := by
      refine beq_false_of_ne ?_
      rintro rfl
      rw [hword k List.mem_cons_self] at hc
      cases hc
    rw [readWord, wordHere, hk]
    rfl

theorem not_mem_of_isDateChar {word : List Char} (hword : ∀ k ∈ word, isDateChar k = false)
    {c : Char} (hc : isDateChar c = true) : c ∉ word := by
  intro hmem
  rw [hword c hmem] at hc
  cases hc

theorem quiet_readLastWeek? : Quiet readLastWeek? := by
  have hlast : ∀ k ∈ "last".toList, isDateChar k = false := eq_false_of_all (by decide)
  have hweek : ∀ k ∈ "week".toList, isAsciiDigit k = false := eq_false_of_all (by decide)
  refine quiet_of_not_dateChar (fun {a r j} hj => ?_) fun {c} r hc => ?_
  · have hread {j : Char} (hj : isAsciiDigit j = true) (r : List Char) :
        (readLastWeek? (a ++ j :: r)).isSome = (afterWords? ["last"] a).any fun rest =>
          wordHere (fun a b => a == b) none "week".toList (rest ++ ['0']) := by
      have hdate := isDateChar_of_digit hj
      simp only [readLastWeek?, Option.bind_eq_bind, afterWord?_append_cons
        (not_isBlank_of_isDateChar hdate) (not_mem_of_isDateChar hlast hdate)]
      cases afterWords? ["last"] a with
      | none => rfl
      | some rest =>
        simp only [Option.map_some, Option.bind_some, Option.any_some,
          wordHere_append_digit hweek hj]
        split
        · rename_i h
          exact h.symm
        · rename_i h
          exact (Bool.eq_false_iff.mpr h).symm
    rw [hread hj, ← hread (by decide : isAsciiDigit '0' = true) []]
  · have hnone : afterWords? ["last"] ([] ++ c :: r) = none := by
      rw [afterWord?_append_cons (not_isBlank_of_isDateChar hc) (not_mem_of_isDateChar hlast hc)]
      rfl
    rw [List.nil_append] at hnone
    rw [readLastWeek?, hnone]
    rfl

theorem withoutPlural_append_digit {j : Char} (hj : isAsciiDigit j = true) (a r : List Char) :
    withoutPlural (a ++ j :: r) = withoutPlural a ++ j :: r := by
  have hne : j ≠ 's' := by
    rintro rfl
    revert hj
    decide
  cases a with
  | nil =>
    unfold withoutPlural
    split
    · rename_i h
      exact absurd (List.cons.inj h).1 hne
    · rfl
  | cons d a =>
    by_cases hd : d = 's'
    · rw [hd]
      rfl
    · unfold withoutPlural
      split
      · rename_i h
        exact absurd (List.cons.inj h).1 hd
      split
      · rename_i h
        exact absurd (List.cons.inj h).1 hd
      · rfl

theorem agoBehind_append_digit {unit : String} (hunit : ∀ k ∈ unit.toList, isDateChar k = false)
    {j : Char} (hj : isAsciiDigit j = true) (a r : List Char) :
    agoBehind unit (a ++ j :: r) = agoBehind unit (a ++ ['0']) := by
  have hago : ∀ k ∈ "ago".toList, isAsciiDigit k = false := eq_false_of_all (by decide)
  have hread {j : Char} (hj : isAsciiDigit j = true) (r : List Char) :
      agoBehind unit (a ++ j :: r) = (afterBlanks? a).any fun rest =>
        (afterChars? unit.toList rest).any fun rest =>
          (afterBlanks? (withoutPlural rest)).any fun rest =>
            wordHere (fun a b => a == b) none "ago".toList (rest ++ ['0']) := by
    have hdate := isDateChar_of_digit hj
    have hblank := not_isBlank_of_isDateChar hdate
    simp only [agoBehind, afterBlanks?_append_cons hblank, Option.any_map,
      afterChars?_append_cons (not_mem_of_isDateChar hunit hdate), withoutPlural_append_digit hj,
      wordHere_append_digit hago hj]
  rw [hread hj, ← hread (by decide : isAsciiDigit '0' = true) []]

theorem isSome_readAgo? (unit : String) (cs : List Char) :
    (readAgo? unit cs).isSome =
      (decide (cs.takeWhile isAsciiDigit ≠ [] ∧ (cs.takeWhile isAsciiDigit).length ≤ 9) &&
        agoBehind unit (cs.dropWhile isAsciiDigit)) := by
  rw [Bool.eq_iff_iff, Option.isSome_iff_exists, Bool.and_eq_true, decide_eq_true_eq]
  constructor
  · rintro ⟨n, h⟩
    obtain ⟨hlength, hbehind, _⟩ := readAgo?_eq_some_iff.mp h
    exact ⟨hlength, hbehind⟩
  · rintro ⟨hlength, hbehind⟩
    exact ⟨_, readAgo?_eq_some_iff.mpr ⟨hlength, hbehind, rfl⟩⟩

theorem agoBehind_of_not_startsBlank {unit : String} {cs : List Char}
    (h : startsBlank cs = false) : agoBehind unit cs = false := by
  have hnone : afterBlanks? cs = none := if_neg (by simp [h])
  rw [agoBehind, hnone]
  rfl

theorem quiet_readAgo? {unit : String} (hunit : ∀ k ∈ unit.toList, isDateChar k = false) :
    Quiet (readAgo? unit) where
  front {a r j} hne hlast hj := by
    -- The number of such a phrase ends in front of the last character, which is no digit.
    have hsplit := List.takeWhile_append_dropWhile (p := isAsciiDigit) (l := a)
    have hdrop : a.dropWhile isAsciiDigit ≠ [] := by
      intro hnil
      rw [hnil, List.append_nil] at hsplit
      have hall : ∀ c ∈ a, isAsciiDigit c = true := by
        rw [← hsplit]
        exact List.all_eq_true.mp List.all_takeWhile
      have hdigit := hlast _ (List.getLast?_eq_some_getLast hne)
      rw [hall _ (List.getLast_mem hne)] at hdigit
      cases hdigit
    have htake : (a.takeWhile isAsciiDigit).length ≠ a.length := by
      have hpos := List.length_pos_iff.mpr hdrop
      have hlength := congrArg List.length hsplit
      rw [List.length_append] at hlength
      omega
    have hdrop : (a.dropWhile isAsciiDigit).isEmpty = false := by simpa using hdrop
    simp only [isSome_readAgo?, List.takeWhile_append, List.dropWhile_append, if_neg htake, hdrop,
      Bool.false_eq_true, if_false, agoBehind_append_digit hunit hj]
  inside {a r s} ha hs := by
    rw [← Option.isNone_iff_eq_none, ← Option.not_isSome, isSome_readAgo?]
    have hstart : startsBlank ((a ++ s :: r).dropWhile isAsciiDigit) = false := by
      rw [dropWhile_append_cons (not_isAsciiDigit_of_isDateSeparator hs)]
      have hrest : ∀ c ∈ a.dropWhile isAsciiDigit, isDateChar c = true := fun c hc =>
        ha c ((List.dropWhile_suffix isAsciiDigit).subset hc)
      cases hdrop : a.dropWhile isAsciiDigit with
      | nil => exact not_isBlank_of_isDateChar (isDateChar_of_isDateSeparator hs)
      | cons c more => exact not_isBlank_of_isDateChar (hrest c (by simp [hdrop]))
    rw [agoBehind_of_not_startsBlank hstart, Bool.and_false]
    rfl
  behind {g r} hg hdigits hlength hr := by
    have hstop : r.takeWhile isAsciiDigit = [] ∧ r.dropWhile isAsciiDigit = r := by
      cases r with
      | nil => exact ⟨rfl, rfl⟩
      | cons c r =>
        have hc : isAsciiDigit c = false := hr c rfl
        simp [hc]
    have hzero : isAsciiDigit '0' = true := by decide
    rw [isSome_readAgo?, isSome_readAgo?, List.takeWhile_append_of_pos hdigits,
      List.dropWhile_append_of_pos hdigits, hstop.1, hstop.2, List.append_nil,
      List.takeWhile_cons_of_pos hzero, List.dropWhile_cons_of_pos hzero, hstop.1, hstop.2,
      decide_eq_true (show g ≠ [] ∧ g.length ≤ 9 from ⟨hg, hlength⟩)]
    rfl

/-! ### Both dates of a `between` -/

theorem DateShaped.isWordChar?_getLast? {w : List Char} (h : DateShaped w) :
    isWordChar? w.getLast? = true := by
  obtain ⟨front, k, rfl, hk⟩ := h.exists_concat
  rw [List.getLast?_concat]
  exact isWordChar_of_isAsciiDigit hk

/-- What stands behind a date at the edge of a word is no digit. -/
theorem DateShaped.notDigit_of_edge {w rest : List Char} (hw : DateShaped w)
    (h : wordEdge w.getLast? rest.head? = true) : NotDigit rest.head? := by
  intro c hc
  rw [wordEdge, hw.isWordChar?_getLast?, hc] at h
  rw [Bool.eq_false_iff]
  intro hdigit
  rw [isWordChar?, isWordChar_of_isAsciiDigit hdigit] at h
  cases h

theorem LongestRun.exchange {v w rest : List Char} (hv : DateShaped v) (hw : DateShaped w)
    (h : LongestRun w rest) : LongestRun v rest where
  ne_nil := hv.ne_nil
  dateChars := hv.dateChars
  edge := by
    rw [wordEdge, hv.isWordChar?_getLast?.trans hw.isWordChar?_getLast?.symm]
    exact h.edge
  longest := h.longest

/-- A run is as long whatever follows the character that it stops at. -/
theorem LongestRun.of_append_cons {w x r : List Char} {c : Char} (hc : isDateChar c = false)
    (h : LongestRun w (x ++ c :: r)) (s : List Char) : LongestRun w (x ++ c :: s) where
  ne_nil := h.ne_nil
  dateChars := h.dateChars
  edge := by
    have hedge := h.edge
    cases x <;> exact hedge
  longest i hi := by
    have hlongest := h.longest i
    rw [takeWhile_append_cons hc] at hi hlongest
    have hx := (List.takeWhile_prefix isDateChar (l := x)).length_le
    have hsame (k : Nat) (hk : k ≤ x.length) : (x ++ c :: s)[k]? = (x ++ c :: r)[k]? := by
      rcases Nat.lt_or_ge k x.length with hlt | hge
      · rw [List.getElem?_append_left hlt, List.getElem?_append_left hlt]
      · rw [List.getElem?_append_right hge, List.getElem?_append_right hge,
          show k - x.length = 0 by omega]
        rfl
    rw [hsame i (by omega), hsame (i + 1) (by omega)]
    exact hlongest hi

theorem not_mem_of_blanks {cs : List Char} (h : Blanks cs) {c : Char} (hc : isBlank c = false) :
    c ∉ cs := by
  intro hmem
  rw [h.isBlank c hmem] at hc
  cases hc

/-- A `between` that is read does not reach over the next one. -/
theorem readBetween?_of_append_cons {a r : List Char} {found : List Char × List Char} (hne : a ≠ [])
    (h : readBetween? (a ++ 'b' :: r) = some found) (s : List Char) :
    readBetween? (a ++ 'b' :: s) = some found := by
  obtain ⟨v, w⟩ := found
  -- The letter is none of those that are read behind the first one, so it stands in the rest.
  obtain ⟨gap, joint, rest, htext, hgap, hjoint, ⟨hvne, hv⟩, hw⟩ := readBetween?_eq_some_iff.mp h
  obtain ⟨c, a, rfl⟩ := List.exists_cons_of_ne_nil hne
  have hblank : isBlank 'b' = false := by decide
  have hdate {run : List Char} (hrun : ∀ c ∈ run, isDateChar c = true) : 'b' ∉ run := by
    intro hmem
    exact absurd (hrun _ hmem) (by decide)
  have hsmall : 'b' ∉ "etween".toList ++ (gap ++ (v ++ (joint ++ w))) := by
    obtain ⟨front, back, hfront, hback, rfl⟩ := hjoint
    simp only [List.mem_append, not_or]
    exact ⟨by decide, not_mem_of_blanks hgap hblank, hdate hv,
      ⟨not_mem_of_blanks hfront hblank, by decide, not_mem_of_blanks hback hblank⟩,
      hdate hw.dateChars⟩
  obtain ⟨rfl, htext⟩ : c = 'b' ∧ a ++ 'b' :: r =
      "etween".toList ++ (gap ++ (v ++ (joint ++ (w ++ rest)))) := List.cons.inj htext
  obtain ⟨more, rfl, rfl⟩ := append_eq_append_cons _ hsmall (by simpa using htext.symm)
  refine readBetween?_eq_some_iff.mpr ⟨gap, joint, more ++ 'b' :: s, ?_, hgap, hjoint, ⟨hvne, hv⟩,
    hw.of_append_cons (by decide) s⟩
  simp

theorem skips_readBetween? {before : Option Char} {front r : List Char}
    (h : Skips readBetween? before front ('b' :: r)) (s : List Char) :
    Skips readBetween? before front ('b' :: s) := by
  intro x y hy hfront
  have hnone := h x y hy hfront
  obtain ⟨c, y, rfl⟩ := List.exists_cons_of_ne_nil hy
  unfold readAt at hnone ⊢
  rw [List.cons_append, List.head?_cons] at hnone ⊢
  split at hnone
  · rename_i hedge
    rw [if_pos hedge, Option.eq_none_iff_forall_ne_some]
    intro found hfound
    have hread : readBetween? (c :: (y ++ 'b' :: r)) = some found :=
      readBetween?_of_append_cons hy hfound r
    rw [hread] at hnone
    cases hnone
  · rename_i hedge
    exact if_neg hedge

/-- Where the first `between` is read with two dates, their exchange is read at the same place. -/
theorem firstMatch?_between_exchange {q v w : List Char} (hv : DateShaped v) (hw : DateShaped w)
    (h : firstMatch? readBetween? q = some (v, w)) :
    ∃ front b joint rest, q = front ++ b :: (v ++ (joint ++ (w ++ rest))) ∧
      isBlank b = true ∧ Joint joint ∧ NotDigit rest.head? ∧
      firstMatch? readBetween? (front ++ b :: (w ++ (joint ++ (v ++ rest)))) = some (w, v) := by
  obtain ⟨before, back, hne, rfl, hskips, hread⟩ := exists_of_firstMatchFrom? h
  obtain ⟨hedge, hbetween⟩ := readAt_eq_some hread
  obtain ⟨gap, joint, rest, rfl, hgap, hjoint, ⟨hvne, hvdate⟩, hrun⟩ :=
    readBetween?_eq_some_iff.mp hbetween
  obtain ⟨blanks, b, hgapEq, hb⟩ := hgap.exists_concat
  have hother : readBetween? ("between".toList ++ (gap ++ (w ++ (joint ++ (v ++ rest))))) =
      some (w, v) :=
    readBetween?_eq_some_iff.mpr ⟨gap, joint, rest, rfl, hgap, hjoint,
      ⟨hrun.ne_nil, hrun.dateChars⟩, hrun.exchange hv hw⟩
  have hskips' : Skips readBetween? none before
      ("between".toList ++ (gap ++ (w ++ (joint ++ (v ++ rest))))) :=
    skips_readBetween? hskips _
  refine ⟨before ++ ("between".toList ++ blanks), b, joint, rest, ?_, hb, hjoint,
    hw.notDigit_of_edge hrun.edge, ?_⟩
  · simp [hgapEq]
  · have hfound : firstMatch? readBetween?
        (before ++ ("between".toList ++ (gap ++ (w ++ (joint ++ (v ++ rest)))))) = some (w, v) := by
      refine firstMatchFrom?_eq_some (by simp) hskips' ?_
      rw [readAt, if_pos (by exact hedge), hother]
    rw [← hfound, hgapEq]
    simp

end Question
end QueryGate
