import QueryGate.Proofs.Question.StatedTenant
import QueryGate.Proofs.Question.Wording

/-!
# Ids beside dates

The id of a question and the phrase that names its period are looked for independently.  No date of
a phrase lies behind the words that an id needs in front of it, so the two share no place of the
question, with one exception: the number of a phrase such as `7 days ago` is taken for an id if it
stands where an id would.
-/

namespace QueryGate
namespace Question

open Text

/-! ### Parts of a text -/

/-- Two parts of a text, each given with what is in front of it, share no place. -/
def Apart (front part front' part' : List Char) : Prop :=
  front.length + part.length ≤ front'.length ∨ front'.length + part'.length ≤ front.length

theorem exists_cons_of_length_lt {part back z rest : List Char} (h : part ++ back = z ++ rest)
    (hlt : z.length < part.length) :
    ∃ c more, part = z ++ c :: more ∧ rest = c :: (more ++ back) := by
  rcases List.append_eq_append_iff.mp h with ⟨w, rfl, _⟩ | ⟨w, rfl, rfl⟩
  · rw [List.length_append] at hlt
    omega
  · cases w with
    | nil => simp at hlt
    | cons c more => exact ⟨c, more, rfl, rfl⟩

/-- Of two parts that share a place, the one that starts later starts within the other. -/
theorem exists_of_not_apart {front part back front' part' back' : List Char}
    (h : front ++ (part ++ back) = front' ++ (part' ++ back'))
    (hshare : ¬Apart front part front' part') :
    (∃ z c more, front' = front ++ z ∧ part = z ++ c :: more ∧
        part' ++ back' = c :: (more ++ back)) ∨
      ∃ z c more, front = front' ++ z ∧ part' = z ++ c :: more ∧
        part ++ back = c :: (more ++ back') := by
  obtain ⟨hbefore, hbehind⟩ := not_or.mp hshare
  rcases List.append_eq_append_iff.mp h with ⟨z, rfl, hz⟩ | ⟨z, rfl, hz⟩
  · rw [List.length_append] at hbefore
    obtain ⟨c, more, hpart, hrest⟩ := exists_cons_of_length_lt hz (by omega)
    exact Or.inl ⟨z, c, more, rfl, hpart, hrest⟩
  · rw [List.length_append] at hbehind
    obtain ⟨c, more, hpart, hrest⟩ := exists_cons_of_length_lt hz (by omega)
    exact Or.inr ⟨z, c, more, rfl, hpart, hrest⟩

/-- Parts without a common character share no place. -/
theorem apart_of_disjoint {front part back front' part' back' : List Char}
    (h : front ++ (part ++ back) = front' ++ (part' ++ back')) (hne : part ≠ []) (hne' : part' ≠ [])
    (hdisjoint : ∀ c ∈ part, c ∉ part') : Apart front part front' part' := by
  by_contra hshare
  rcases exists_of_not_apart h hshare with ⟨z, c, more, _, rfl, hrest⟩ | ⟨z, c, more, _, rfl, hrest⟩
  · obtain ⟨d, rest, rfl⟩ := List.exists_cons_of_ne_nil hne'
    obtain ⟨rfl, _⟩ := List.cons.inj hrest
    exact hdisjoint d (by simp) (by simp)
  · obtain ⟨d, rest, rfl⟩ := List.exists_cons_of_ne_nil hne
    obtain ⟨rfl, _⟩ := List.cons.inj hrest
    exact hdisjoint d (by simp) (by simp)

theorem eq_nil_or_exists_getLast? (front z : List Char) :
    z = [] ∨ ∃ c ∈ z, (front ++ z).getLast? = some c := by
  cases hlast : z.getLast? with
  | none => exact Or.inl (List.getLast?_eq_none_iff.mp hlast)
  | some c =>
    refine Or.inr ⟨c, List.mem_of_getLast? hlast, ?_⟩
    rw [List.getLast?_append, hlast, Option.some_or]

theorem eq_of_digits {ds es y b : List Char} (h : ds ++ y = es ++ b)
    (hds : ∀ c ∈ ds, isAsciiDigit c = true) (hes : ∀ c ∈ es, isAsciiDigit c = true)
    (hy : NotDigit y.head?) (hb : NotDigit b.head?) : ds = es := by
  rw [← takeWhile_run hds hy, h, takeWhile_run hes hb]

/-! ### An id and a number or a date -/

section Taken

variable {q x ds y : List Char} (h : TakenId q x ds y)
include h

theorem TakenId.apart_of_not_digits {front part back : List Char}
    (hq : q = front ++ (part ++ back)) (hne : part ≠ [])
    (hpart : ∀ c ∈ part, isAsciiDigit c = false) : Apart x ds front part := by
  refine apart_of_disjoint (h.split.symm.trans hq) h.isId.ne_nil hne fun c hc hmem => ?_
  have hdigit := h.isId.digits c hc
  rw [hpart c hmem] at hdigit
  cases hdigit

/-- A number is either the id itself or has no place in common with it. -/
theorem TakenId.apart_or_eq {front es back : List Char} (hq : q = front ++ (es ++ back))
    (hes : ∀ c ∈ es, isAsciiDigit c = true) (hfront : NotDigit front.getLast?)
    (hback : NotDigit back.head?) : Apart x ds front es ∨ front = x ∧ es = ds := by
  rw [or_iff_not_imp_left]
  intro hshare
  have hend := notDigit_of_not_isWordChar? h.isId.ends
  have hsame : x ++ (ds ++ y) = front ++ (es ++ back) := h.split.symm.trans hq
  -- The one that starts later would start behind a digit, unless both start at one place.
  have hstart : front = x := by
    rcases exists_of_not_apart hsame hshare with ⟨z, c, more, rfl, hz, _⟩ | ⟨z, c, more, rfl, hz, _⟩
    · rcases eq_nil_or_exists_getLast? x z with rfl | ⟨d, hd, hlast⟩
      · exact List.append_nil x
      · have hdigit := h.isId.digits d (by simp [hz, hd])
        rw [hfront d hlast] at hdigit
        cases hdigit
    · rcases eq_nil_or_exists_getLast? front z with rfl | ⟨d, hd, hlast⟩
      · exact (List.append_nil front).symm
      · have hdate := isDateChar_of_digit (hes d (by simp [hz, hd]))
        rw [h.not_isDateChar d hlast] at hdate
        cases hdate
  subst hstart
  exact ⟨rfl, (eq_of_digits (List.append_cancel_left hsame) h.isId.digits hes hend hback).symm⟩

/-- A run of date characters has no place in common with an id, if it is not behind the words that
an id needs in front of it. -/
theorem TakenId.apart_of_dateChars {front run back : List Char} (hq : q = front ++ (run ++ back))
    (hrun : ∀ c ∈ run, isDateChar c = true) (hblank : ∃ b ∈ front.getLast?, isBlank b = true)
    (hwords : ¬EndsLead (lastTwo (spelled front))) : Apart x ds front run := by
  by_contra hshare
  have hsame : x ++ (ds ++ y) = front ++ (run ++ back) := h.split.symm.trans hq
  have hstart : front ≠ x := by
    rintro rfl
    exact hwords h.endsLead
  rcases exists_of_not_apart hsame hshare with
    ⟨z, c, more, hz, hpart, _⟩ | ⟨z, c, more, hz, hpart, _⟩
  · rcases eq_nil_or_exists_getLast? x z with rfl | ⟨d, hd, hlast⟩
    · exact absurd (hz.trans (List.append_nil x)) hstart
    · obtain ⟨b, hb, hblank⟩ := hblank
      rw [hz, hlast] at hb
      obtain rfl := Option.some.inj hb
      have hdigit := h.isId.digits d (by simp [hpart, hd])
      rw [not_isAsciiDigit_of_isBlank hblank] at hdigit
      cases hdigit
  · rcases eq_nil_or_exists_getLast? front z with rfl | ⟨d, hd, hlast⟩
    · exact absurd (hz.trans (List.append_nil front)).symm hstart
    · have hdate := hrun d (by simp [hpart, hd])
      rw [h.not_isDateChar d (hz ▸ hlast)] at hdate
      cases hdate

end Taken

/-! ### The words in front of a date -/

/-- A word that no spelling reaches into and that does not end like the words in front of an id. -/
structure BeforeDate (word : List Char) : Prop where
  starts : ∃ k rest, word = k :: rest ∧ k ∉ spellingLetters ∧ 'r' ∉ rest
  ends : ∃ more d c, word = more ++ [d, c] ∧ isBlank c = false ∧ ¬EndsLead [c, d]

theorem beforeDate_on : BeforeDate "on".toList :=
  ⟨⟨'o', ['n'], rfl, by decide, by decide⟩, ⟨[], 'o', 'n', rfl, by decide, by decide⟩⟩

theorem beforeDate_of : BeforeDate "of".toList :=
  ⟨⟨'o', ['f'], rfl, by decide, by decide⟩, ⟨[], 'o', 'f', rfl, by decide, by decide⟩⟩

theorem beforeDate_between : BeforeDate "between".toList :=
  ⟨⟨'b', "etween".toList, rfl, by decide, by decide⟩,
    ⟨"betwe".toList, 'e', 'n', rfl, by decide, by decide⟩⟩

theorem not_mem_blanks {c : Char} {blanks : List Char} (hc : isBlank c = false)
    (hblanks : ∀ b ∈ blanks, isBlank b = true) : c ∉ blanks := by
  intro hmem
  rw [hblanks c hmem] at hc
  cases hc

/-- The blank tells the word from the end of a longer one. -/
theorem beforeDate_and {b : Char} (hb : isBlank b = true) : BeforeDate (b :: "and".toList) := by
  have hletters : ∀ k ∈ spellingLetters, isBlank k = false := eq_false_of_all (by decide)
  refine ⟨⟨b, "and".toList, rfl, fun hmem => ?_, by decide⟩,
    ⟨[b, 'a'], 'n', 'd', rfl, by decide, by decide⟩⟩
  rw [hletters b hmem] at hb
  cases hb

theorem BeforeDate.not_endsLead {word blanks : List Char} (h : BeforeDate word)
    (hblanks : ∀ b ∈ blanks, isBlank b = true) (front : List Char) :
    ¬EndsLead (lastTwo (spelled (front ++ (word ++ blanks)))) := by
  obtain ⟨k, rest, hstarts, hk, hrest⟩ := h.starts
  obtain ⟨more, d, c, hends, hc, hlead⟩ := h.ends
  have hspelled :
      spelled (front ++ (word ++ blanks)) = (spelled front ++ more) ++ d :: c :: blanks := by
    have hclear : 'r' ∉ rest ++ blanks := by
      rw [List.mem_append, not_or]
      exact ⟨hrest, not_mem_blanks (by decide) hblanks⟩
    rw [hstarts, List.cons_append, spelled_append_cons hk front hclear, ← List.cons_append,
      ← hstarts, hends]
    simp
  rw [hspelled, lastTwo_append hc hblanks]
  exact hlead

/-! ### An id and a phrase -/

theorem Apart.append {x ds front a b : List Char} (hne : ds ≠ []) (ha : Apart x ds front a)
    (hb : Apart x ds (front ++ a) b) : Apart x ds front (a ++ b) := by
  have hpos := List.length_pos_iff.mpr hne
  simp only [Apart, List.length_append] at ha hb ⊢
  omega

theorem not_isAsciiDigit_of_blanks {word blanks : List Char}
    (hword : ∀ c ∈ word, isAsciiDigit c = false) (hblanks : ∀ b ∈ blanks, isBlank b = true) :
    ∀ c ∈ word ++ blanks, isAsciiDigit c = false := by
  intro c hc
  rcases List.mem_append.mp hc with hc | hc
  · exact hword c hc
  · exact not_isAsciiDigit_of_isBlank (hblanks c hc)

section Phrase

variable {q x ds y : List Char} (h : TakenId q x ds y)
include h

/-- A date behind a word and blanks. -/
theorem TakenId.apart_of_date {front word blanks run back : List Char}
    (hq : q = front ++ ((word ++ blanks) ++ (run ++ back))) (hword : BeforeDate word)
    (hblanks : Blanks blanks) (hrun : ∀ c ∈ run, isDateChar c = true) :
    Apart x ds (front ++ (word ++ blanks)) run := by
  have hsplit : q = (front ++ (word ++ blanks)) ++ (run ++ back) := by
    rw [hq]
    simp only [List.append_assoc]
  refine h.apart_of_dateChars hsplit hrun ?_ (hword.not_endsLead hblanks.isBlank front)
  obtain ⟨more, b, rfl, hb⟩ := hblanks.exists_concat
  exact ⟨b, List.getLast?_eq_some_iff.mpr ⟨front ++ (word ++ more), by simp⟩, hb⟩

/-- A date with the word and the blanks in front of it. -/
theorem TakenId.apart_of_word_date {front word blanks run back : List Char}
    (hq : q = front ++ ((word ++ blanks) ++ (run ++ back))) (hword : BeforeDate word)
    (hdigits : ∀ c ∈ word, isAsciiDigit c = false) (hblanks : Blanks blanks)
    (hrun : ∀ c ∈ run, isDateChar c = true) : Apart x ds front ((word ++ blanks) ++ run) :=
  .append h.isId.ne_nil
    (h.apart_of_not_digits hq (List.append_ne_nil_of_right_ne_nil _ hblanks.ne_nil)
      (not_isAsciiDigit_of_blanks hdigits hblanks.isBlank))
    (h.apart_of_date hq hword hblanks hrun)

theorem TakenId.apart_of_between {front gap v joint w back : List Char}
    (hq : q = front ++ (("between".toList ++ (gap ++ (v ++ (joint ++ w)))) ++ back))
    (hgap : Blanks gap) (hv : ∀ c ∈ v, isDateChar c = true) (hjoint : Joint joint)
    (hw : ∀ c ∈ w, isDateChar c = true) :
    Apart x ds front ("between".toList ++ (gap ++ (v ++ (joint ++ w)))) := by
  have hfirst : Apart x ds front (("between".toList ++ gap) ++ v) := by
    have hsplit : q = front ++ (("between".toList ++ gap) ++ (v ++ (joint ++ (w ++ back)))) := by
      rw [hq]
      simp only [List.append_assoc]
    exact h.apart_of_word_date hsplit beforeDate_between (eq_false_of_all (by decide)) hgap hv
  obtain ⟨before, behind, hbefore, hbehind, rfl⟩ := hjoint
  have hjoint : Apart x ds (front ++ (("between".toList ++ gap) ++ v))
      (before ++ ("and".toList ++ behind)) := by
    have hsplit : q = (front ++ (("between".toList ++ gap) ++ v)) ++
        ((before ++ ("and".toList ++ behind)) ++ (w ++ back)) := by
      rw [hq]
      simp only [List.append_assoc]
    refine h.apart_of_not_digits hsplit (List.append_ne_nil_of_left_ne_nil hbefore.ne_nil _) ?_
    intro c hc
    rcases List.mem_append.mp hc with hc | hc
    · exact not_isAsciiDigit_of_isBlank (hbefore.isBlank c hc)
    · exact not_isAsciiDigit_of_blanks (eq_false_of_all (by decide)) hbehind.isBlank c hc
  have hsecond : Apart x ds
      (front ++ ((("between".toList ++ gap) ++ v) ++ (before ++ ("and".toList ++ behind)))) w := by
    obtain ⟨more, b, rfl, hb⟩ := hbefore.exists_concat
    have hsplit : q = (front ++ (("between".toList ++ gap) ++ v) ++ more) ++
        (((b :: "and".toList) ++ behind) ++ (w ++ back)) := by
      rw [hq]
      simp
    have hdate := h.apart_of_date hsplit (beforeDate_and hb) hbehind hw
    simpa [Apart] using hdate
  have hall := (hfirst.append h.isId.ne_nil hjoint).append h.isId.ne_nil hsecond
  simpa only [List.append_assoc] using hall

/-- A number of units ago either has no place in common with an id or begins with it. -/
theorem TakenId.apart_or_of_ago {unit : String} (hunit : ∀ c ∈ unit.toList, isAsciiDigit c = false)
    {front words back : List Char} (hq : q = front ++ (words ++ back)) (hago : Ago unit words)
    (hstarts : wordEdge front.getLast? words.head? = true) :
    Apart x ds front words ∨ front = x ∧ ds <+: words := by
  obtain @⟨ds', tail, hne, hds, htail⟩ := hago
  obtain ⟨k, rest, hcons⟩ := List.exists_cons_of_ne_nil hne
  have hfront : NotDigit front.getLast? := by
    refine notDigit_of_not_isWordChar? ?_
    have hword : isWordChar? (ds' ++ tail).head? = true := by
      rw [hcons]
      exact isWordChar_of_isAsciiDigit (hds k (by simp [hcons]))
    rw [wordEdge, hword] at hstarts
    simpa using hstarts
  obtain @⟨before, plural, behind, hbefore, hplural, hbehind⟩ := htail
  obtain ⟨b, more, hblank, hb⟩ := hbefore.exists_cons
  have hsplit : q = front ++ (ds' ++ ((before ++ (unit.toList ++ (plural ++ (behind ++
      "ago".toList)))) ++ back)) := by rw [hq, List.append_assoc]
  have hback : NotDigit ((before ++ (unit.toList ++ (plural ++ (behind ++
      "ago".toList)))) ++ back).head? := by
    rw [hblank]
    exact notDigit_of_isBlank hb
  rcases h.apart_or_eq hsplit hds hfront hback with hnumber | ⟨rfl, rfl⟩
  · left
    refine hnumber.append h.isId.ne_nil ?_
    rw [← List.append_assoc] at hsplit
    refine h.apart_of_not_digits hsplit (by simp [hblank]) ?_
    intro c hc
    simp only [List.mem_append] at hc
    rcases hc with hc | hc | hc | hc | hc
    · exact not_isAsciiDigit_of_isBlank (hbefore.isBlank c hc)
    · exact hunit c hc
    · rcases hplural with rfl | rfl
      · cases hc
      · exact eq_false_of_all (by decide) c hc
    · exact not_isAsciiDigit_of_isBlank (hbehind.isBlank c hc)
    · exact eq_false_of_all (by decide) c hc
  · exact Or.inr ⟨rfl, List.prefix_append _ _⟩

/-- An id has no place in common with a phrase, unless it is the number that the phrase counts. -/
theorem TakenId.apart_iff {kind : Kind} {front words back : List Char}
    (hat : PhraseAt q kind front words back) :
    Apart x ds front words ↔
      ¬(kind ∈ [Kind.daysAgo, .weeksAgo] ∧ front = x ∧ ds <+: words) := by
  have hid := List.length_pos_iff.mpr h.isId.ne_nil
  have hwords := List.length_pos_iff.mpr hat.wording.ne_nil
  have hsame : front = x → ¬Apart x ds front words := by
    rintro rfl
    simp only [Apart]
    omega
  constructor
  · rintro hapart ⟨_, hfront, _⟩
    exact hsame hfront hapart
  · intro hnumber
    have hq := hat.split
    cases hat.wording with
    | daysAgo hago =>
      exact (h.apart_or_of_ago (eq_false_of_all (by decide)) hq hago hat.starts).resolve_right
        fun hstart => hnumber ⟨by decide, hstart⟩
    | weeksAgo hago =>
      exact (h.apart_or_of_ago (eq_false_of_all (by decide)) hq hago hat.starts).resolve_right
        fun hstart => hnumber ⟨by decide, hstart⟩
    | between hgap hv hjoint hw => exact h.apart_of_between hq hgap hv.2 hjoint hw.2
    | @on_ _ run hspoken hrun =>
      obtain ⟨blanks, _, rfl, hblanks, hnil⟩ := hspoken.exists_blanks
      obtain rfl := hnil.eq_nil
      rw [List.append_nil, List.append_assoc] at hq
      rw [List.append_nil]
      exact h.apart_of_word_date hq beforeDate_on (eq_false_of_all (by decide)) hblanks hrun.2
    | @weekOf _ run hspoken hrun =>
      obtain ⟨gap, _, rfl, hgap, hof⟩ := hspoken.exists_blanks
      obtain ⟨blanks, _, rfl, hblanks, hnil⟩ := hof.exists_blanks
      obtain rfl := hnil.eq_nil
      have hweek : Apart x ds front ("week".toList ++ gap) := by
        have hsplit : q = front ++ (("week".toList ++ gap) ++
            (("of".toList ++ blanks) ++ (run ++ back))) := by
          rw [hq]
          simp only [List.append_nil, List.append_assoc]
        exact h.apart_of_not_digits hsplit (List.append_ne_nil_of_left_ne_nil (by decide) _)
          (not_isAsciiDigit_of_blanks (eq_false_of_all (by decide)) hgap.isBlank)
      have hdate :
          Apart x ds (front ++ ("week".toList ++ gap)) (("of".toList ++ blanks) ++ run) := by
        have hsplit : q = (front ++ ("week".toList ++ gap)) ++
            (("of".toList ++ blanks) ++ (run ++ back)) := by
          rw [hq]
          simp only [List.append_nil, List.append_assoc]
        exact h.apart_of_word_date hsplit beforeDate_of (eq_false_of_all (by decide)) hblanks hrun.2
      have hall := hweek.append h.isId.ne_nil hdate
      simpa only [List.append_nil, List.append_assoc] using hall

end Phrase

/-! ### Ids and periods -/

/-- The kind of phrase that the period of a question comes from. -/
structure Decides (question : String) (now : Moment) (kind : Kind) (p : Period) : Prop where
  first : ∃ before after, Kind.order = before ++ kind :: after ∧
    ∀ other ∈ before, NoPhrase (lower question.toList) other
  names : ∃ phrase today, kind.find (lower question.toList) = .phrase phrase ∧
    now.utcDate? = some today ∧ phrase.resolve today = .ok p

theorem exists_decides {question : String} {now : Moment} {p : Period}
    (h : resolve (.text question) now = .ok (some p)) : ∃ kind, Decides question now kind p := by
  obtain ⟨today, hday, hsearch⟩ := resolveBy_eq_some_iff.mp h
  obtain ⟨before, kind, after, phrase, horder, hbefore, hfind, hresolve⟩ := exists_of_search hsearch
  exact ⟨kind, ⟨before, after, horder, hbefore⟩, phrase, today, hfind, hday, hresolve⟩

/-- The id of a question has no place in common with the phrase that its period comes from, nor with
any other text of the form of a phrase, with one exception: it may be the number that such a text
counts back by.  The phrase is a text that by itself names what the question names. -/
theorem id_apart_from_phrase {question : String} {now : Moment} {n : Nat} {p : Period}
    (hid : tenant? question.toList = some n)
    (hperiod : resolve (.text question) now = .ok (some p)) :
    ∃ x ds y kind, TakenId (lower question.toList) x ds y ∧ digitsValue ds = n ∧
      Decides question now kind p ∧
      (kind ∈ numbered →
        ∃ front words back, PhraseAt (lower question.toList) kind front words back ∧
          kind.find words = kind.find (lower question.toList)) ∧
      ∀ other front words back, PhraseAt (lower question.toList) other front words back →
        (Apart x ds front words ↔
          ¬(other ∈ [Kind.daysAgo, .weeksAgo] ∧ front = x ∧ ds <+: words)) := by
  obtain ⟨x, ds, y, htaken, hn⟩ := exists_takenId hid
  obtain ⟨kind, hdecides⟩ := exists_decides hperiod
  obtain ⟨phrase, _, hfind, _⟩ := hdecides.names
  refine ⟨x, ds, y, kind, htaken, hn, hdecides, fun hkind => ?_,
    fun other front words back hat => htaken.apart_iff hat⟩
  rw [hfind]
  exact exists_phraseAt hkind hfind

/-- Two dates behind an id. -/
def idAndDates : String := "Checks of Resturant_ID 74 between 2/8/2025 and 2025-08-01?"

theorem id_apart_from_dates :
    tenant? idAndDates.toList = some 74 ∧
    resolve (.text idAndDates) afternoon = .ok (some firstDays) ∧
    ∃ x ds y front words back, TakenId (lower idAndDates.toList) x ds y ∧ digitsValue ds = 74 ∧
      PhraseAt (lower idAndDates.toList) .between front words back ∧ Apart x ds front words := by
  have hid : tenant? idAndDates.toList = some 74 := by decide +kernel
  have hperiod : resolve (.text idAndDates) afternoon = .ok (some firstDays) := by
    rw [resolve_text]
    exact congrArg Except.ok (by decide +kernel)
  obtain ⟨x, ds, y, kind, htaken, hn, hdecides, _, hapart⟩ := id_apart_from_phrase hid hperiod
  have hbetween : ∃ a b, Kind.find (lower idAndDates.toList) .between = .phrase (.between a b) :=
    ⟨⟨2025, 8, 2, by decide⟩, ⟨2025, 8, 1, by decide⟩, by decide +kernel⟩
  obtain ⟨a, b, hfind⟩ := hbetween
  obtain ⟨front, words, back, hat, _⟩ := exists_phraseAt (by decide) hfind
  exact ⟨hid, hperiod, x, ds, y, front, words, back, htaken, hn, hat,
    (hapart _ front words back hat).mpr fun hcount => absurd hcount.1 (by decide)⟩

/-- A question that states no id, with a number of days where an id would stand. -/
def countedBack : String := "completed checks at my restaurant 7 days ago"

/-- What stands in front of the number. -/
def aheadOfCount : List Char := "completed checks at my restaurant ".toList

/-- The seventh day before the afternoon. -/
def seventhDayBack : Period :=
  ⟨⟨2025, 8, 13, by decide⟩, ⟨2025, 8, 14, by decide⟩, some "7 days ago", by decide⟩

/-- The number of days is taken for the id of a restaurant. -/
theorem count_taken_for_id :
    tenant? countedBack.toList = some 7 ∧
    resolve (.text countedBack) afternoon = .ok (some seventhDayBack) ∧
    TakenId (lower countedBack.toList) aheadOfCount ['7'] " days ago".toList ∧
    PhraseAt (lower countedBack.toList) .daysAgo aheadOfCount "7 days ago".toList [] ∧
    ¬Apart aheadOfCount ['7'] aheadOfCount "7 days ago".toList := by
  have hperiod : resolve (.text countedBack) afternoon = .ok (some seventhDayBack) := by
    rw [resolve_text]
    exact congrArg Except.ok (by decide +kernel)
  have hblanks : Blanks [' '] := ⟨by decide, List.all_eq_true.mp (by decide)⟩
  have hdigits : ∀ c ∈ ['7'], isAsciiDigit c = true := List.all_eq_true.mp (by decide)
  have hlead : Lead ("restaurant".toList ++ [' ']) := .restaurant (.blank hblanks.isBlank)
  have htail : AgoTail "day" ([' '] ++ ("day".toList ++ (['s'] ++ ([' '] ++ "ago".toList)))) :=
    .ago hblanks (Or.inr rfl) hblanks
  have hago : Ago "day" (['7'] ++ _) := .count (by decide) hdigits htail
  have hid : TakenId (lower countedBack.toList) aheadOfCount ['7'] " days ago".toList :=
    ⟨by decide +kernel, ⟨by decide, hdigits, by decide, by decide⟩,
      "completed checks at my ".toList, _, " days ago".toList, by decide +kernel, by decide +kernel,
      hlead, by decide +kernel, by decide +kernel⟩
  have hphrase : PhraseAt (lower countedBack.toList) .daysAgo aheadOfCount "7 days ago".toList [] :=
    ⟨by decide +kernel, .daysAgo hago, by decide +kernel⟩
  exact ⟨by decide +kernel, hperiod, hid, hphrase, by simp [Apart]⟩

end Question
end QueryGate
