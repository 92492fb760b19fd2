import QueryGate.Proofs.Question.Exchange
import QueryGate.Proofs.Question.Search

/-!
# What a question names

A question without a failing day names nothing or one period, and the period is the one that its
words say: a window around the day in universal time, or around the dates that stand in the question
itself.  Digits and separators have no case, so what is found in the lower-case text stands in the
question as well.
-/

namespace QueryGate
namespace Question

open Text Date

/-! ### Runs of the question -/

theorem caseless_of_isDateChar {c : Char} (h : isDateChar c = true) : Caseless c := by
  have hsmall : c.toNat < 128 := by
    rcases isDateChar_cases h with hdigit | hseparator
    · have := (isAsciiDigit_iff c).mp hdigit
      omega
    · rcases Bool.or_eq_true_iff.mp hseparator with hc | hc <;> rw [eq_of_beq hc] <;> decide
  have hascii : isDateChar c = true →
      0 < c.toNat ∧ c.isAlpha = false ∧ inSpans passedSpans c.toNat = false :=
    forall_ascii (p := fun c => isDateChar c = true →
      0 < c.toNat ∧ c.isAlpha = false ∧ inSpans passedSpans c.toNat = false) (by decide +kernel)
      hsmall
  obtain ⟨hpos, hletter, hpassed⟩ := hascii h
  exact caseless_of_ascii hpos hsmall hletter hpassed

/-- A run of a text with no digit next to it. -/
def StandsIn (text run : List Char) : Prop :=
  ∃ front back, text = front ++ (run ++ back) ∧ NotDigit front.getLast? ∧ NotDigit back.head?

theorem notDigit_getLast?_of_lower {cs : List Char} (h : NotDigit (lower cs).getLast?) :
    NotDigit cs.getLast? := by
  intro c hc
  rw [Bool.eq_false_iff]
  intro hdigit
  obtain ⟨front, rfl⟩ := List.getLast?_eq_some_iff.mp hc
  have hlower := (caseless_of_isDateChar (isDateChar_of_digit hdigit)).lower_append_cons front []
  rw [hlower] at h
  rw [h c (List.getLast?_eq_some_iff.mpr ⟨lower front, rfl⟩)] at hdigit
  cases hdigit

theorem notDigit_head?_of_lower {cs : List Char} (h : NotDigit (lower cs).head?) :
    NotDigit cs.head? := by
  intro c hc
  rw [Bool.eq_false_iff]
  intro hdigit
  cases cs with
  | nil => cases hc
  | cons d cs =>
    obtain rfl := Option.some.inj hc
    have hlower := (caseless_of_isDateChar (isDateChar_of_digit hdigit)).lower_append_cons [] cs
    rw [List.nil_append] at hlower
    rw [hlower] at h
    rw [h d rfl] at hdigit
    cases hdigit

theorem standsIn_of_lower {question run front back : List Char} (hne : run ≠ [])
    (hrun : ∀ c ∈ run, isDateChar c = true) (h : lower question = front ++ (run ++ back))
    (hfront : NotDigit front.getLast?) (hback : NotDigit back.head?) : StandsIn question run := by
  obtain ⟨x, y, rfl, rfl, rfl⟩ :=
    exists_run_of_lower (fun c hc => caseless_of_isDateChar (hrun c hc)) hne h
  exact ⟨x, y, rfl, notDigit_getLast?_of_lower hfront, notDigit_head?_of_lower hback⟩

/-! ### Numbers and dates -/

theorem notDigit_of_not_isWordChar? {c : Option Char} (h : isWordChar? c = false) : NotDigit c := by
  intro d hd
  rw [Bool.eq_false_iff]
  intro hdigit
  rw [hd, isWordChar?, isWordChar_of_isAsciiDigit hdigit] at h
  cases h

theorem notDigit_of_isBlank {c : Char} (h : isBlank c = true) : NotDigit (some c) := by
  rintro d hd
  obtain rfl := Option.some.inj hd
  exact not_isAsciiDigit_of_isBlank h

/-- A number in a question: a run of digits with no digit next to it. -/
structure HasNumber (question ds : List Char) : Prop where
  ne_nil : ds ≠ []
  digits : ∀ c ∈ ds, isAsciiDigit c = true
  stands : StandsIn question ds

/-- A date in a question: a form of it with no digit next to it. -/
structure HasDate (question : List Char) (d : Date) (w : List Char) : Prop where
  writes : Writes d w
  stands : StandsIn question w

theorem exists_hasNumber {question : List Char} {unit : String} {n : Nat}
    (h : firstMatch? (readAgo? unit) (lower question) = some n) :
    ∃ ds, HasNumber question ds ∧ digitsValue ds = n := by
  obtain ⟨front, back, _, htext, _, hread⟩ := exists_of_firstMatchFrom? h
  obtain ⟨hedge, hago⟩ := readAt_eq_some hread
  obtain ⟨ds, b, rest, rfl, hne, hdigits, hb, hn⟩ := exists_of_readAgo? hago
  obtain ⟨k, more, hcons⟩ := List.exists_cons_of_ne_nil hne
  have hfront : NotDigit front.getLast? := by
    refine notDigit_of_not_isWordChar? ?_
    have hword : isWordChar? (ds ++ b :: rest).head? = true := by
      rw [hcons]
      exact isWordChar_of_isAsciiDigit (hdigits k (by simp [hcons]))
    rw [Option.or_none, wordEdge, hword] at hedge
    simpa using hedge
  exact ⟨ds, ⟨hne, hdigits, standsIn_of_lower hne
    (fun c hc => isDateChar_of_digit (hdigits c hc)) htext hfront (notDigit_of_isBlank hb)⟩, hn⟩

theorem writes_of_date? {run : List Char} (hrun : ∀ c ∈ run, isDateChar c = true) {d : Date}
    (h : date? run = some d) : Writes d run := by
  rw [date?_eq_some_iff, withoutLineBreak_eq hrun] at h
  exact h

theorem exists_hasDate {question : List Char} {words : List String} (hwords : words ≠ [])
    {run : List Char} (h : firstMatch? (readOn? words) (lower question) = some run) {d : Date}
    (hd : date? run = some d) : HasDate question d run := by
  obtain ⟨before, back, _, htext, _, hread⟩ := exists_of_firstMatchFrom? h
  obtain ⟨front, b, rest, rfl, hb, hne, hrun, hedge⟩ :=
    readOn?_eq_some hwords (readAt_eq_some hread).2
  have hwrites := writes_of_date? hrun hd
  have hsplit : lower question = (before ++ (front ++ [b])) ++ (run ++ rest) := by
    rw [htext]
    simp
  have hlast : (before ++ (front ++ [b])).getLast? = some b :=
    List.getLast?_eq_some_iff.mpr ⟨before ++ front, by simp⟩
  exact ⟨hwrites, standsIn_of_lower hne hrun hsplit (hlast ▸ notDigit_of_isBlank hb)
    (hwrites.dateShaped.notDigit_of_edge hedge)⟩

/-! ### Two dates -/

/-- The kinds without dates. -/
def undated : List Kind := [.today, .yesterday, .lastWeek, .daysAgo, .weeksAgo]

theorem noPhrase_ofOption_iff {q : List Char} {kind : Kind} {found : Option Phrase}
    (h : kind.find q = .ofOption found) : NoPhrase q kind ↔ found.isSome = false := by
  unfold NoPhrase
  rw [h]
  cases found with
  | none => exact ⟨fun _ => rfl, fun _ _ => nofun⟩
  | some phrase => exact ⟨fun hnone => absurd rfl (hnone phrase), nofun⟩

/-- A phrase without dates stands in both of two texts or in none, where no reader that sees no dates
tells them apart. -/
theorem noPhrase_of_quiet {q r : List Char}
    (h : ∀ {α : Type} {read : List Char → Option α}, Quiet read →
      (firstMatch? read q).isSome = (firstMatch? read r).isSome) :
    ∀ kind ∈ undated, NoPhrase q kind → NoPhrase r kind := by
  have hword {word : List Char} (hne : word ≠ []) (hdate : ∀ k ∈ word, isDateChar k = false) :
      containsExactWord word q = containsExactWord word r := by
    rw [containsExactWord_eq hne, containsExactWord_eq hne, h (quiet_readWord hne hdate)]
  have hago (unit : String) (hunit : ∀ k ∈ unit.toList, isDateChar k = false)
      (phrase : Nat → Phrase) : ((firstMatch? (readAgo? unit) q).map phrase).isSome =
      ((firstMatch? (readAgo? unit) r).map phrase).isSome := by
    rw [Option.isSome_map, Option.isSome_map, h (quiet_readAgo? hunit)]
  intro kind hkind hnone
  simp only [undated, List.mem_cons, List.not_mem_nil, or_false] at hkind
  rcases hkind with rfl | rfl | rfl | rfl | rfl
  · rw [noPhrase_ofOption_iff (by rfl)] at hnone ⊢
    rwa [← hword (by decide) (eq_false_of_all (by decide))]
  · rw [noPhrase_ofOption_iff (by rfl)] at hnone ⊢
    rwa [← hword (by decide) (eq_false_of_all (by decide))]
  · rw [noPhrase_ofOption_iff (by rfl)] at hnone ⊢
    rwa [Option.isSome_map, ← h quiet_readLastWeek?, ← Option.isSome_map]
  · rw [noPhrase_ofOption_iff (by rfl)] at hnone ⊢
    rwa [← hago "day" (eq_false_of_all (by decide))]
  · rw [noPhrase_ofOption_iff (by rfl)] at hnone ⊢
    rwa [← hago "week" (eq_false_of_all (by decide))]

theorem search_between {q : List Char} {today : Date} {v w : List Char} {a b : Date}
    (hbefore : ∀ kind ∈ undated, NoPhrase q kind) (h : firstMatch? readBetween? q = some (v, w))
    (ha : date? v = some a) (hb : date? w = some b) :
    search q today Kind.order = ((Phrase.between a b).resolve today).map some := by
  have hfind : Kind.find q .between = .phrase (.between a b) := by
    simp [Kind.find, h, ha, hb, Found.ofDates]
  rw [show Kind.order = undated ++ [.between, .on_, .weekOf] from rfl, search_append hbefore,
    search_cons_of_phrase hfind]

/-- A phrase of two dates resolves to the same period whichever comes first. -/
theorem resolve_between_comm {today a b : Date} {p : Period}
    (h : (Phrase.between a b).resolve today = .ok p) :
    (Phrase.between b a).resolve today = .ok p := by
  rw [Phrase.resolve_between_eq_ok_iff] at h ⊢
  rwa [Nat.min_comm, Nat.max_comm]

/-- Two dates of a question, with no digits next to them, and what stands around them. -/
structure HasDates (question : List Char) (a b : Date) (front v joint w back : List Char) :
    Prop where
  eq : question = front ++ (v ++ (joint ++ (w ++ back)))
  first : Writes a v
  second : Writes b w
  front_notDigit : NotDigit front.getLast?
  joint_notDigit : NotDigit joint.head? ∧ NotDigit joint.getLast? ∧ joint ≠ []
  back_notDigit : NotDigit back.head?

theorem dateChars_of_between {q v w : List Char} (h : firstMatch? readBetween? q = some (v, w)) :
    (∀ c ∈ v, isDateChar c = true) ∧ ∀ c ∈ w, isDateChar c = true := by
  obtain ⟨_, _, _, _, _, hread⟩ := exists_of_firstMatchFrom? h
  obtain ⟨_, _, _, _, _, _, ⟨_, hv⟩, hw⟩ := readBetween?_eq_some_iff.mp (readAt_eq_some hread).2
  exact ⟨hv, hw.dateChars⟩

theorem Joint.notDigit {cs : List Char} (h : Joint cs) :
    NotDigit cs.head? ∧ NotDigit cs.getLast? ∧ cs ≠ [] := by
  obtain ⟨front, back, hfront, hback, rfl⟩ := h
  obtain ⟨b, more, rfl, hb⟩ := hfront.exists_cons
  obtain ⟨less, e, rfl, he⟩ := hback.exists_concat
  have hlast : (b :: more ++ ("and".toList ++ (less ++ [e]))).getLast? = some e :=
    List.getLast?_eq_some_iff.mpr ⟨b :: more ++ ("and".toList ++ less), by simp⟩
  exact ⟨notDigit_of_isBlank hb, hlast ▸ notDigit_of_isBlank he, by simp⟩

/-- The dates of a `between` stand in the question, and with the dates exchanged the question is
answered alike. -/
theorem exists_hasDates {question v w : List Char} {today a b : Date} {p : Period}
    (hbefore : ∀ kind ∈ undated, NoPhrase (lower question) kind)
    (h : firstMatch? readBetween? (lower question) = some (v, w)) (ha : date? v = some a)
    (hb : date? w = some b) (hresolve : (Phrase.between a b).resolve today = .ok p) :
    ∃ front joint back, HasDates question a b front v joint w back ∧
      search (lower (front ++ (w ++ (joint ++ (v ++ back))))) today Kind.order = .ok (some p) := by
  obtain ⟨hvDate, hwDate⟩ := dateChars_of_between h
  have hva := writes_of_date? hvDate ha
  have hwb := writes_of_date? hwDate hb
  have hvCase : ∀ c ∈ v, Caseless c := fun c hc => caseless_of_isDateChar (hvDate c hc)
  have hwCase : ∀ c ∈ w, Caseless c := fun c hc => caseless_of_isDateChar (hwDate c hc)
  have hvNe : v ≠ [] := hva.dateShaped.ne_nil
  have hwNe : w ≠ [] := hwb.dateShaped.ne_nil
  obtain ⟨before, blank, joint, rest, htext, hblank, hjoint, hrest, hswap⟩ :=
    firstMatch?_between_exchange hva.dateShaped hwb.dateShaped h
  rw [List.append_cons] at htext hswap
  -- The dates divide the question itself, and its parts are lowered each on its own.
  obtain ⟨front, y, rfl, hfront, hy⟩ := exists_run_of_lower hvCase hvNe htext
  obtain ⟨middle, back, rfl, hmiddle, hback⟩ := exists_run_of_lower hwCase hwNe hy
  obtain ⟨hhead, hlast, hne⟩ := hjoint.notDigit
  have hblankDigit : NotDigit (before ++ [blank]).getLast? := by
    rw [List.getLast?_concat]
    exact notDigit_of_isBlank hblank
  have hlower : lower (front ++ (w ++ (middle ++ (v ++ back)))) =
      (before ++ [blank]) ++ (w ++ (joint ++ (v ++ rest))) := by
    rw [lower_append_run hwCase hwNe, lower_append_run hvCase hvNe, hfront, hmiddle, hback]
  refine ⟨front, middle, back, ⟨rfl, hva, hwb, ?_, ⟨?_, ?_, ?_⟩, ?_⟩, ?_⟩
  · exact notDigit_getLast?_of_lower (hfront ▸ hblankDigit)
  · exact notDigit_head?_of_lower (hmiddle ▸ hhead)
  · exact notDigit_getLast?_of_lower (hmiddle ▸ hlast)
  · rintro rfl
    exact hne hmiddle.symm
  · exact notDigit_head?_of_lower (hback ▸ hrest)
  · rw [hlower]
    have hquiet : ∀ {α : Type} {read : List Char → Option α}, Quiet read →
        (firstMatch? read (lower (front ++ (v ++ (middle ++ (w ++ back)))))).isSome =
          (firstMatch? read ((before ++ [blank]) ++ (w ++ (joint ++ (v ++ rest))))).isSome := by
      intro α read hread
      rw [htext]
      exact firstMatch?_exchange hread hva.dateShaped hwb.dateShaped hblankDigit hhead hlast hne hrest
    rw [search_between (fun kind hkind => noPhrase_of_quiet hquiet kind hkind (hbefore kind hkind))
      hswap hb ha, resolve_between_comm hresolve]
    rfl

/-! ### The period that is named -/

/-- What a question says of a period on a given day: the label with the window that belongs to it. -/
inductive Names (question : List Char) (now : Moment) (today : Date) (p : Period) : Prop where
  | today (label : p.label = some "today")
      (window : Covers p today.ordinal (today.ordinal + 1))
  | yesterday (label : p.label = some "yesterday")
      (window : Covers p (today.ordinal - 1) today.ordinal)
  | lastWeek (label : p.label = some "last week")
      (window : Covers p (today.ordinal - 7) today.ordinal)
  | daysAgo {ds : List Char} (number : HasNumber question ds)
      (label : p.label = some (toString (digitsValue ds) ++ " days ago"))
      (window : Covers p (today.ordinal - digitsValue ds) (today.ordinal - digitsValue ds + 1))
  | weeksAgo {ds : List Char} (number : HasNumber question ds)
      (label : p.label = some (toString (digitsValue ds) ++ " weeks ago"))
      (window : Covers p (today.ordinal - 7 * digitsValue ds)
        (today.ordinal - 7 * digitsValue ds + 1))
  | between {a b : Date} {front v joint w back : List Char}
      (dates : HasDates question a b front v joint w back) (label : p.label = some "between")
      (window : Covers p (min a.ordinal b.ordinal : Nat) ((max a.ordinal b.ordinal : Nat) + 1))
      (exchange : resolve (.text (String.ofList (front ++ (w ++ (joint ++ (v ++ back)))))) now =
        .ok (some p))
  | on_ {d : Date} {w : List Char} (date : HasDate question d w) (label : p.label = some "on")
      (window : Covers p d.ordinal (d.ordinal + 1))
  | weekOf {d : Date} {w : List Char} (date : HasDate question d w)
      (label : p.label = some "week of") (window : Covers p d.ordinal (d.ordinal + 7))

theorem ofOption_eq_phrase_iff {found : Option Phrase} {phrase : Phrase} :
    Found.ofOption found = .phrase phrase ↔ found = some phrase := by
  cases found <;> simp [Found.ofOption]

theorem ofDates_eq_phrase_iff {found : Option Phrase} {phrase : Phrase} :
    Found.ofDates found = .phrase phrase ↔ found = some phrase := by
  cases found <;> simp [Found.ofDates]

theorem exists_of_find_between {q : List Char} {phrase : Phrase}
    (h : Kind.find q .between = .phrase phrase) :
    ∃ v w a b, firstMatch? readBetween? q = some (v, w) ∧ date? v = some a ∧ date? w = some b ∧
      .between a b = phrase := by
  rw [Kind.find] at h
  split at h
  · cases h
  · rename_i v w hruns
    have hdates := ofDates_eq_phrase_iff.mp h
    simp only [Option.bind_eq_bind, Option.bind_eq_some_iff, Option.some.injEq] at hdates
    obtain ⟨a, ha, b, hb, hphrase⟩ := hdates
    exact ⟨v, w, a, b, hruns, ha, hb, hphrase⟩

theorem exists_of_findDated {words : List String} {phraseOf : Date → Phrase} {q : List Char}
    {phrase : Phrase} (h : findDated words phraseOf q = .phrase phrase) :
    ∃ run d, firstMatch? (readOn? words) q = some run ∧ date? run = some d ∧
      phraseOf d = phrase := by
  rw [findDated] at h
  split at h
  · cases h
  · rename_i run hrun
    obtain ⟨d, hd, hphrase⟩ := Option.map_eq_some_iff.mp (ofDates_eq_phrase_iff.mp h)
    exact ⟨run, d, hrun, hd, hphrase⟩

theorem undated_of_order {front back : List Kind} (h : Kind.order = front ++ .between :: back) :
    front = undated := by
  obtain ⟨more, rfl, hrest⟩ := append_eq_append_cons undated (by decide) h
  cases more with
  | nil => rfl
  | cons kind more =>
    obtain ⟨_, hrest⟩ := List.cons.inj hrest
    have hmem : Kind.between ∈ [Kind.on_, .weekOf] := by
      rw [hrest]
      simp
    exact absurd hmem (by decide)

theorem names_of_search {question : List Char} {now : Moment} {today : Date} {p : Period}
    (hday : now.utcDate? = some today)
    (h : search (lower question) today Kind.order = .ok (some p)) :
    Names question now today p := by
  obtain ⟨front, kind, back, phrase, horder, hbefore, hfind, hresolve⟩ := exists_of_search h
  obtain ⟨hwindow, hlabel⟩ := Phrase.resolve_eq_ok_iff.mp hresolve
  cases kind with
  | today =>
    obtain ⟨_, rfl⟩ := Option.ite_some_none_eq_some.mp (ofOption_eq_phrase_iff.mp hfind)
    exact .today hlabel hwindow
  | yesterday =>
    obtain ⟨_, rfl⟩ := Option.ite_some_none_eq_some.mp (ofOption_eq_phrase_iff.mp hfind)
    exact .yesterday hlabel ⟨hwindow.start, hwindow.stop.trans (Int.sub_add_cancel _ 1)⟩
  | lastWeek =>
    obtain ⟨_, _, rfl⟩ := Option.map_eq_some_iff.mp (ofOption_eq_phrase_iff.mp hfind)
    exact .lastWeek hlabel ⟨hwindow.start, hwindow.stop.trans (Int.sub_add_cancel _ 7)⟩
  | daysAgo =>
    obtain ⟨n, hn, rfl⟩ := Option.map_eq_some_iff.mp (ofOption_eq_phrase_iff.mp hfind)
    obtain ⟨ds, hds, rfl⟩ := exists_hasNumber hn
    exact .daysAgo hds hlabel hwindow
  | weeksAgo =>
    obtain ⟨n, hn, rfl⟩ := Option.map_eq_some_iff.mp (ofOption_eq_phrase_iff.mp hfind)
    obtain ⟨ds, hds, rfl⟩ := exists_hasNumber hn
    exact .weeksAgo hds hlabel hwindow
  | between =>
    obtain ⟨v, w, a, b, hruns, ha, hb, rfl⟩ := exists_of_find_between hfind
    obtain rfl := undated_of_order horder
    obtain ⟨front, joint, rest, hdates, hswap⟩ := exists_hasDates hbefore hruns ha hb hresolve
    have hexchange : resolve (.text (String.ofList (front ++ (w ++ (joint ++ (v ++ rest)))))) now =
        .ok (some p) :=
      resolveBy_eq_some_iff.mpr ⟨today, hday, by rwa [String.toList_ofList]⟩
    exact .between hdates hlabel (Phrase.resolve_between_eq_ok_iff.mp hresolve).1 hexchange
  | on_ =>
    obtain ⟨run, d, hrun, hd, rfl⟩ := exists_of_findDated hfind
    exact .on_ (exists_hasDate (by decide) hrun hd) hlabel hwindow
  | weekOf =>
    obtain ⟨run, d, hrun, hd, rfl⟩ := exists_of_findDated hfind
    exact .weekOf (exists_hasDate (by decide) hrun hd) hlabel hwindow

/-- A question is answered without a fault, and of the moment only the day in universal time counts.
If it names a period, that period is not empty and is the window that its label says: of the day, of
so many days or weeks before it as a number of the question says, or of dates that stand in the
question. -/
theorem question_names_period (question : Value) (now : Moment) :
    ∃ r, resolve question now = .ok r ∧ (∀ s, question = .text s → r = period? s now) ∧
      (∀ other : Moment, other.utcDate? = now.utcDate? → resolve question other = .ok r) ∧
      ∀ p, r = some p → p.start < p.stop ∧
        ∃ s today, question = .text s ∧ now.utcDate? = some today ∧
          Names s.toList now today p := by
  obtain ⟨r, hr⟩ := exists_resolveBy Kind.order question now
  refine ⟨r, hr, ?_, fun other hother => ?_, ?_⟩
  · rintro s rfl
    exact Except.ok.inj (hr.symm.trans (resolve_text s now))
  · rw [resolve, resolveBy_congr hother, hr]
  · rintro p rfl
    refine ⟨p.start_lt_stop, ?_⟩
    cases question with
    | text s =>
      obtain ⟨today, hday, hsearch⟩ := resolveBy_eq_some_iff.mp hr
      exact ⟨s, today, rfl, hday, names_of_search hday hsearch⟩
    | _ => cases hr

/-- An afternoon two hours ahead of universal time. -/
def afternoon : Moment := ⟨⟨2025, 8, 20, by decide⟩, 63000000000, some ⟨7200000000⟩⟩

/-- The first two days of a month, as two dates name them. -/
def firstDays : Period :=
  ⟨⟨2025, 8, 1, by decide⟩, ⟨2025, 8, 3, by decide⟩, some "between", by decide⟩

theorem question_names_period_between :
    resolve (.text "Checks between 2/8/2025 and 2025-08-01?") afternoon = .ok (some firstDays) ∧
      Names "Checks between 2/8/2025 and 2025-08-01?".toList afternoon afternoon.date firstDays := by
  obtain ⟨r, hr, hperiod, -, hnames⟩ :=
    question_names_period (.text "Checks between 2/8/2025 and 2025-08-01?") afternoon
  have hfirst : r = some firstDays := (hperiod _ rfl).trans (by decide +kernel)
  obtain ⟨-, s, today, hs, htoday, hnamed⟩ := hnames firstDays hfirst
  obtain rfl := Value.text.inj hs
  have hday : afternoon.utcDate? = some afternoon.date := by decide +kernel
  obtain rfl := Option.some.inj (hday.symm.trans htoday)
  exact ⟨hfirst ▸ hr, hnamed⟩

end Question
end QueryGate
