import QueryGate.Proofs.Question.Window

/-!
# The search for a phrase

The kinds are tried in their order, so the phrase that decides is that of the first kind that has
one.  The search by steps finds the phrase and the period that a question is answered with, and it
leaves nothing to raise: what fails while days are counted becomes a question without a period.
-/

namespace QueryGate
namespace Question

open Text Date

variable {q : List Char} {today : Date} {kinds : List Kind}

/-! ### The kind that decides -/

/-- A text has no phrase of a kind: the words do not occur, or no date stands behind them. -/
def NoPhrase (q : List Char) (kind : Kind) : Prop := ∀ phrase, kind.find q ≠ .phrase phrase

theorem search_cons_of_noPhrase {kind : Kind} (h : NoPhrase q kind) (more : List Kind) :
    search q today (kind :: more) = search q today more := by
  rw [search]
  cases hfind : kind.find q with
  | absent => rfl
  | unreal => rfl
  | phrase phrase => exact absurd hfind (h phrase)

theorem search_cons_of_phrase {kind : Kind} {phrase : Phrase} (h : kind.find q = .phrase phrase)
    (more : List Kind) : search q today (kind :: more) = (phrase.resolve today).map some := by
  rw [search, h]

theorem noPhrase_or (q : List Char) (kind : Kind) :
    NoPhrase q kind ∨ ∃ phrase, kind.find q = .phrase phrase := by
  cases h : kind.find q with
  | absent => exact Or.inl fun phrase hphrase => by rw [h] at hphrase; cases hphrase
  | unreal => exact Or.inl fun phrase hphrase => by rw [h] at hphrase; cases hphrase
  | phrase phrase => exact Or.inr ⟨phrase, rfl⟩

/-- The kinds in front of those that decide do not matter. -/
theorem search_append {front : List Kind} (h : ∀ kind ∈ front, NoPhrase q kind)
    (back : List Kind) : search q today (front ++ back) = search q today back := by
  induction front with
  | nil => rfl
  | cons kind front ih =>
    obtain ⟨hkind, hfront⟩ := List.forall_mem_cons.mp h
    rw [List.cons_append, search_cons_of_noPhrase hkind, ih hfront]

/-- A period that is found is that of the first kind that has a phrase. -/
theorem exists_of_search {p : Period} (h : search q today kinds = .ok (some p)) :
    ∃ front kind back phrase, kinds = front ++ kind :: back ∧
      (∀ other ∈ front, NoPhrase q other) ∧ kind.find q = .phrase phrase ∧
      phrase.resolve today = .ok p := by
  induction kinds with
  | nil => cases h
  | cons kind more ih =>
    rcases noPhrase_or q kind with hnone | ⟨phrase, hphrase⟩
    · rw [search_cons_of_noPhrase hnone] at h
      obtain ⟨front, decides, back, phrase, rfl, hfront, hfind, hresolve⟩ := ih h
      exact ⟨kind :: front, decides, back, phrase, rfl, List.forall_mem_cons.mpr ⟨hnone, hfront⟩,
        hfind, hresolve⟩
    · rw [search_cons_of_phrase hphrase] at h
      cases hresolve : phrase.resolve today with
      | error fault =>
        rw [hresolve] at h
        cases h
      | ok w =>
        rw [hresolve] at h
        obtain rfl := Option.some.inj (Except.ok.inj h)
        exact ⟨[], kind, more, phrase, rfl, nofun, hphrase, hresolve⟩

/-! ### What is answered -/

theorem resolveBy_text (kinds : List Kind) (s : String) (now : Moment) :
    resolveBy kinds (.text s) now =
      .ok (if s.isEmpty then none else (searchAt kinds s now).toOption.join) := by
  rw [resolveBy]
  split
  · rfl
  · cases searchAt kinds s now with
    | ok found => rfl
    | error fault => cases fault <;> rfl

/-- The search never raises. -/
theorem exists_resolveBy (kinds : List Kind) (question : Value) (now : Moment) :
    ∃ r, resolveBy kinds question now = .ok r := by
  cases question with
  | text s => exact ⟨_, resolveBy_text kinds s now⟩
  | _ => exact ⟨none, rfl⟩

/-- The day of a moment is all that the search reads of it. -/
theorem resolveBy_congr {now other : Moment} (h : now.utcDate? = other.utcDate?)
    (kinds : List Kind) (question : Value) :
    resolveBy kinds question now = resolveBy kinds question other := by
  cases question with
  | text s => simp only [resolveBy_text, searchAt, utcDay, h]
  | _ => rfl

theorem find_nil (kind : Kind) : kind.find [] = .absent := by
  cases kind <;> rfl

theorem resolveBy_eq_of_utcDate? {now : Moment} (h : now.utcDate? = some today) (kinds : List Kind)
    (s : String) : resolveBy kinds (.text s) now =
      .ok (search (lower s.toList) today kinds).toOption.join := by
  have hsearch : searchAt kinds s now = search (lower s.toList) today kinds := by
    simp only [searchAt, utcDay, h]
    rfl
  rw [resolveBy_text, hsearch]
  split
  -- An empty text is not searched; nothing would be found in it.
  · rename_i hempty
    have hnil : lower s.toList = [] := by
      rw [show s.toList = [] by simpa using hempty]
      rfl
    have hnone : search [] today kinds = .ok none := by
      rw [← List.append_nil kinds]
      refine search_append (fun kind _ phrase hphrase => ?_) []
      rw [find_nil] at hphrase
      cases hphrase
    rw [hnil, hnone]
    rfl
  · rfl

theorem resolveBy_eq_of_no_utcDate? {now : Moment} (h : now.utcDate? = none) (kinds : List Kind)
    (s : String) : resolveBy kinds (.text s) now = .ok none := by
  have hsearch : searchAt kinds s now = .error .beyondCalendar := by
    simp only [searchAt, utcDay, h]
    rfl
  rw [resolveBy_text, hsearch]
  split <;> rfl

/-- A period is found just when the moment has a day and the search finds it on that day. -/
theorem resolveBy_eq_some_iff {now : Moment} {s : String} {p : Period} :
    resolveBy kinds (.text s) now = .ok (some p) ↔
      ∃ today, now.utcDate? = some today ∧ search (lower s.toList) today kinds = .ok (some p) := by
  cases hday : now.utcDate? with
  | none =>
    rw [resolveBy_eq_of_no_utcDate? hday]
    exact ⟨nofun, nofun⟩
  | some today =>
    rw [resolveBy_eq_of_utcDate? hday]
    constructor
    · intro h
      refine ⟨today, rfl, ?_⟩
      cases hsearch : search (lower s.toList) today kinds with
      | error fault =>
        rw [hsearch] at h
        cases h
      | ok found =>
        rw [hsearch] at h
        exact h
    · rintro ⟨day, hsame, h⟩
      rw [Option.some.inj hsame, h]
      rfl

/-- Kinds that find the same on every day answer a question alike. -/
theorem resolveBy_eq_of_search {other : List Kind} {s : String}
    (h : ∀ today, search (lower s.toList) today kinds = search (lower s.toList) today other)
    (now : Moment) : resolveBy kinds (.text s) now = resolveBy other (.text s) now := by
  cases hday : now.utcDate? with
  | none => rw [resolveBy_eq_of_no_utcDate? hday, resolveBy_eq_of_no_utcDate? hday]
  | some today => rw [resolveBy_eq_of_utcDate? hday, resolveBy_eq_of_utcDate? hday, h]

/-! ### The phrase that decides -/

theorem toOption_later (d : Date) (days : Int) : (later d days).toOption = d.addDays? days := by
  ext e
  rw [toOption_eq_some_iff, later_eq_ok_iff, addDays?_eq_some_iff]

theorem window?_eq_some_iff {start : Date} {days : Int} {label : String} {w : Period} :
    Period.window? start days label = some w ↔
      Covers w start.ordinal (start.ordinal + days) ∧ w.label = some label := by
  have hsteps : Period.window? start days label =
      (start.addDays? days).bind fun stop => (span start stop label).toOption := by
    rw [Period.window?]
    cases start.addDays? days with
    | none => rfl
    | some stop =>
      simp only [Option.bind_some, span, Period.between]
      split <;> rfl
  rw [hsteps, ← toOption_later, ← toOption_bind, toOption_eq_some_iff]
  exact window_eq_ok_iff

theorem period?_eq (today : Date) (phrase : Phrase) :
    phrase.period? today = (phrase.resolve today).toOption := by
  have hwindow (start : Date) (days : Int) (label : String) :
      Period.window? start days label = (window start days label).toOption := by
    ext w
    rw [window?_eq_some_iff, toOption_eq_some_iff, window_eq_ok_iff]
  cases phrase with
  | between a b =>
    ext w
    have hlength (x y : Int) : x + (y - x + 1) = y + 1 := by omega
    rw [toOption_eq_some_iff, Phrase.resolve_between_eq_ok_iff, ← Phrase.ordinal_earlier,
      ← Phrase.ordinal_later, ← hlength (if a ≤ b then a else b).ordinal]
    exact window?_eq_some_iff
  | _ =>
    simp only [Phrase.period?, Phrase.resolve, toOption_bind, toOption_later, hwindow, Phrase.label]

/-- The phrase that a text has of a kind. -/
def phrase? (q : List Char) (kind : Kind) : Option Phrase :=
  match kind.find q with
  | .phrase phrase => some phrase
  | _ => none

theorem phrase?_between (q : List Char) : phrase? q .between = between? q := by
  rw [phrase?, Kind.find, between?]
  cases firstMatch? readBetween? q with
  | none => rfl
  | some runs =>
    obtain ⟨v, w⟩ := runs
    cases hv : date? v with
    | none => simp [hv, Found.ofDates]
    | some a => cases hw : date? w <;> simp [hv, hw, Found.ofDates]

theorem phrase?_dated {kind : Kind} {words : List String} {phraseOf : Date → Phrase}
    (h : kind.find q = findDated words phraseOf q) :
    phrase? q kind = dated? words phraseOf q := by
  rw [phrase?, h, findDated, dated?]
  cases firstMatch? (readOn? words) q with
  | none => rfl
  | some run => cases hrun : date? run <;> simp [hrun, Found.ofDates]

/-- The phrase that decides is that of the first kind that has one. -/
theorem ofLower?_eq (q : List Char) : Phrase.ofLower? q = Kind.order.findSome? (phrase? q) := by
  have hdated : [Kind.between, .on_, .weekOf].findSome? (phrase? q) =
      (between? q).or ((dated? ["on"] .on_ q).or (dated? ["week", "of"] .weekOf q)) := by
    have hon := phrase?_dated (show Kind.find q .on_ = findDated ["on"] .on_ q from rfl)
    have hweekOf := phrase?_dated
      (show Kind.find q .weekOf = findDated ["week", "of"] .weekOf q from rfl)
    simp only [List.findSome?_cons, List.findSome?_nil, phrase?_between, hon, hweekOf]
    cases between? q <;> cases dated? ["on"] .on_ q <;>
      cases dated? ["week", "of"] .weekOf q <;> rfl
  have hundated (kind : Kind) (more : List Kind) (found : Option Phrase)
      (h : kind.find q = .ofOption found) :
      (kind :: more).findSome? (phrase? q) = found.or (more.findSome? (phrase? q)) := by
    rw [List.findSome?_cons, phrase?, h]
    cases found <;> rfl
  rw [Kind.order, hundated .today _ _ rfl, hundated .yesterday _ _ rfl, hundated .lastWeek _ _ rfl,
    hundated .daysAgo _ _ rfl, hundated .weeksAgo _ _ rfl, hdated]
  unfold Phrase.ofLower?
  cases containsExactWord "today".toList q with
  | true => rfl
  | false =>
    cases containsExactWord "yesterday".toList q with
    | true => rfl
    | false =>
      cases firstMatch? readLastWeek? q with
      | some _ => rfl
      | none =>
        cases firstMatch? (readAgo? "day") q with
        | some n => rfl
        | none => cases firstMatch? (readAgo? "week") q <;> rfl

theorem search_eq (q : List Char) (today : Date) (kinds : List Kind) :
    search q today kinds =
      match kinds.findSome? (phrase? q) with
      | none => .ok none
      | some phrase => (phrase.resolve today).map some := by
  induction kinds with
  | nil => rfl
  | cons kind more ih =>
    rcases noPhrase_or q kind with hnone | ⟨phrase, hphrase⟩
    · have hkind : phrase? q kind = none := by
        rw [phrase?]
        split
        · rename_i phrase hphrase
          exact absurd hphrase (hnone phrase)
        · rfl
      rw [List.findSome?_cons, hkind, search_cons_of_noPhrase hnone, ih]
    · have hkind : phrase? q kind = some phrase := by rw [phrase?, hphrase]
      rw [List.findSome?_cons, hkind, search_cons_of_phrase hphrase]

/-- The search by steps finds the period that a question is answered with. -/
theorem resolve_text (s : String) (now : Moment) : resolve (.text s) now = .ok (period? s now) := by
  cases hday : now.utcDate? with
  | none =>
    rw [resolve, resolveBy_eq_of_no_utcDate? hday, period?, hday]
    rfl
  | some today =>
    rw [resolve, resolveBy_eq_of_utcDate? hday, search_eq, ← ofLower?_eq,
      period?, hday]
    simp only [Option.bind_eq_bind, Option.bind_some, Phrase.ofText?, period?_eq]
    cases Phrase.ofLower? (lower s.toList) with
    | none => rfl
    | some phrase =>
      simp only [Option.bind_some]
      cases phrase.resolve today <;> rfl

end Question
end QueryGate
