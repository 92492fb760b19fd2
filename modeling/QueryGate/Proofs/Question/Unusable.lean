import QueryGate.Proofs.Question.Search

/-!
# Phrases that name no window

A phrase whose words occur can fail to name a window of the calendar in two ways.  Where a text among
its words is no date, the kind is passed over as if its words did not occur.  Where days are counted
beyond the calendar, the search ends there and the question names nothing, whatever else it says.
-/

namespace QueryGate
namespace Question

open Text Date

variable {q : List Char} {today : Date}

theorem noPhrase_of_absent {kind : Kind} (h : kind.find q = .absent) : NoPhrase q kind := by
  intro phrase hphrase
  rw [h] at hphrase
  cases hphrase

theorem noPhrase_of_unreal {kind : Kind} (h : kind.find q = .unreal) : NoPhrase q kind := by
  intro phrase hphrase
  rw [h] at hphrase
  cases hphrase

/-- A kind without a phrase can be left out. -/
theorem search_eq_without {front back : List Kind} {kind : Kind}
    (hfront : ∀ other ∈ front, NoPhrase q other) (h : NoPhrase q kind) :
    search q today (front ++ kind :: back) = search q today (front ++ back) := by
  rw [search_append hfront, search_append hfront, search_cons_of_noPhrase h]

/-- A phrase beyond the calendar does not resolve. -/
theorem exists_resolve_error {phrase : Phrase} (h : ¬phrase.InCalendar today) :
    ∃ fault, phrase.resolve today = .error fault := by
  cases hresolve : phrase.resolve today with
  | error fault => exact ⟨fault, rfl⟩
  | ok w => exact absurd (Phrase.exists_resolve_iff.mp ⟨w, hresolve⟩) h

/-- A kind that finds a period alone leads to one behind kinds whose phrases lie in the calendar. -/
theorem exists_search {middle : List Kind} (rest : List Kind) {kind : Kind} {p : Period}
    (hmiddle : ∀ other ∈ middle, ∀ phrase, other.find q = .phrase phrase →
      phrase.InCalendar today)
    (h : search q today [kind] = .ok (some p)) :
    ∃ w, search q today (middle ++ kind :: rest) = .ok (some w) := by
  induction middle with
  | nil =>
    rcases noPhrase_or q kind with hnone | ⟨phrase, hphrase⟩
    · rw [search_cons_of_noPhrase hnone] at h
      cases h
    · rw [search_cons_of_phrase hphrase] at h
      exact ⟨p, by rw [List.nil_append, search_cons_of_phrase hphrase, h]⟩
  | cons other middle ih =>
    obtain ⟨hother, hmiddle⟩ := List.forall_mem_cons.mp hmiddle
    rw [List.cons_append]
    rcases noPhrase_or q other with hnone | ⟨phrase, hphrase⟩
    · rw [search_cons_of_noPhrase hnone]
      exact ih hmiddle
    · obtain ⟨w, hw⟩ := Phrase.exists_resolve_iff.mpr (hother phrase hphrase)
      exact ⟨w, by rw [search_cons_of_phrase hphrase, hw]; rfl⟩

/-- Where the first phrase that occurs is one with a text that is no date, the question is answered by
the other kinds alone: a later kind that names a period alone is enough for an answer, unless a
phrase in front of it leaves the calendar.  Where the first phrase that occurs leaves the calendar
itself, the question names no period. -/
theorem unusable_phrase (s : String) (front back : List Kind) {kind : Kind}
    (horder : Kind.order = front ++ kind :: back)
    (hfirst : ∀ other ∈ front, other.find (lower s.toList) = .absent) (now : Moment) :
    (kind.find (lower s.toList) = .unreal →
      resolve (.text s) now = resolveBy (front ++ back) (.text s) now ∧
        ∀ middle later rest p, back = middle ++ later :: rest →
          (∀ other ∈ middle, ∀ phrase today, now.utcDate? = some today →
            other.find (lower s.toList) = .phrase phrase → phrase.InCalendar today) →
          resolveBy [later] (.text s) now = .ok (some p) →
          ∃ w, resolve (.text s) now = .ok (some w)) ∧
      ∀ phrase today, now.utcDate? = some today → kind.find (lower s.toList) = .phrase phrase →
        ¬phrase.InCalendar today → resolve (.text s) now = .ok none := by
  have hfront : ∀ other ∈ front, NoPhrase (lower s.toList) other := fun other hother =>
    noPhrase_of_absent (hfirst other hother)
  rw [resolve, horder]
  refine ⟨fun hunreal => ⟨?_, ?_⟩, ?_⟩
  · exact resolveBy_eq_of_search
      (fun today => search_eq_without hfront (noPhrase_of_unreal hunreal)) now
  · rintro middle later rest p rfl hmiddle hlater
    obtain ⟨today, hday, hsearch⟩ := resolveBy_eq_some_iff.mp hlater
    obtain ⟨w, hw⟩ := exists_search rest
      (fun other hother phrase => hmiddle other hother phrase today hday) hsearch
    refine ⟨w, resolveBy_eq_some_iff.mpr ⟨today, hday, ?_⟩⟩
    rw [search_append hfront, search_cons_of_noPhrase (noPhrase_of_unreal hunreal), hw]
  · intro phrase today hday hphrase hbeyond
    obtain ⟨fault, hfault⟩ := exists_resolve_error hbeyond
    rw [resolveBy_eq_of_utcDate? hday, search_append hfront, search_cons_of_phrase hphrase, hfault]
    rfl

theorem isCalendarDay_tenth : isCalendarDay 2025 9 10 = true := by decide

/-- A day in autumn. -/
def tenthOfSeptember : Date := ⟨2025, 9, 10, isCalendarDay_tenth⟩

/-- An afternoon of that day in universal time. -/
def autumnAfternoon : Moment := ⟨tenthOfSeptember, 55800000000, some ⟨0⟩⟩

/-- A day that the calendar does not have, in front of a week that it has. -/
def noSuchDay : String := "on 2025-02-30, week of 2025-08-04"

/-- The week of that question. -/
def weekOfAugust : Period :=
  ⟨⟨2025, 8, 4, by decide⟩, ⟨2025, 8, 11, by decide⟩, some "week of", by decide⟩

/-- A day in front of the first year, in front of a day that the calendar has. -/
def longAgo : String := "99999999 days ago or on 2025-08-15"

/-- The day of that question. -/
def dayInAugust : Period :=
  ⟨⟨2025, 8, 15, by decide⟩, ⟨2025, 8, 16, by decide⟩, some "on", by decide⟩

theorem longAgo_beyond : ¬(Phrase.daysAgo 99999999).InCalendar tenthOfSeptember := by
  rintro ⟨hfirst, _⟩
  revert hfirst
  decide

theorem unusable_phrase_noSuchDay :
    (Kind.order = [.today, .yesterday, .lastWeek, .daysAgo, .weeksAgo, .between] ++
        .on_ :: [.weekOf] ∧
      Kind.find (lower noSuchDay.toList) .on_ = .unreal ∧
      resolveBy [.weekOf] (.text noSuchDay) autumnAfternoon = .ok (some weekOfAugust) ∧
      resolve (.text noSuchDay) autumnAfternoon =
        resolveBy [.today, .yesterday, .lastWeek, .daysAgo, .weeksAgo, .between, .weekOf]
          (.text noSuchDay) autumnAfternoon ∧
      ∃ w, resolve (.text noSuchDay) autumnAfternoon = .ok (some w)) ∧
    Kind.find (lower longAgo.toList) .daysAgo = .phrase (.daysAgo 99999999) ∧
      resolve (.text longAgo) autumnAfternoon = .ok none := by
  have hunreal : Kind.find (lower noSuchDay.toList) .on_ = .unreal := by decide +kernel
  have hweek : resolveBy [.weekOf] (.text noSuchDay) autumnAfternoon = .ok (some weekOfAugust) :=
    (resolveBy_text _ _ _).trans (congrArg _ (by decide +kernel))
  have hago : Kind.find (lower longAgo.toList) .daysAgo = .phrase (.daysAgo 99999999) := by
    decide +kernel
  obtain ⟨heq, hlater⟩ := (unusable_phrase noSuchDay
    [.today, .yesterday, .lastWeek, .daysAgo, .weeksAgo, .between] [.weekOf] rfl
    (by decide +kernel) autumnAfternoon).1 hunreal
  have hnone := (unusable_phrase longAgo [.today, .yesterday, .lastWeek]
    [.weeksAgo, .between, .on_, .weekOf] rfl (by decide +kernel) autumnAfternoon).2 _
    tenthOfSeptember (by decide +kernel) hago longAgo_beyond
  exact ⟨⟨rfl, hunreal, hweek, heq, hlater [] .weekOf [] weekOfAugust rfl nofun hweek⟩, hago, hnone⟩

/-- A phrase beyond the calendar is not passed over: without its kind the question names a day, which
a later kind names alone, and with it the question names nothing. -/
theorem longAgo_ends_search :
    (∀ other ∈ [Kind.today, .yesterday, .lastWeek],
      other.find (lower longAgo.toList) = .absent) ∧
      Kind.find (lower longAgo.toList) .daysAgo = .phrase (.daysAgo 99999999) ∧
      ¬(Phrase.daysAgo 99999999).InCalendar tenthOfSeptember ∧
      resolveBy (Kind.order.erase .daysAgo) (.text longAgo) autumnAfternoon =
        .ok (some dayInAugust) ∧
      resolveBy [.on_] (.text longAgo) autumnAfternoon = .ok (some dayInAugust) ∧
      resolve (.text longAgo) autumnAfternoon = .ok none :=
  ⟨by decide +kernel, by decide +kernel, longAgo_beyond,
    (resolveBy_text _ _ _).trans (congrArg _ (by decide +kernel)),
    (resolveBy_text _ _ _).trans (congrArg _ (by decide +kernel)),
    (resolve_text _ _).trans (congrArg _ (by decide +kernel))⟩

end Question
end QueryGate
