import QueryGate.Proofs.Calendar.Count
import QueryGate.Question.Resolution
import QueryGate.Run

/-!
# The window of a phrase

Every phrase names a window of days around the day it is said on, or around the days it states.  The
window is counted in days, whether the calendar has them or not.  A phrase resolves to its window
just when the calendar has all of it, and then to nothing else.
-/

namespace QueryGate
namespace Question

open Date

/-- The period from one day up to another, both given by their counts. -/
structure Covers (p : Period) (first behind : Int) : Prop where
  start : (p.start.ordinal : Int) = first
  stop : (p.stop.ordinal : Int) = behind

/-! ### Steps -/

theorem later_eq_ok_iff {d e : Date} {days : Int} :
    later d days = .ok e ↔ (e.ordinal : Int) = d.ordinal + days := by
  unfold later
  split
  · rename_i hlong
    -- The calendar is shorter than the longest span, so it has no day so far away.
    have hd := d.ordinal_mem
    have he := e.ordinal_mem
    simp only [longestSpan, lastOrdinal] at hlong hd he
    refine ⟨nofun, fun h => ?_⟩
    omega
  · rw [← addDays?_eq_some_iff]
    cases d.addDays? days with
    | none => exact ⟨nofun, nofun⟩
    | some f => simp

theorem span_eq_ok_iff {start stop : Date} {label : String} {w : Period} :
    span start stop label = .ok w ↔ w.start = start ∧ w.stop = stop ∧ w.label = some label := by
  unfold span Period.between
  obtain ⟨a, b, l, h⟩ := w
  by_cases hlt : start < stop
  · rw [dif_pos hlt]
    simp only [Except.ok.injEq, Period.mk.injEq]
    exact ⟨fun ⟨ha, hb, hl⟩ => ⟨ha.symm, hb.symm, hl.symm⟩,
      fun ⟨ha, hb, hl⟩ => ⟨ha.symm, hb.symm, hl.symm⟩⟩
  · rw [dif_neg hlt]
    refine ⟨nofun, ?_⟩
    rintro ⟨rfl, rfl, rfl⟩
    exact absurd h hlt

theorem window_eq_ok_iff {start : Date} {days : Int} {label : String} {w : Period} :
    window start days label = .ok w ↔
      Covers w start.ordinal (start.ordinal + days) ∧ w.label = some label := by
  rw [window, bind_eq_ok]
  constructor
  · rintro ⟨stop, hstop, h⟩
    obtain ⟨rfl, rfl, hlabel⟩ := span_eq_ok_iff.mp h
    exact ⟨⟨rfl, later_eq_ok_iff.mp hstop⟩, hlabel⟩
  · rintro ⟨⟨hstart, hstop⟩, hlabel⟩
    have hstart : w.start = start := ordinal_inj.mp (by omega)
    exact ⟨w.stop, later_eq_ok_iff.mpr hstop, span_eq_ok_iff.mpr ⟨hstart, rfl, hlabel⟩⟩

theorem later_window_eq_ok_iff {d : Date} {back days : Int} {label : String} {w : Period} :
    (do window (← later d back) days label) = .ok w ↔
      Covers w (d.ordinal + back) (d.ordinal + back + days) ∧ w.label = some label := by
  rw [bind_eq_ok]
  constructor
  · rintro ⟨start, hstart, h⟩
    rw [← later_eq_ok_iff.mp hstart]
    exact window_eq_ok_iff.mp h
  · rintro ⟨⟨hstart, hstop⟩, hlabel⟩
    exact ⟨w.start, later_eq_ok_iff.mpr hstart,
      window_eq_ok_iff.mpr ⟨⟨rfl, by omega⟩, hlabel⟩⟩

/-! ### Phrases -/

namespace Phrase

/-- The count of the first day of the window. -/
def first (today : Date) : Phrase → Int
  | .today => today.ordinal
  | .yesterday => today.ordinal - 1
  | .lastWeek => today.ordinal - 7
  | .daysAgo n => today.ordinal - n
  | .weeksAgo n => today.ordinal - 7 * n
  | .between a b => (min a.ordinal b.ordinal : Nat)
  | .on_ d => d.ordinal
  | .weekOf d => d.ordinal

/-- The number of days of the window. -/
def length : Phrase → Int
  | .lastWeek => 7
  | .between a b => (max a.ordinal b.ordinal : Nat) - (min a.ordinal b.ordinal : Nat) + 1
  | .weekOf _ => 7
  | _ => 1

/-- The count of the day behind the window. -/
def behind (today : Date) (phrase : Phrase) : Int := phrase.first today + phrase.length

theorem length_pos (phrase : Phrase) : 0 < phrase.length := by
  cases phrase with
  | between a b =>
    simp only [length]
    omega
  | _ => simp [length]

theorem ordinal_earlier (a b : Date) :
    (if a ≤ b then a else b).ordinal = min a.ordinal b.ordinal := by
  by_cases h : a.ordinal ≤ b.ordinal
  · rw [if_pos (show a ≤ b from h)]
    omega
  · rw [if_neg (show ¬a ≤ b from h)]
    omega

theorem ordinal_later (a b : Date) :
    (if a ≤ b then b else a).ordinal = max a.ordinal b.ordinal := by
  by_cases h : a.ordinal ≤ b.ordinal
  · rw [if_pos (show a ≤ b from h)]
    omega
  · rw [if_neg (show ¬a ≤ b from h)]
    omega

theorem resolve_between_eq_ok_iff {today a b : Date} {w : Period} :
    (Phrase.between a b).resolve today = .ok w ↔
      Covers w (min a.ordinal b.ordinal : Nat) ((max a.ordinal b.ordinal : Nat) + 1) ∧
        w.label = some "between" := by
  rw [← ordinal_earlier, ← ordinal_later]
  refine bind_eq_ok.trans ⟨?_, ?_⟩
  · rintro ⟨stop, hstop, h⟩
    obtain ⟨hstart, rfl, hlabel⟩ := span_eq_ok_iff.mp h
    exact ⟨⟨by rw [hstart], later_eq_ok_iff.mp hstop⟩, hlabel⟩
  · rintro ⟨⟨hstart, hstop⟩, hlabel⟩
    exact ⟨w.stop, later_eq_ok_iff.mpr hstop,
      span_eq_ok_iff.mpr ⟨ordinal_inj.mp (by omega), rfl, hlabel⟩⟩

/-- A phrase resolves to its window and to nothing else. -/
theorem resolve_eq_ok_iff {today : Date} {phrase : Phrase} {w : Period} :
    phrase.resolve today = .ok w ↔
      Covers w (phrase.first today) (phrase.behind today) ∧ w.label = some phrase.label := by
  cases phrase with
  | today => exact window_eq_ok_iff
  | yesterday => exact later_window_eq_ok_iff
  | lastWeek => exact later_window_eq_ok_iff
  | daysAgo n => exact later_window_eq_ok_iff
  | weeksAgo n => exact later_window_eq_ok_iff
  | between a b =>
    have hbehind : (Phrase.between a b).behind today = (max a.ordinal b.ordinal : Nat) + 1 := by
      simp only [behind, first, length]
      omega
    rw [hbehind]
    exact resolve_between_eq_ok_iff
  | on_ d => exact window_eq_ok_iff
  | weekOf d => exact window_eq_ok_iff

/-- The calendar has the window of a phrase. -/
def InCalendar (today : Date) (phrase : Phrase) : Prop :=
  1 ≤ phrase.first today ∧ phrase.behind today ≤ lastOrdinal

/-- A phrase resolves just when the calendar has its window. -/
theorem exists_resolve_iff {today : Date} {phrase : Phrase} :
    (∃ w, phrase.resolve today = .ok w) ↔ phrase.InCalendar today := by
  have hpos := phrase.length_pos
  constructor
  · rintro ⟨w, h⟩
    obtain ⟨⟨hstart, hstop⟩, _⟩ := resolve_eq_ok_iff.mp h
    have hfirst := w.start.ordinal_mem
    have hlast := w.stop.ordinal_mem
    exact ⟨by omega, by omega⟩
  · rintro ⟨hfirst, hlast⟩
    have hbehind : phrase.behind today = phrase.first today + phrase.length := rfl
    obtain ⟨start, _, hstart⟩ := exists_ofOrdinal? (show 1 ≤ phrase.first today ∧
      phrase.first today ≤ lastOrdinal from ⟨hfirst, by omega⟩)
    obtain ⟨stop, _, hstop⟩ := exists_ofOrdinal? (show 1 ≤ phrase.behind today ∧
      phrase.behind today ≤ lastOrdinal from ⟨by omega, hlast⟩)
    have hlt : start < stop := by
      show start.ordinal < stop.ordinal
      omega
    exact ⟨⟨start, stop, some phrase.label, hlt⟩, resolve_eq_ok_iff.mpr ⟨⟨hstart, hstop⟩, rfl⟩⟩

end Phrase

end Question
end QueryGate
