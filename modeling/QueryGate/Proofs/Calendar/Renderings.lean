import QueryGate.Assistant.Draft
import QueryGate.Proofs.Calendar.IsoOrder
import QueryGate.Summary
import QueryGate.Template

/-!
# Renderings of a period

Queries and the questions put to a model state a period with the day behind it, readers are told its
last day.  As written days are in the order of the days, all of them stand for the same days, and
what readers are told determines the period.
-/

namespace QueryGate

open Text

/-! ### The days written in a text -/

namespace Date

/-- The days whose ISO form stands in a text, in the order in which they stand there. -/
def writtenIn : List Char → List Date
  | [] => []
  | c :: r => (ofIso? ((c :: r).take 10)).toList ++ writtenIn r

theorem ofIso?_of_length_ne {cs : List Char} (h : cs.length ≠ 10) : ofIso? cs = none := by
  rw [Option.eq_none_iff_forall_ne_some]
  rintro d hd
  rw [ofIso?_eq_some_iff.mp hd] at h
  exact h d.length_isoChars

theorem writtenIn_of_length_lt {cs : List Char} (h : cs.length < 10) : writtenIn cs = [] := by
  induction cs with
  | nil => rfl
  | cons c r ih =>
    have hnone : ofIso? ((c :: r).take 10) = none :=
      ofIso?_of_length_ne (by rw [List.length_take]; omega)
    rw [writtenIn, hnone, ih (by rw [List.length_cons] at h; omega)]
    rfl

/-- The ISO form of a day has the day written in it and no other. -/
theorem writtenIn_isoChars (d : Date) : writtenIn d.isoChars = [d] := by
  have hlength := d.length_isoChars
  have hread : ofIso? d.isoChars = some d := ofIso?_eq_some_iff.mpr rfl
  obtain ⟨c, r, hchars⟩ := List.exists_cons_of_length_eq_add_one hlength
  rw [hchars] at hlength hread ⊢
  rw [writtenIn, List.take_of_length_le (Nat.le_of_eq hlength), hread,
    writtenIn_of_length_lt (by rw [List.length_cons] at hlength; omega)]
  rfl

section Divider

variable {c : Char} (hdigit : isAsciiDigit c = false) (hhyphen : c ≠ '-')
include hdigit hhyphen

theorem not_mem_isoChars (d : Date) : c ∉ d.isoChars := by
  intro hmem
  rcases mem_isoChars hmem with h | h
  · rw [hdigit] at h
    cases h
  · exact hhyphen h

theorem ofIso?_take_append_cons (a b : List Char) :
    ofIso? ((a ++ c :: b).take 10) = ofIso? (a.take 10) := by
  rcases Nat.lt_or_ge a.length 10 with hshort | hlong
  · have hmem : c ∈ (a ++ c :: b).take 10 := by
      obtain ⟨n, hn⟩ : ∃ n, 10 - a.length = n + 1 := ⟨9 - a.length, by omega⟩
      rw [List.take_append, hn, List.take_succ_cons]
      simp
    have hlength : (a.take 10).length ≠ 10 := by
      rw [List.length_take]
      omega
    rw [ofIso?_of_length_ne hlength, Option.eq_none_iff_forall_ne_some]
    intro d hd
    rw [ofIso?_eq_some_iff.mp hd] at hmem
    exact not_mem_isoChars hdigit hhyphen d hmem
  · rw [List.take_append_of_le_length hlong]

/-- A character that is in no ISO form divides the days written in a text. -/
theorem writtenIn_append_cons (a b : List Char) :
    writtenIn (a ++ c :: b) = writtenIn a ++ writtenIn b := by
  induction a with
  | nil =>
    have hhere := ofIso?_take_append_cons hdigit hhyphen [] b
    rw [List.nil_append] at hhere ⊢
    rw [writtenIn, writtenIn, hhere]
    rfl
  | cons x a ih =>
    have hhere := ofIso?_take_append_cons hdigit hhyphen (x :: a) b
    rw [List.cons_append] at hhere ⊢
    rw [writtenIn, writtenIn, hhere, ih, List.append_assoc]

end Divider

end Date

namespace Period

open Date

variable (p : Period)

/-! ### The last day -/

theorem addDays?_neg_one : p.stop.addDays? (-1) = some p.last := by
  have hstart := p.start.ordinal_mem
  have hstop := p.stop.ordinal_mem
  have hlt : p.start.ordinal < p.stop.ordinal := p.start_lt_stop
  have hcount : 1 ≤ (p.stop.ordinal : Int) + -1 ∧ (p.stop.ordinal : Int) + -1 ≤ lastOrdinal := by
    omega
  obtain ⟨d, hfound, _⟩ := exists_ofOrdinal? hcount
  have hd : p.stop.addDays? (-1) = some d := hfound
  rw [last, hd]
  rfl

theorem last_ordinal : p.last.ordinal + 1 = p.stop.ordinal := by
  have h := addDays?_eq_some_iff.mp p.addDays?_neg_one
  omega

theorem days_eq_one_iff : p.days = 1 ↔ p.last = p.start := by
  have hlast := p.last_ordinal
  have hlt : p.start.ordinal < p.stop.ordinal := p.start_lt_stop
  rw [← ordinal_inj, days]
  omega

/-- Every period can be told to readers. -/
theorem describe?_eq : p.describe? = some p.describe := by
  rw [describe?, describe, addDays?_neg_one, Option.map_some]
  split <;> rfl

theorem lt_stop_iff {d : Date} : d < p.stop ↔ d ≤ p.last := by
  have hlast := p.last_ordinal
  show d.ordinal < p.stop.ordinal ↔ d.ordinal ≤ p.last.ordinal
  omega

/-! ### What readers are told -/

theorem writtenIn_describe :
    writtenIn p.describe.toList = if p.days = 1 then [p.start] else [p.start, p.last] := by
  rw [describe]
  split
  · rw [iso, String.toList_ofList, writtenIn_isoChars]
  · have hparts : (p.start.iso ++ " to " ++ p.last.iso).toList =
        p.start.isoChars ++ ' ' :: (['t', 'o'] ++ ' ' :: p.last.isoChars) := by
      simp [iso]
    have hword : writtenIn ['t', 'o'] = [] := rfl
    rw [hparts, writtenIn_append_cons (by decide) (by decide),
      writtenIn_append_cons (by decide) (by decide), hword, writtenIn_isoChars, writtenIn_isoChars]
    rfl

theorem head?_writtenIn_describe : (writtenIn p.describe.toList).head? = some p.start := by
  rw [writtenIn_describe]
  split <;> rfl

theorem getLast?_writtenIn_describe : (writtenIn p.describe.toList).getLast? = some p.last := by
  rw [writtenIn_describe]
  split
  · rename_i hone
    rw [p.days_eq_one_iff.mp hone]
    rfl
  · rfl

theorem writtenIn_periodPhrase :
    writtenIn (Summary.periodPhrase (some p)).toList = writtenIn p.describe.toList := by
  have hparts : (Summary.periodPhrase (some p)).toList =
      (if p.days = 1 then [' ', 'o', 'n'] else [' ', 'f', 'o', 'r']) ++ ' ' :: p.describe.toList := by
    rw [Summary.periodPhrase]
    split <;> simp
  rw [hparts, writtenIn_append_cons (by decide) (by decide)]
  split <;> rfl

variable {p} in
/-- What readers are told determines the days of the period. -/
theorem describe_inj {other : Period} :
    other.describe = p.describe ↔ other.start = p.start ∧ other.stop = p.stop := by
  constructor
  · intro h
    have hfirst := other.head?_writtenIn_describe
    have hlast := other.getLast?_writtenIn_describe
    rw [h, head?_writtenIn_describe, Option.some_inj] at hfirst
    rw [h, getLast?_writtenIn_describe, Option.some_inj] at hlast
    refine ⟨hfirst.symm, ordinal_inj.mp ?_⟩
    rw [← last_ordinal, ← last_ordinal, hlast]
  · rintro ⟨hstart, hstop⟩
    rw [describe, describe, days, days, last, last, hstart, hstop]

/-! ### All renderings -/

/-- The texts that ask for the days from a written day on and before another one. -/
inductive AsksFor (start stop : String) : String → Prop where
  /-- The condition of a query on one of its columns. -/
  | condition (column : String) :
    AsksFor start stop
      (column ++ " >= UNIX_TIMESTAMP('" ++ start ++ "')\n  AND " ++ column ++
        " < UNIX_TIMESTAMP('" ++ stop ++ "')")
  /-- The question put to a model. -/
  | prompt (question : String) :
    AsksFor start stop
      ("Question: \"" ++ question ++ "\"\n" ++
        ("Period: " ++ start ++ " (inclusive) to " ++ stop ++ " (exclusive).\n") ++
        "Return a single SELECT with a LIMIT.")

/-- All renderings of a period stand for its days.  Queries and the questions put to a model ask for
the written days from that of its start on and before that of its stop; readers are told, whatever
the period, the first and the last of its days, and the written days between these two, both
included, are the same.  No two periods with other days are told alike. -/
theorem renderings_agree :
    (∀ column, AsksFor p.start.iso p.stop.iso (Template.inPeriod column p)) ∧
    (∀ question, AsksFor p.start.iso p.stop.iso (Assistant.userPrompt question (some p))) ∧
    p.describe? = some p.describe ∧
    writtenIn (Summary.periodPhrase (some p)).toList = writtenIn p.describe.toList ∧
    (∃ first last, (writtenIn p.describe.toList).head? = some first ∧
      (writtenIn p.describe.toList).getLast? = some last ∧
      ∀ d : Date,
        (p.start ≤ d ∧ d < p.stop ↔ p.start.iso ≤ d.iso ∧ d.iso < p.stop.iso) ∧
        (p.start ≤ d ∧ d < p.stop ↔ first.iso ≤ d.iso ∧ d.iso ≤ last.iso)) ∧
    ∀ other : Period, other.describe = p.describe ↔ other.start = p.start ∧ other.stop = p.stop := by
  refine ⟨fun column => .condition column, fun question => .prompt question, p.describe?_eq,
    p.writtenIn_periodPhrase, ⟨p.start, p.last, p.head?_writtenIn_describe,
      p.getLast?_writtenIn_describe, fun d => ⟨?_, ?_⟩⟩, fun other => describe_inj⟩
  · rw [iso_le_iff, iso_lt_iff]
  · rw [iso_le_iff, iso_le_iff, lt_stop_iff]

end Period
end QueryGate
