import Mathlib.Data.List.Forall2
import Mathlib.Data.List.TakeWhile
import QueryGate.Proofs.Text.Quoting
import QueryGate.Record

/-!
# Fields of records

A record is one line whatever its values are.  Its values can be told from the line, up to the
blanks in them, except for one case: a value that is written without quotes and begins with a quote
itself looks like the beginning of a quoted one.
-/

namespace QueryGate

namespace Text

theorem eq_space_of_mem_collapse {c : Char} {cs : List Char} (h : c ∈ collapse cs)
    (hc : isBlank c = true) : c = ' ' := by
  induction cs with
  | nil => cases h
  | cons d r ih =>
    unfold collapse at h
    split at h
    · split at h
      · exact ih h
      · exact (List.mem_cons.mp h).elim id ih
    · rename_i hd
      rcases List.mem_cons.mp h with rfl | h
      · exact absurd hc hd
      · exact ih h

/-- The only blanks of a squeezed text are spaces. -/
theorem eq_space_of_mem_squeeze {c : Char} {cs : List Char} (h : c ∈ squeeze cs)
    (hc : isBlank c = true) : c = ' ' := by
  obtain ⟨front, hfront, _⟩ := trimLeft_eq (collapse cs)
  obtain ⟨back, hback, _⟩ := trimRight_eq (trimLeft (collapse cs))
  have hleft : c ∈ trimLeft (collapse cs) := by
    rw [hback]
    exact List.mem_append_left _ h
  have hcollapse : c ∈ collapse cs := by
    rw [hfront]
    exact List.mem_append_right _ hleft
  exact eq_space_of_mem_collapse hcollapse hc

end Text

namespace Record

open Text

/-! ### One value -/

/-- The first value is written without quotes but begins with one, the second one is written with
quotes. -/
def Confusable (v w : List Char) : Prop :=
  needsQuotes v = false ∧ needsQuotes w = true ∧ ∃ quote ∈ quoteMarks, v.head? = some quote

theorem needsQuotes_eq_false {cs : List Char} (h : needsQuotes cs = false) :
    cs ≠ [] ∧ ∀ c ∈ cs, isBlank c = false := by
  rw [needsQuotes, Bool.or_eq_false_iff] at h
  refine ⟨List.isEmpty_eq_false_iff.mp h.1, ?_⟩
  intro c hc
  have hboth := List.any_eq_false.mp h.2 c hc
  rw [Bool.not_eq_true, Bool.or_eq_false_iff] at hboth
  exact hboth.1

theorem takeWhile_bare_append {v r : List Char} (hv : ∀ c ∈ v, isBlank c = false)
    (hr : breaksOff r = true) : (v ++ r).takeWhile (fun c => !isBlank c) = v := by
  rw [takeWhile_append_of_breaksOff (fun c hc => by rw [hc]; rfl) hr]
  apply List.takeWhile_eq_self_iff.mpr
  intro c hc
  rw [hv c hc]
  rfl

/-- Values without blanks end where the blanks begin. -/
theorem append_inj_of_breaksOff {v w r s : List Char} (hv : ∀ c ∈ v, isBlank c = false)
    (hw : ∀ c ∈ w, isBlank c = false) (hr : breaksOff r = true) (hs : breaksOff s = true)
    (h : v ++ r = w ++ s) : v = w ∧ r = s := by
  have hsame : v = w := by
    rw [← takeWhile_bare_append hv hr, h, takeWhile_bare_append hw hs]
  rw [hsame] at h
  exact ⟨hsame, List.append_cancel_left h⟩

/-- A value in quotes is none that is written without quotes, unless the two can be confused. -/
theorem quoted_append_ne {v w r s : List Char} (hv : needsQuotes v = true)
    (hw : needsQuotes w = false) (hapart : ¬ Confusable w v) :
    quoted (squeeze v) ++ r ≠ w ++ s := by
  intro h
  obtain ⟨d, w', rfl⟩ := List.exists_cons_of_ne_nil (needsQuotes_eq_false hw).1
  have hd : quoteFor (squeeze v) = d := (List.cons.inj h).1
  apply hapart
  refine ⟨hw, hv, d, ?_, rfl⟩
  rw [← hd]
  exact quoteFor_mem (squeeze v)

/-- A value is known from the line up to its blanks, and so is where it ends. -/
theorem fieldChars_append_inj {v w r s : List Char} (hvw : ¬ Confusable v w)
    (hwv : ¬ Confusable w v) (hr : breaksOff r = true) (hs : breaksOff s = true)
    (h : fieldChars v ++ r = fieldChars w ++ s) : squeeze v = squeeze w ∧ r = s := by
  unfold fieldChars at h
  cases hv : needsQuotes v with
  | true =>
    rw [if_pos hv] at h
    cases hw : needsQuotes w with
    | true =>
      rw [if_pos hw] at h
      exact quoted_append_inj h
    | false =>
      rw [hw, if_neg Bool.false_ne_true] at h
      exact absurd h (quoted_append_ne hv hw hwv)
  | false =>
    rw [hv, if_neg Bool.false_ne_true] at h
    cases hw : needsQuotes w with
    | true =>
      rw [if_pos hw] at h
      exact absurd h.symm (quoted_append_ne hw hv hvw)
    | false =>
      rw [hw, if_neg Bool.false_ne_true] at h
      obtain ⟨rfl, hrs⟩ := append_inj_of_breaksOff (needsQuotes_eq_false hv).2
        (needsQuotes_eq_false hw).2 hr hs h
      exact ⟨rfl, hrs⟩

/-- The only blanks of a value in a line are spaces. -/
theorem eq_space_of_mem_fieldChars {c : Char} {v : List Char} (h : c ∈ fieldChars v)
    (hc : isBlank c = true) : c = ' ' := by
  unfold fieldChars at h
  split at h
  · exact eq_space_of_mem_squeeze (mem_of_mem_quoted h hc) hc
  · rename_i hquotes
    have hbare := (needsQuotes_eq_false (Bool.not_eq_true _ ▸ hquotes)).2 c h
    rw [hbare] at hc
    cases hc

/-! ### The line -/

/-- Fields whose values are texts. -/
def textFields (names values : List String) : List (String × Value) :=
  names.zip (values.map Value.text)

/-- What stands in a line behind the event. -/
def fieldsChars (names values : List String) : List Char :=
  (names.zip values).flatMap fun f => ' ' :: (f.1.toList ++ '=' :: fieldChars f.2.toList)

theorem fieldsChars_cons (name value : String) (names values : List String) :
    fieldsChars (name :: names) (value :: values) =
      (' ' :: (name.toList ++ ['='])) ++ (fieldChars value.toList ++ fieldsChars names values) := by
  simp [fieldsChars]

theorem breaksOff_fieldsChars (names values : List String) :
    breaksOff (fieldsChars names values) = true := by
  cases names with
  | nil => rfl
  | cons name names =>
    cases values with
    | nil => rfl
    | cons value values =>
      rw [fieldsChars_cons]
      rfl

theorem toList_spaced (first : String) (rest : List String) :
    (" ".intercalate (first :: rest)).toList =
      first.toList ++ rest.flatMap fun s => ' ' :: s.toList := by
  induction rest generalizing first with
  | nil => simp
  | cons second rest ih =>
    rw [String.intercalate_cons_cons, String.toList_append, String.toList_append, ih]
    simp

theorem toList_eventText (event : String) (names values : List String) :
    (eventText event (textFields names values)).toList =
      event.toList ++ fieldsChars names values := by
  have hvalue : ∀ s : String, (Value.text s).shown = s := fun s => by rw [Value.shown]
  rw [eventText, toList_spaced, textFields, List.zip_map_right, List.map_map, List.flatMap_map,
    fieldsChars]
  congr 2
  funext f
  simp [hvalue]

/-- Two values of one field cannot be confused, whichever of them is the first. -/
def Distinct (v w : String) : Prop :=
  ¬ Confusable v.toList w.toList ∧ ¬ Confusable w.toList v.toList

/-- Two values of one field are the same but for the blanks in them. -/
def SameWords (v w : String) : Prop := squeeze v.toList = squeeze w.toList

/-- The values are known from the line field by field: each ends where the next one begins. -/
theorem forall₂_sameWords {names values values' : List String}
    (hlength : values.length = names.length) (hvalues : List.Forall₂ Distinct values values')
    (h : fieldsChars names values = fieldsChars names values') :
    List.Forall₂ SameWords values values' := by
  induction hvalues generalizing names with
  | nil => exact .nil
  | @cons v w values values' hvw _ ih =>
    obtain ⟨name, names, rfl⟩ := List.exists_cons_of_length_eq_add_one hlength.symm
    rw [fieldsChars_cons, fieldsChars_cons] at h
    obtain ⟨hsame, hrest⟩ := fieldChars_append_inj hvw.1 hvw.2 (breaksOff_fieldsChars names values)
      (breaksOff_fieldsChars names values') (List.append_cancel_left h)
    exact .cons hsame (ih (Nat.succ.inj hlength) hrest)

/-- Every blank of a line but spaces is one of the event or of a name. -/
theorem mem_of_isBlank {event : String} {names values : List String} {c : Char}
    (h : c ∈ (eventText event (textFields names values)).toList) (hc : isBlank c = true)
    (hspace : c ≠ ' ') : c ∈ event.toList ∨ ∃ name ∈ names, c ∈ name.toList := by
  rw [toList_eventText] at h
  rcases List.mem_append.mp h with h | h
  · exact Or.inl h
  right
  obtain ⟨f, hf, h⟩ := List.mem_flatMap.mp h
  refine ⟨f.1, (List.of_mem_zip hf).1, ?_⟩
  rcases List.mem_cons.mp h with h | h
  · exact absurd h hspace
  rcases List.mem_append.mp h with h | h
  · exact h
  rcases List.mem_cons.mp h with h | h
  · exact absurd h (ne_of_isBlank hc (by decide))
  · exact absurd (eq_space_of_mem_fieldChars h hc) hspace

/-! ### The record of an event -/

/-- The characters at which a line ends. -/
def lineBreaks : List Char :=
  ['\n', '\x0b', '\x0c', '\r', '\x1c', '\x1d', '\x1e', '\u0085', '\u2028', '\u2029']

theorem isBlank_of_mem_lineBreaks : ∀ c ∈ lineBreaks, isBlank c = true ∧ c ≠ ' ' :=
  List.all_iff_forall_prop.mp (by decide)

theorem lookup_textFields {name : String} {names values : List String} (h : name ∉ names) :
    (textFields names values).lookup name = none := by
  rw [List.lookup_eq_none_iff]
  intro f hf
  rw [bne_iff_ne]
  rintro rfl
  exact h (List.of_mem_zip hf).1

theorem auditOf_textFields {event : String} {names values : List String}
    (hevent : "event" ∉ names) (hlevel : "level" ∉ names) :
    auditOf event (textFields names values) = .ok (some (audit event (textFields names values))) := by
  unfold auditOf
  simp only [lookup_textFields hevent, lookup_textFields hlevel]
  rfl

/-- No text is the level of a record, so what is written down about texts is the event with all of
them. -/
theorem eq_audit_of_auditOf {event : String} {names values : List String} {r : Record}
    (h : auditOf event (textFields names values) = .ok (some r)) :
    r = audit event (textFields names values) := by
  unfold auditOf at h
  dsimp only at h
  split at h
  · cases h
  split at h
  · exact (Option.some.inj (Except.ok.inj h)).symm
  · rename_i level hlevel
    obtain ⟨before, after, hfields, _⟩ := List.lookup_eq_some_iff.mp hlevel
    have hmem : ("level", level) ∈ textFields names values := by
      rw [hfields]
      simp
    obtain ⟨s, _, rfl⟩ := List.mem_map.mp (List.of_mem_zip hmem).2
    cases h

/-- No value brings a line break into a line. -/
theorem not_mem_line {event : String} {names values : List String}
    (hbreaks : ∀ c ∈ lineBreaks, c ∉ event.toList ∧ ∀ name ∈ names, c ∉ name.toList) {c : Char}
    (hc : c ∈ lineBreaks) : c ∉ (audit event (textFields names values)).line.toList := by
  intro hmem
  obtain ⟨hblank, hspace⟩ := isBlank_of_mem_lineBreaks c hc
  simp only [line, audit, String.toList_append] at hmem
  rcases List.mem_append.mp hmem with hmem | hmem
  · have hlevel : ∀ c ∈ lineBreaks, c ∉ Level.warning.name.toList ++ " ".toList :=
      List.all_iff_forall_prop.mp (by decide)
    exact hlevel c hc hmem
  · rcases mem_of_isBlank hmem hblank hspace with h | ⟨name, hname, h⟩
    · exact (hbreaks c hc).1 h
    · exact (hbreaks c hc).2 name hname h

/-- The records of one event with the same names.  Their lines are the same only if the values are
the same field by field, up to the blanks in them, unless the two values of a field can be confused;
and no value brings a line break into its line. -/
theorem values_of_line {event : String} {names values values' : List String}
    (hlength : values.length = names.length) {r r' : Record}
    (h : auditOf event (textFields names values) = .ok (some r))
    (h' : auditOf event (textFields names values') = .ok (some r')) :
    (r.line = r'.line → List.Forall₂ Distinct values values' →
        List.Forall₂ SameWords values values') ∧
      ((∀ c ∈ lineBreaks, c ∉ event.toList ∧ ∀ name ∈ names, c ∉ name.toList) →
        ∀ c ∈ lineBreaks, c ∉ r.line.toList ∧ c ∉ r'.line.toList) := by
  obtain rfl := eq_audit_of_auditOf h
  obtain rfl := eq_audit_of_auditOf h'
  constructor
  · intro hline hvalues
    apply forall₂_sameWords hlength hvalues
    have htext := congrArg String.toList hline
    simp only [line, audit, String.toList_append, toList_eventText] at htext
    exact List.append_cancel_left (List.append_cancel_left htext)
  · intro hbreaks c hc
    constructor
    · exact not_mem_line hbreaks hc
    · exact not_mem_line hbreaks hc

/-- The record of a statement that was turned down. -/
def rejected (reason sql : String) : Record :=
  audit "guard_rejected" (textFields ["reason", "sql"] [reason, sql])

theorem auditOf_rejected (reason sql : String) :
    auditOf "guard_rejected" (textFields ["reason", "sql"] [reason, sql]) =
      .ok (some (rejected reason sql)) :=
  auditOf_textFields (by decide) (by decide)

theorem values_of_line_rejected :
    auditOf "guard_rejected" (textFields ["reason", "sql"] ["missing LIMIT", "'t'"]) =
        .ok (some (rejected "missing LIMIT" "'t'")) ∧
      auditOf "guard_rejected" (textFields ["reason", "sql"] ["missing\nLIMIT ", "'t'"]) =
        .ok (some (rejected "missing\nLIMIT " "'t'")) ∧
      (rejected "missing LIMIT" "'t'").line = (rejected "missing\nLIMIT " "'t'").line ∧
      List.Forall₂ SameWords ["missing LIMIT", "'t'"] ["missing\nLIMIT ", "'t'"] ∧
      '\n' ∉ (rejected "missing\nLIMIT " "'t'").line.toList := by
  have hdistinct : List.Forall₂ Distinct ["missing LIMIT", "'t'"] ["missing\nLIMIT ", "'t'"] := by
    refine .cons ⟨fun h => ?_, fun h => ?_⟩ (.cons ⟨fun h => ?_, fun h => ?_⟩ .nil)
    · exact absurd h.1 (by decide)
    · exact absurd h.1 (by decide)
    · exact absurd h.2.1 (by decide)
    · exact absurd h.2.1 (by decide)
  have hline : (rejected "missing LIMIT" "'t'").line =
      (rejected "missing\nLIMIT " "'t'").line := by
    decide +kernel
  have hlength : ["missing LIMIT", "'t'"].length = ["reason", "sql"].length := rfl
  have hfree : ∀ c ∈ lineBreaks, c ∉ "guard_rejected".toList ∧
      ∀ name ∈ ["reason", "sql"], c ∉ name.toList :=
    List.all_iff_forall_prop.mp (by decide)
  obtain ⟨hvalues, hbreaks⟩ :=
    values_of_line hlength (auditOf_rejected "missing LIMIT" "'t'")
      (auditOf_rejected "missing\nLIMIT " "'t'")
  exact ⟨auditOf_rejected _ _, auditOf_rejected _ _, hline, hvalues hline hdistinct,
    (hbreaks hfree '\n' (by decide)).2⟩

/-- A value without blanks that begins with a quote takes the next field in. -/
theorem line_of_two_values :
    auditOf "guard_rejected" (textFields ["reason", "sql"] ["\"x", "y\" sql=z"]) =
        .ok (some (rejected "\"x" "y\" sql=z")) ∧
      auditOf "guard_rejected" (textFields ["reason", "sql"] ["x sql='y", "z'"]) =
        .ok (some (rejected "x sql='y" "z'")) ∧
      (rejected "\"x" "y\" sql=z").line = (rejected "x sql='y" "z'").line ∧
      ¬ List.Forall₂ SameWords ["\"x", "y\" sql=z"] ["x sql='y", "z'"] := by
  refine ⟨auditOf_rejected _ _, auditOf_rejected _ _, ?_, ?_⟩
  · decide +kernel
  · intro h
    cases h with
    | cons hreason _ =>
      have hwords : squeeze "\"x".toList ≠ squeeze "x sql='y".toList := by decide
      exact hwords hreason

end Record
end QueryGate
