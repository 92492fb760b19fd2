import QueryGate.Proofs.Policy.Verdicts

/-!
# Verdicts of three values

A verdict is that some column has a number that counts, that none of the numbers counts, or that
there is no number at all.  So a value that is missing never stands for a failure, and neither the
order of the columns nor a value without a number makes a difference.
-/

namespace QueryGate

namespace Completion

/-! ### The search through the columns -/

/-- The columns one after the other up to the first number that counts, and whether a number has
been seen. -/
def search (row : Row) : Bool → AcceptedValues → Option Bool
  | saw, [] => if saw then some false else none
  | saw, (column, values) :: accepted =>
    match number? (cell row column) with
    | none => search row saw accepted
    | some x => if values.any x.equalsInt then some true else search row true accepted

section Step

variable {row : Row} {column : String} {values : List Int} {accepted : AcceptedValues}

theorem holds?_cons_of_none (h : number? (cell row column) = none) :
    holds? ((column, values) :: accepted) row = holds? accepted row := by
  simp only [holds?, readings, List.filterMap_cons, h, Option.map_none]

theorem holds?_cons_of_some {x : Binary64} (h : number? (cell row column) = some x) :
    holds? ((column, values) :: accepted) row =
      if values.any x.equalsInt then some true else some ((holds? accepted row).getD false) := by
  simp only [holds?, readings, List.filterMap_cons, h, Option.map_some, List.any_cons,
    List.isEmpty_cons]
  cases values.any x.equalsInt with
  | true => simp
  | false =>
    simp only [Bool.false_or, Bool.false_eq_true, if_false]
    split
    · rfl
    · split <;> rfl

end Step

/-- A number that has been seen leaves nothing unknown, and it is forgotten when another one
counts. -/
theorem search_eq (row : Row) (saw : Bool) (accepted : AcceptedValues) :
    search row saw accepted =
      if saw then some ((holds? accepted row).getD false) else holds? accepted row := by
  induction accepted generalizing saw with
  | nil => rfl
  | cons entry accepted ih =>
    obtain ⟨column, values⟩ := entry
    unfold search
    split
    · rename_i hnone
      rw [ih, holds?_cons_of_none hnone]
    · rename_i x hx
      rw [ih, holds?_cons_of_some hx]
      cases values.any x.equalsInt <;> cases saw <;> rfl

/-- The verdict is what the search through the columns finds. -/
theorem holds?_eq_search (accepted : AcceptedValues) (row : Row) :
    holds? accepted row = search row false accepted := by
  rw [search_eq]
  rfl

/-! ### What a verdict says -/

/-- The number in a column is one of those that count. -/
def Counts (row : Row) (entry : String × List Int) : Prop :=
  ∃ x, number? (cell row entry.1) = some x ∧ ∃ n ∈ entry.2, x.value = n

/-- What each of the three values says. -/
structure Decides (part : CompletionRule → AcceptedValues)
    (rules : List (String × CompletionRule)) (table : String) (row : Row)
    (decision : Option Bool) : Prop where
  eq_some_true_iff : decision = some true ↔
    ∃ rule, ruleFor rules table = some rule ∧ ∃ entry ∈ part rule, Counts row entry
  eq_none_iff : decision = none ↔
    (¬ ∃ rule, ruleFor rules table = some rule ∧ part rule ≠ []) ∨
      ∃ rule, ruleFor rules table = some rule ∧
        ∀ entry ∈ part rule, number? (cell row entry.1) = none
  eq_some_false_iff : decision = some false ↔
    ∃ rule, ruleFor rules table = some rule ∧
      (∃ entry ∈ part rule, number? (cell row entry.1) ≠ none) ∧
      ∀ entry ∈ part rule, ¬ Counts row entry

theorem isFinite_of_finite? {x y : Binary64} (h : finite? x = some y) : y.isFinite = true := by
  unfold finite? at h
  split at h
  · cases h
    assumption
  · cases h

theorem isFinite_of_numeral? {cs : List Char} {x : Binary64} (h : numeral? cs = some x) :
    x.isFinite = true := by
  unfold numeral? at h
  dsimp only at h
  split at h
  · cases h
  split at h
  · split at h
    · cases h
      assumption
    · cases h
  · cases h

/-- Infinities and what is not a number are no numbers of a value. -/
theorem isFinite_of_number? {v : Value} {x : Binary64} (h : number? v = some x) :
    x.isFinite = true := by
  unfold number? at h
  split at h
  · rename_i b
    cases h
    cases b <;> rfl
  · exact isFinite_of_finite? h
  · exact isFinite_of_finite? h
  · exact isFinite_of_finite? h
  · exact isFinite_of_numeral? h
  · exact isFinite_of_numeral? h
  · cases h

theorem counts_iff {row : Row} {entry : String × List Int} :
    Counts row entry ↔
      ∃ x, number? (cell row entry.1) = some x ∧ entry.2.any x.equalsInt = true := by
  apply exists_congr
  intro x
  apply and_congr_right
  intro hx
  rw [List.any_eq_true]
  apply exists_congr
  intro n
  apply and_congr_right
  intro _
  rw [Binary64.equalsInt_iff]
  exact ⟨fun hn => ⟨isFinite_of_number? hx, hn⟩, fun hn => hn.2⟩

theorem holds?_eq_some_true_iff_counts {accepted : AcceptedValues} {row : Row} :
    holds? accepted row = some true ↔ ∃ entry ∈ accepted, Counts row entry := by
  rw [holds?_eq_some_true]
  apply exists_congr
  intro entry
  rw [counts_iff]

theorem holds?_eq_some_false_iff {accepted : AcceptedValues} {row : Row} :
    holds? accepted row = some false ↔
      (∃ entry ∈ accepted, number? (cell row entry.1) ≠ none) ∧
        ∀ entry ∈ accepted, ¬ Counts row entry := by
  have htrue : holds? accepted row ≠ some true ↔ ∀ entry ∈ accepted, ¬ Counts row entry := by
    rw [ne_eq, holds?_eq_some_true_iff_counts]
    simp only [not_exists, not_and]
  have hnone : holds? accepted row ≠ none ↔
      ∃ entry ∈ accepted, number? (cell row entry.1) ≠ none := by
    rw [ne_eq, holds?_eq_none]
    simp only [not_forall, exists_prop, ne_eq]
  rw [← htrue, ← hnone]
  cases holds? accepted row with
  | none => simp
  | some b => cases b <;> simp

theorem decides_verdict (part : CompletionRule → AcceptedValues)
    (rules : List (String × CompletionRule)) (table : String) (row : Row) :
    Decides part rules table row (verdict part rules table row) := by
  cases hrule : ruleFor rules table with
  | none =>
    have hverdict : verdict part rules table row = none := by simp [verdict, hrule]
    rw [hverdict]
    constructor <;> simp [hrule]
  | some rule =>
    have hsame : verdict part rules table row = holds? (part rule) row := by
      by_cases hpart : part rule = []
      · simp [verdict, hrule, hpart, holds?, readings]
      · exact verdict_eq_holds? hrule hpart
    rw [hsame]
    constructor
    · simp only [hrule, Option.some.injEq, exists_eq_left']
      exact holds?_eq_some_true_iff_counts
    · simp only [hrule, Option.some.injEq, exists_eq_left', not_not, holds?_eq_none]
      constructor
      · exact Or.inr
      · rintro (hpart | hnone)
        · rw [hpart]
          simp
        · exact hnone
    · simp only [hrule, Option.some.injEq, exists_eq_left']
      exact holds?_eq_some_false_iff

/-! ### What makes no difference -/

theorem holds?_eq_of_perm {accepted accepted' : AcceptedValues} {row row' : Row}
    (h : (readings accepted row).Perm (readings accepted' row')) :
    holds? accepted row = holds? accepted' row' := by
  simp only [holds?, h.any_eq, h.isEmpty_eq]

/-- Rules with the same columns, in any order. -/
structure SameColumns (rule rule' : CompletionRule) : Prop where
  completedWhen : rule.completedWhen.Perm rule'.completedWhen
  failedWhen : rule.failedWhen.Perm rule'.failedWhen

/-- Rules for the same tables with the same columns, in any order. -/
def Reordered (rules rules' : List (String × CompletionRule)) : Prop :=
  List.Forall₂ (fun entry entry' => entry.1 = entry'.1 ∧ SameColumns entry.2 entry'.2) rules rules'

theorem Reordered.ruleFor {rules rules' : List (String × CompletionRule)}
    (h : Reordered rules rules') (table : String) :
    Option.Rel SameColumns (ruleFor rules table) (ruleFor rules' table) := by
  unfold Completion.ruleFor
  split
  · exact .none
  induction h with
  | nil => exact .none
  | cons hentry _ ih =>
    rw [List.lookup_cons, List.lookup_cons, hentry.1]
    split
    · exact .some hentry.2
    · exact ih

theorem Reordered.verdict {part : CompletionRule → AcceptedValues}
    {rules rules' : List (String × CompletionRule)} (h : Reordered rules rules')
    (hpart : ∀ rule rule', SameColumns rule rule' → (part rule).Perm (part rule'))
    (table : String) (row : Row) :
    verdict part rules table row = verdict part rules' table row := by
  have hrules := h.ruleFor table
  unfold Completion.verdict
  revert hrules
  generalize Completion.ruleFor rules table = found
  generalize Completion.ruleFor rules' table = found'
  intro hrules
  cases hrules with
  | none => rfl
  | some hcolumns =>
    have hperm := hpart _ _ hcolumns
    dsimp only
    rw [hperm.isEmpty_eq, holds?_eq_of_perm (hperm.filterMap _)]

/-- Rows with the same numbers: an entry without a number may be in one of them alone. -/
def SameNumbers (row row' : Row) : Prop :=
  ∀ column v, number? v ≠ none → ((column, v) ∈ row ↔ (column, v) ∈ row')

theorem number?_cell_eq_some_iff {row : Row} (h : (row.map Prod.fst).Nodup) {column : String}
    {x : Binary64} :
    number? (cell row column) = some x ↔ ∃ v, (column, v) ∈ row ∧ number? v = some x := by
  induction row with
  | nil => simp [cell, number?]
  | cons entry row ih =>
    obtain ⟨column', w⟩ := entry
    rw [List.map_cons, List.nodup_cons] at h
    obtain ⟨hnew, hnodup⟩ := h
    by_cases hcolumn : column = column'
    · subst hcolumn
      have hcell : cell ((column, w) :: row) column = w := by simp [cell]
      rw [hcell]
      constructor
      · intro hx
        exact ⟨w, List.mem_cons_self, hx⟩
      · rintro ⟨v, hv, hx⟩
        rcases List.mem_cons.mp hv with hv | hv
        · cases hv
          exact hx
        · exact absurd (List.mem_map_of_mem hv) hnew
    · have hcell : cell ((column', w) :: row) column = cell row column := by
        simp [cell, List.lookup_cons, beq_false_of_ne hcolumn]
      rw [hcell, ih hnodup]
      simp [hcolumn]

/-- A row has in each column the number that the other row has there. -/
theorem SameNumbers.number?_cell {row row' : Row} (h : SameNumbers row row')
    (hrow : (row.map Prod.fst).Nodup) (hrow' : (row'.map Prod.fst).Nodup) (column : String) :
    number? (cell row column) = number? (cell row' column) := by
  apply Option.ext
  intro x
  rw [number?_cell_eq_some_iff hrow, number?_cell_eq_some_iff hrow']
  apply exists_congr
  intro v
  apply and_congr_left
  intro hx
  apply h
  rw [hx]
  exact Option.some_ne_none x

theorem SameNumbers.verdict {row row' : Row} (h : SameNumbers row row')
    (hrow : (row.map Prod.fst).Nodup) (hrow' : (row'.map Prod.fst).Nodup)
    (part : CompletionRule → AcceptedValues) (rules : List (String × CompletionRule))
    (table : String) : verdict part rules table row = verdict part rules table row' := by
  have hreadings : ∀ accepted, readings accepted row = readings accepted row' := by
    intro accepted
    unfold readings
    simp only [h.number?_cell hrow hrow']
  unfold Completion.verdict
  simp only [holds?, hreadings]

/-! ### The verdicts -/

/-- Both verdicts have three values, of which a failure is seen in a number only.  They do not
depend on the order of the columns nor on values without a number, and no shipped rule says both of
one row. -/
theorem verdicts_on_numbers (rules : List (String × CompletionRule)) (table : String) (row : Row) :
    Decides CompletionRule.completedWhen rules table row (isCompleted rules table row) ∧
      Decides CompletionRule.failedWhen rules table row (isFailed rules table row) ∧
      (∀ rules', Reordered rules rules' →
        isCompleted rules table row = isCompleted rules' table row ∧
          isFailed rules table row = isFailed rules' table row) ∧
      (∀ row', (row.map Prod.fst).Nodup → (row'.map Prod.fst).Nodup → SameNumbers row row' →
        isCompleted rules table row = isCompleted rules table row' ∧
          isFailed rules table row = isFailed rules table row') ∧
      ¬ (isCompleted Policy.shipped.completionRules table row = some true ∧
        isFailed Policy.shipped.completionRules table row = some true) := by
  refine ⟨decides_verdict _ _ _ _, decides_verdict _ _ _ _, ?_, ?_, ?_⟩
  · intro rules' h
    constructor
    · exact h.verdict (fun _ _ hcolumns => hcolumns.completedWhen) table row
    · exact h.verdict (fun _ _ hcolumns => hcolumns.failedWhen) table row
  · intro row' hrow hrow' h
    constructor
    · exact h.verdict hrow hrow' _ rules table
    · exact h.verdict hrow hrow' _ rules table
  · rintro ⟨hcompleted, hfailed⟩
    rw [isCompleted_of_isFailed hfailed] at hcompleted
    cases hcompleted

/-- The rule for checks with its columns in a given order. -/
def checkRules (completedWhen : AcceptedValues) : List (String × CompletionRule) :=
  [Policy.ruleFor "daily_check" "" completedWhen []]

theorem verdicts_on_numbers_dailyCheck :
    isCompleted (checkRules [("is_completed", [1]), ("status", [1])]) "Daily_Check"
        [("status", .int 0), ("is_completed", .text "?")] = some false ∧
      isCompleted (checkRules [("status", [1]), ("is_completed", [1])]) "Daily_Check"
        [("status", .int 0), ("is_completed", .text "?")] = some false ∧
      isCompleted (checkRules [("is_completed", [1]), ("status", [1])]) "Daily_Check"
        [("status", .int 0)] = some false := by
  have hverdict : isCompleted (checkRules [("is_completed", [1]), ("status", [1])]) "Daily_Check"
      [("status", .int 0), ("is_completed", .text "?")] = some false := by decide +kernel
  obtain ⟨_, _, hcolumns, hvalues, _⟩ :=
    verdicts_on_numbers (checkRules [("is_completed", [1]), ("status", [1])]) "Daily_Check"
      [("status", .int 0), ("is_completed", .text "?")]
  refine ⟨hverdict, ?_, ?_⟩
  · have hreordered : Reordered (checkRules [("is_completed", [1]), ("status", [1])])
        (checkRules [("status", [1]), ("is_completed", [1])]) :=
      .cons ⟨rfl, ⟨.swap _ _ [], .refl _⟩⟩ .nil
    rw [← (hcolumns _ hreordered).1]
    exact hverdict
  · have hsame : SameNumbers [("status", .int 0), ("is_completed", .text "?")]
        [("status", .int 0)] := by
      intro column v hv
      simp only [List.mem_cons, List.not_mem_nil, or_false, Prod.mk.injEq]
      constructor
      · rintro (h | ⟨_, rfl⟩)
        · exact h
        · exact absurd rfl hv
      · exact Or.inl
    rw [← (hvalues _ (by decide) (by decide) hsame).1]
    exact hverdict

end Completion
end QueryGate
