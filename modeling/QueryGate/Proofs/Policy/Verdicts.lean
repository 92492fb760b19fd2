import QueryGate.Policy.Completion
import QueryGate.Policy.Shipped
import QueryGate.Proofs.Number.Rounding

/-!
# Verdicts on rows

When the rule of a table says that the job of a row was completed, and when that it failed.  No
shipped rule says both of one row.
-/

namespace QueryGate

namespace Completion

/-! ### Verdicts on whole numbers -/

theorem holds?_eq_some_true {accepted : AcceptedValues} {row : Row} :
    holds? accepted row = some true ↔
      ∃ a ∈ accepted, ∃ x, number? (cell row a.1) = some x ∧ a.2.any x.equalsInt = true := by
  have hfound : ((readings accepted row).any fun p => p.2.any p.1.equalsInt) = true ↔
      ∃ a ∈ accepted, ∃ x, number? (cell row a.1) = some x ∧ a.2.any x.equalsInt = true := by
    simp only [readings, List.any_eq_true, List.mem_filterMap, Option.map_eq_some_iff]
    constructor
    · rintro ⟨_, ⟨a, ha, x, hx, rfl⟩, hany⟩
      exact ⟨a, ha, x, hx, hany⟩
    · rintro ⟨a, ha, x, hx, hany⟩
      exact ⟨_, ⟨a, ha, x, hx, rfl⟩, hany⟩
  rw [← hfound]
  simp only [holds?]
  split
  · rename_i h
    simp [h]
  · rename_i h
    split <;> simp [h]

/-- A whole number counts when it is one of the accepted ones, however large it is. -/
theorem number?_int_iff {n k : Int} (hk : k = 0 ∨ k = 1) :
    (∃ x, number? (.int n) = some x ∧ x.equalsInt k = true) ↔ n = k := by
  rw [← Binary64.equalsInt_ofInt_iff hk]
  simp only [number?, finite?]
  constructor
  · rintro ⟨x, hx, hequal⟩
    split at hx
    · cases hx
      exact hequal
    · cases hx
  · intro hequal
    refine ⟨_, ?_, hequal⟩
    rw [if_pos (Binary64.equalsInt_iff.mp hequal).1]

/-! ### Completed and failed -/

theorem exists_rule_of_verdict {part : CompletionRule → AcceptedValues}
    {rules : List (String × CompletionRule)} {table : String} {row : Row} {b : Bool}
    (h : verdict part rules table row = some b) :
    ∃ rule, ruleFor rules table = some rule ∧ holds? (part rule) row = some b := by
  unfold verdict at h
  split at h
  · cases h
  · rename_i rule hrule
    split at h
    · cases h
    · exact ⟨rule, hrule, h⟩

theorem mem_of_ruleFor {rules : List (String × CompletionRule)} {table : String}
    {rule : CompletionRule} (h : ruleFor rules table = some rule) : rule ∈ rules.map Prod.snd := by
  unfold ruleFor at h
  split at h
  · cases h
  · obtain ⟨before, after, hrules, _⟩ := List.lookup_eq_some_iff.mp h
    simp [hrules]

theorem holds?_eq_none {accepted : AcceptedValues} {row : Row} :
    holds? accepted row = none ↔ ∀ a ∈ accepted, number? (cell row a.1) = none := by
  have hfound : readings accepted row = [] ↔ ∀ a ∈ accepted, number? (cell row a.1) = none := by
    simp [readings, List.filterMap_eq_nil_iff]
  rw [← hfound]
  simp only [holds?]
  split
  · rename_i hany
    simp only [reduceCtorEq, false_iff]
    intro hnil
    simp [hnil] at hany
  · split
    · rename_i hempty
      exact ⟨fun _ => List.isEmpty_iff.mp hempty, fun _ => rfl⟩
    · rename_i hempty
      exact ⟨nofun, fun hnil => absurd (List.isEmpty_iff.mpr hnil) hempty⟩

/-- Failures are seen in the columns that completion is seen in, and in other values. -/
def IsApart (rule : CompletionRule) : Prop :=
  rule.completedWhen ≠ [] ∧ ∀ failed ∈ rule.failedWhen, ∀ completed ∈ rule.completedWhen,
    completed.1 = failed.1 ∧ ∀ n ∈ completed.2, n ∉ failed.2

instance (rule : CompletionRule) : Decidable (IsApart rule) :=
  inferInstanceAs (Decidable (_ ∧ _))

theorem isApart_shipped : ∀ rule ∈ Policy.shippedRules.map Prod.snd, IsApart rule := by
  decide

/-- The column in which a failure is seen has a number, but none that stands for completion. -/
theorem IsApart.holds?_completedWhen {rule : CompletionRule} (h : IsApart rule) {row : Row}
    (hfailed : holds? rule.failedWhen row = some true) :
    holds? rule.completedWhen row = some false := by
  obtain ⟨hne, hapart⟩ := h
  obtain ⟨failed, hmem, x, hx, hany⟩ := holds?_eq_some_true.mp hfailed
  obtain ⟨k, hk, hfails⟩ := List.any_eq_true.mp hany
  cases hverdict : holds? rule.completedWhen row with
  | none =>
    obtain ⟨completed, hcompleted⟩ := List.exists_mem_of_ne_nil _ hne
    have hnone := holds?_eq_none.mp hverdict completed hcompleted
    rw [(hapart failed hmem completed hcompleted).1, hx] at hnone
    cases hnone
  | some b =>
    cases b with
    | false => rfl
    | true =>
      obtain ⟨completed, hcompleted, y, hy, hany'⟩ := holds?_eq_some_true.mp hverdict
      obtain ⟨hcolumn, hvalues⟩ := hapart failed hmem completed hcompleted
      rw [hcolumn, hx, Option.some.injEq] at hy
      subst hy
      obtain ⟨n, hn, hcompletes⟩ := List.any_eq_true.mp hany'
      exact absurd (Binary64.equalsInt_unique hcompletes hfails ▸ hk) (hvalues n hn)

theorem verdict_eq_holds? {part : CompletionRule → AcceptedValues}
    {rules : List (String × CompletionRule)} {table : String} {row : Row} {rule : CompletionRule}
    (hrule : ruleFor rules table = some rule) (hpart : part rule ≠ []) :
    verdict part rules table row = holds? (part rule) row := by
  simp [verdict, hrule, hpart]

/-- No shipped rule says of a row that its job was completed and that it failed, nor that it failed
when nothing is known of its completion. -/
theorem isCompleted_of_isFailed {table : String} {row : Row}
    (h : isFailed Policy.shipped.completionRules table row = some true) :
    isCompleted Policy.shipped.completionRules table row = some false := by
  obtain ⟨rule, hrule, hfailed⟩ := exists_rule_of_verdict h
  have hapart := isApart_shipped rule (mem_of_ruleFor hrule)
  rw [isCompleted, verdict_eq_holds? hrule hapart.1]
  exact hapart.holds?_completedWhen hfailed

end Completion
end QueryGate
