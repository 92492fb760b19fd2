import QueryGate.Policy.Document
import QueryGate.Policy.Shipped
import QueryGate.Proofs.Indexed.Scope
import QueryGate.Proofs.Indexed.Statement

/-!
# The checks answer

Whatever value the checks are given, no place, key or numeral is missing while they run, and no
rejection and no malformed statement is left without an answer.  One thing can go wrong: a guard
that turns down a number of rows writes its bound into the message, and a bound with more digits
than can be written ends the run there.
-/

namespace QueryGate
namespace Indexed

open Guard

variable {a : AllowList}

/-! ### Bounds and messages -/

theorem reported_of_hasText (h : HasText a.maxLimit) (checked : Except Rejection Unit) :
    reported a checked = ofCheck checked := by
  cases checked with
  | ok _ => rfl
  | error why =>
    cases why with
    | tooManyRows rows bound =>
      rw [reported, if_pos h]
      rfl
    | _ => rfl

theorem answered_ofCheck (sql : String) :
    answered (ofCheck (Guard.check a sql.toList)) = .ok (Verdict.ofText a sql) := by
  rw [Verdict.ofText]
  cases Guard.check a sql.toList <;> rfl

theorem check_eq_error_of_ofText {sql : String} {why : Rejection}
    (h : Verdict.ofText a sql = .rejected why) : Guard.check a sql.toList = .error why := by
  rw [Verdict.ofText] at h
  cases hchecked : Guard.check a sql.toList with
  | ok _ =>
    rw [hchecked] at h
    cases h
  | error e =>
    rw [hchecked] at h
    cases h
    rfl

/-- A bound that can be written, or that need not be, leaves the guard with an answer. -/
theorem validate_eq (v : Value)
    (h : HasText a.maxLimit ∨
      ∀ rows bound, Verdict.ofValue a v ≠ .rejected (.tooManyRows rows bound)) :
    validate a v = .ok (Verdict.ofValue a v) := by
  cases v with
  | text sql =>
    show answered (check a sql.toList) = .ok (Verdict.ofText a sql)
    rw [check_eq, ← answered_ofCheck]
    congr 1
    obtain hbound | hrows := h
    · exact reported_of_hasText hbound _
    · refine reported_of_countsNoRows a fun rows bound hchecked => hrows rows bound ?_
      show Verdict.ofText a sql = .rejected (.tooManyRows rows bound)
      rw [Verdict.ofText, hchecked]
  | _ => rfl

/-- A bound that has to be written and cannot leaves the guard without an answer. -/
theorem validate_eq_error {v : Value} {rows : Nat} {bound : Int}
    (hrows : Verdict.ofValue a v = .rejected (.tooManyRows rows bound))
    (hbound : ¬HasText a.maxLimit) : validate a v = .error .longNumber := by
  cases v with
  | text sql =>
    show answered (check a sql.toList) = .error .longNumber
    rw [check_eq, check_eq_error_of_ofText hrows, reported, if_neg hbound]
    rfl
  | _ => cases hrows

/-! ### Scope -/

theorem checkValues_eq {tenant : Value} (h : ∀ n, tenant = .int n → HasText n) (column : String)
    (v : Value) : checkValues column v tenant = .ok (Scope.checkValues column v tenant) := by
  cases tenant with
  | int n =>
    cases v with
    | text sql => exact checkScope_eq (h n rfl) sql.toList
    | _ => rfl
  | _ => cases v <;> rfl

/-! ### Every check -/

/-- The checks by place answer every value as the checks do.  The guard fails for a bound that has
to be written and cannot, and for nothing else; the list of tables never fails, and the scope check
does not as long as the tenant can be written. -/
theorem checks_answer (a : AllowList) :
    (∀ v, (HasText a.maxLimit ∨
        ∀ rows bound, Verdict.ofValue a v ≠ .rejected (.tooManyRows rows bound)) →
      validate a v = .ok (Verdict.ofValue a v)) ∧
    (∀ v rows bound, Verdict.ofValue a v = .rejected (.tooManyRows rows bound) →
      ¬HasText a.maxLimit → validate a v = .error .longNumber) ∧
    (∀ sql : String, tablesOf sql.toList = .ok (Guard.tablesOf sql.toList)) ∧
    (∀ v tenant, (∀ n, tenant = .int n → HasText n) →
      checkValues a.tenantColumn v tenant = .ok (Scope.checkValues a.tenantColumn v tenant)) := by
  refine ⟨validate_eq, ?_, fun sql => tablesOf_eq sql.toList, ?_⟩
  · intro v rows bound hrows hbound
    exact validate_eq_error hrows hbound
  · intro v tenant htenant
    exact checkValues_eq htenant a.tenantColumn v

/-- The shipped allow-list without its words and with a bound below every number of rows, which has
4301 digits. -/
def longBound : AllowList :=
  { Policy.shipped with maxLimit := -Nat.pow 10 4300, forbiddenKeywords := [] }

theorem checks_answer_at_bounds :
    HasText Policy.shipped.maxLimit ∧ HasText 74 ∧ ¬HasText longBound.maxLimit ∧
      validate Policy.shipped (.text "SELECT id FROM check LIMIT 1") = .ok .accepted ∧
      validate longBound (.text "SELECT id FROM check LIMIT 1") = .error .longNumber ∧
      tablesOf "SELECT id FROM check LIMIT 1".toList = .ok ["check"] ∧
      checkValues "restaurant_id" (.text "SELECT id FROM check WHERE restaurant_id = 74 LIMIT 1")
        (.int 74) = .ok (.ok ()) := by
  have hshipped : HasText Policy.shipped.maxLimit := by decide +kernel
  have htenant : HasText 74 := by decide +kernel
  have hlong : ¬HasText longBound.maxLimit := by decide +kernel
  have hint (n : Int) (h : Value.int 74 = .int n) : HasText n := by
    cases h
    exact htenant
  refine ⟨hshipped, htenant, hlong, ?_, ?_, ?_, ?_⟩
  · have hverdict : Verdict.ofValue Policy.shipped (.text "SELECT id FROM check LIMIT 1") =
        .accepted := by
      decide +kernel
    rw [← hverdict]
    exact (checks_answer Policy.shipped).1 _ (.inl hshipped)
  · have hverdict : Verdict.ofValue longBound (.text "SELECT id FROM check LIMIT 1") =
        .rejected (.tooManyRows 1 longBound.maxLimit) := by
      decide +kernel
    exact (checks_answer longBound).2.1 _ _ _ hverdict hlong
  · rw [(checks_answer Policy.shipped).2.2.1]
    decide +kernel
  · have hscope : Scope.checkValues "restaurant_id"
        (.text "SELECT id FROM check WHERE restaurant_id = 74 LIMIT 1") (.int 74) = .ok () := by
      decide +kernel
    rw [← hscope]
    exact (checks_answer Policy.shipped).2.2.2 _ _ hint

/-- A document whose bound is a decimal; the whole number that it stands for has 4301 digits. -/
def longBoundDocument : Value :=
  .map [
    (.text "tables", .map [(.text "t", .list [.text "id"])]),
    (.text "tenant_column", .text "x"),
    (.text "max_limit", .decimal (.finite true 1 4300))]

/-- The document describes an allow-list, but with it the guard neither accepts nor rejects a text
that asks for too many rows. -/
theorem validate_without_answer :
    ∃ a, Policy.ofDocument longBoundDocument = .ok a ∧
      ∀ verdict, validate a (.text "SELECT id FROM t LIMIT 1") ≠ .ok verdict := by
  have hrows : (match Policy.ofDocument longBoundDocument with
    | .ok a => decide (¬HasText a.maxLimit ∧
        Verdict.ofValue a (.text "SELECT id FROM t LIMIT 1") =
          .rejected (.tooManyRows 1 a.maxLimit))
    | .error _ => false) = true := by decide +kernel
  split at hrows
  · rename_i a ha
    obtain ⟨hbound, hverdict⟩ := of_decide_eq_true hrows
    refine ⟨a, ha, fun verdict h => ?_⟩
    rw [validate_eq_error hverdict hbound] at h
    cases h
  · cases hrows

end Indexed
end QueryGate
