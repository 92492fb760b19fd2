import QueryGate.Indexed.Tenant
import QueryGate.Proofs.Indexed.Limit
import QueryGate.Proofs.Question.StatedTenant
import QueryGate.Proofs.Text.WordCase
import QueryGate.Settings

/-!
# Where a tenant comes from

The id in a question is a whole run of its digits, never a part of one.  It comes before the id that
the caller sends, and both come before the fallback; a request is refused just when there is none of
the three.  No environment sets a fallback whose use could not be written down.
-/

namespace QueryGate
namespace Question

open Text

/-! ### The id of a question -/

/-- A run of digits that a question states an id with: neither a digit of any script in front of it
nor a word character behind it. -/
structure StatesId (question ds : List Char) : Prop where
  ne_nil : ds ≠ []
  digits : ∀ c ∈ ds, isAsciiDigit c = true
  length_le : ds.length ≤ 18
  stands : ∃ front back, question = front ++ (ds ++ back) ∧
    (∀ c ∈ front.getLast?, digitValue? c = none) ∧ isWordChar? back.head? = false

theorem TakenId.digitValue?_eq_none {q x ds y : List Char} (h : TakenId q x ds y) :
    ∀ c ∈ x.getLast?, digitValue? c = none := by
  have hnone : (spellingLetters ++ [':', '=', '#', 'd']).all (fun e => (digitValue? e).isNone) := by
    decide
  intro c hc
  rcases h.last_cases c hc with hblank | hmem
  · exact forall_isBlank (p := fun c => digitValue? c = none) (by decide +kernel) hblank
  · exact Option.isNone_iff_eq_none.mp (List.all_eq_true.mp hnone c hmem)

theorem exists_statesId {question : List Char} {n : Nat} (h : tenant? question = some n) :
    ∃ ds, StatesId question ds ∧ digitsValue ds = n := by
  obtain ⟨x, ds, y, htaken, hn⟩ := exists_takenId h
  have hid := htaken.isId
  have hfront := htaken.digitValue?_eq_none
  have hback := hid.ends
  obtain ⟨front, back, rfl, rfl, rfl⟩ := exists_run_of_lower
    (fun c hc => caseless_of_isDateChar (isDateChar_of_digit (hid.digits c hc))) hid.ne_nil
    htaken.split
  refine ⟨ds, ⟨hid.ne_nil, hid.digits, hid.length_le, front, back, rfl, fun c hc => ?_, ?_⟩, hn⟩
  · rw [Option.eq_none_iff_forall_ne_some]
    intro d hd
    rw [hfront c (getLast?_lower_of_digitValue? hc hd)] at hd
    cases hd
  · rw [Bool.eq_false_iff]
    intro hword
    rw [isWordChar?_head?_lower hword] at hback
    cases hback

/-! ### The id of a caller -/

/-- The values that send an id: a whole number, and a text that is one to eighteen digits but for the
blanks around them. -/
inductive Sends : Value → Nat → Prop where
  | number (n : Nat) : Sends (.int n) n
  | text {s : String} (ne_nil : trim s.toList ≠ [])
      (digits : ∀ c ∈ trim s.toList, isAsciiDigit c = true)
      (length_le : (trim s.toList).length ≤ 18) : Sends (.text s) (digitsValue (trim s.toList))

theorem callerTenant?_eq_some_iff {caller : Value} {n : Nat} :
    callerTenant? caller = some n ↔ Sends caller n := by
  constructor
  · intro h
    unfold callerTenant? at h
    split at h
    · rename_i i
      obtain ⟨hpos, rfl⟩ := Option.ite_some_none_eq_some.mp h
      have hnumber := Sends.number i.toNat
      rwa [Int.toNat_of_nonneg hpos] at hnumber
    · rename_i s
      obtain ⟨hgood, rfl⟩ := Option.ite_some_none_eq_some.mp h
      simp only [isDigits, Bool.and_eq_true, Bool.not_eq_true', List.isEmpty_eq_false_iff,
        List.all_eq_true, decide_eq_true_eq] at hgood
      exact .text hgood.1.1 hgood.1.2 hgood.2
    · cases h
  · rintro (_ | ⟨hne, hdigits, hlength⟩)
    · rw [callerTenant?, if_pos (Int.natCast_nonneg n), Int.toNat_natCast]
    · rename_i s
      have hgood : (isDigits (trim s.toList) && decide ((trim s.toList).length ≤ 18)) = true := by
        simp only [isDigits, Bool.and_eq_true, Bool.not_eq_true', List.isEmpty_eq_false_iff,
          List.all_eq_true, decide_eq_true_eq]
        exact ⟨⟨hne, hdigits⟩, hlength⟩
      exact if_pos hgood

theorem callerTenant?_eq_none_iff {caller : Value} :
    callerTenant? caller = none ↔ ∀ n, ¬Sends caller n := by
  rw [Option.eq_none_iff_forall_ne_some]
  exact forall_congr' fun n => not_congr callerTenant?_eq_some_iff

/-! ### The fallback -/

open Indexed (HasText)

theorem hasText_of_wholeOfDigits {negative : Bool} {cs : List Char} {n : Int}
    (h : Lenient.wholeOfDigits negative cs = .ok n) : HasText n := by
  have hdigits : ∀ c ∈ cs.takeWhile isAsciiDigit, isAsciiDigit c = true :=
    List.all_eq_true.mp List.all_takeWhile
  unfold Lenient.wholeOfDigits at h
  dsimp only at h
  generalize (if negative = true then 1 else 0) = sign at h
  split at h
  · cases h
    decide +kernel
  split at h
  · cases h
  split at h
  · cases h
  rename_i hlong
  split at h
  · cases h
  rename_i hall
  have hwhole : cs.takeWhile isAsciiDigit = cs :=
    (List.takeWhile_prefix isAsciiDigit).eq_of_length_le (Nat.not_lt.mp hall)
  rw [hwhole] at hlong hdigits
  have hle : cs.length ≤ Whole.maxDigits := by
    simp only [Lenient.maxLength] at hlong
    simp only [Whole.maxDigits]
    omega
  have hvalue : HasText (digitsValue cs) := Indexed.hasText_of_lt (digitsValue_lt hdigits) hle
  rw [hwhole] at h
  cases negative with
  | false =>
    cases h
    exact hvalue
  | true =>
    cases h
    unfold HasText at hvalue ⊢
    simpa using hvalue

theorem fieldOf_cases {α : Type} (environment : List (String × String)) (field : String)
    (read : String → Except Settings.FieldKind α) (unset : α) :
    (Settings.fieldOf environment field read unset).1 = unset ∨
      ∃ text, read text = .ok (Settings.fieldOf environment field read unset).1 := by
  unfold Settings.fieldOf
  split
  · exact Or.inl rfl
  · rename_i text _
    split
    · rename_i v hv
      exact Or.inr ⟨text, hv⟩
    · exact Or.inl rfl

/-- The fallback that an environment sets can be written down. -/
theorem hasText_defaultTenantId {environment : List (String × String)} {settings : Settings}
    (h : Settings.ofEnvironment environment = .ok settings) :
    ∀ n ∈ settings.defaultTenantId, HasText n := by
  intro n hn
  have hfield : settings.defaultTenantId = (Settings.fieldOf environment "default_tenant_id"
      (fun t => (Settings.whole t).map some) Settings.default.defaultTenantId).1 := by
    unfold Settings.ofEnvironment at h
    dsimp only at h
    split at h
    · cases h
      rfl
    · cases h
  rw [hfield] at hn
  rcases fieldOf_cases environment "default_tenant_id" (fun t => (Settings.whole t).map some)
    Settings.default.defaultTenantId with hunset | ⟨text, hread⟩
  · rw [hunset] at hn
    cases hn
  · rw [hn] at hread
    cases hwhole : Lenient.whole text with
    | error fault =>
      rw [Settings.whole, hwhole] at hread
      cases hread
    | ok m =>
      rw [Settings.whole, hwhole] at hread
      cases hread
      unfold Lenient.whole at hwhole
      dsimp only at hwhole
      split at hwhole
      · cases hwhole
      · exact hasText_of_wholeOfDigits hwhole

theorem resolveTenant_eq {fallback : Option Int} (h : ∀ n ∈ fallback, HasText n)
    (question : List Char) (caller : Value) :
    Indexed.resolveTenant question caller fallback =
      .ok (resolveTenant? question caller fallback) := by
  unfold Indexed.resolveTenant resolveTenant?
  cases tenant? question with
  | some n => rfl
  | none =>
    cases callerTenant? caller with
    | some n => rfl
    | none =>
      cases fallback with
      | none => rfl
      | some n =>
        simp only [Indexed.decimalText, if_pos (h n rfl)]
        rfl

/-! ### The three sources -/

/-- The tenant of a request.  An id in the question comes first, whatever else there is, and it is the
number of a whole run of digits of the question.  Otherwise the caller's id counts, exactly if the
caller sends one, and otherwise the fallback; there is no tenant just when there is none of the three.
Under the settings of any environment the tenant is found without a fault. -/
theorem tenant_of_request (question : List Char) (caller : Value) (fallback : Option Int) :
    (∀ n, tenant? question = some n →
      (∃ ds, StatesId question ds ∧ digitsValue ds = n) ∧
        resolveTenant? question caller fallback = some ⟨n, .question⟩) ∧
    (tenant? question = none →
      (∀ id, resolveTenant? question caller fallback = some ⟨id, .caller⟩ ↔
        ∃ n, Sends caller n ∧ id = n) ∧
      ((∀ n, ¬Sends caller n) →
        resolveTenant? question caller fallback = fallback.map fun id => ⟨id, .fallback⟩)) ∧
    (resolveTenant? question caller fallback = none ↔
      tenant? question = none ∧ (∀ n, ¬Sends caller n) ∧ fallback = none) ∧
    ∀ environment settings, Settings.ofEnvironment environment = .ok settings →
      Indexed.resolveTenant question caller settings.defaultTenantId =
        .ok (resolveTenant? question caller settings.defaultTenantId) := by
  refine ⟨fun n hn => ⟨exists_statesId hn, by rw [resolveTenant?, hn]⟩, fun hnone => ⟨?_, ?_⟩, ?_,
    fun environment settings h => resolveTenant_eq (hasText_defaultTenantId h) question caller⟩
  · intro id
    rw [resolveTenant?, hnone]
    dsimp only
    cases hcaller : callerTenant? caller with
    | some n =>
      simp only [Option.some.injEq, Tenant.mk.injEq, and_true]
      constructor
      · rintro rfl
        exact ⟨n, callerTenant?_eq_some_iff.mp hcaller, rfl⟩
      · rintro ⟨m, hm, rfl⟩
        rw [callerTenant?_eq_some_iff.mpr hm, Option.some_inj] at hcaller
        rw [hcaller]
    | none =>
      refine iff_of_false (by cases fallback <;> simp) ?_
      rintro ⟨n, hn, _⟩
      exact callerTenant?_eq_none_iff.mp hcaller n hn
  · intro hcaller
    rw [resolveTenant?, hnone, callerTenant?_eq_none_iff.mpr hcaller]
  · rw [← callerTenant?_eq_none_iff, resolveTenant?]
    cases tenant? question with
    | some n => simp
    | none => cases callerTenant? caller <;> simp

/-- A misspelled word, an id with a zero in front, and a caller who sends another id. -/
theorem tenant_of_misspelled_request :
    (∃ ds, StatesId "Which checks failed on day 12 at Restuarant_ID=074?".toList ds ∧
      digitsValue ds = 74) ∧
    resolveTenant? "Which checks failed on day 12 at Restuarant_ID=074?".toList (.text " 61 ")
      (some 5) = some ⟨74, .question⟩ :=
  (tenant_of_request "Which checks failed on day 12 at Restuarant_ID=074?".toList (.text " 61 ")
    (some 5)).1 74 (by decide +kernel)

end Question
end QueryGate
