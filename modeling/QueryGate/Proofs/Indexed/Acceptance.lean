import QueryGate.Proofs.Indexed.Scope

/-!
# Tenants of accepted statements

A statement that the check by place accepts has been compared with the text of the tenant, in every
one of its blocks.  So nothing is accepted for a tenant without a text, and for any other tenant the
check by place accepts what the check of values accepts.
-/

namespace QueryGate
namespace Indexed

open Sql

variable {column : String} {tenant : Int}

/-! ### Answers that take the text of the tenant -/

theorem guarded_eq_ok_true {condition : Bool} {test : Run Bool}
    (h : guarded condition test = .ok true) : test = .ok true := by
  cases condition with
  | true => exact h
  | false => cases h

theorem hasText_of_decimalText {text : String} (h : decimalText tenant = .ok text) :
    HasText tenant := by
  by_contra hno
  rw [decimalText, if_neg hno] at h
  cases h

theorem hasText_of_isTenant {t : Token} (h : isTenant tenant t = .ok true) : HasText tenant := by
  rw [isTenant] at h
  cases hdigits : Scope.digitsOf? t with
  | none =>
    rw [hdigits] at h
    cases h
  | some digits =>
    rw [hdigits] at h
    obtain ⟨text, htext, _⟩ := bind_eq_ok.mp (guarded_eq_ok_true h)
    exact hasText_of_decimalText htext

section Places

variable {ts : List Token} {place stop : Nat}

theorem hasText_of_tenantAt (h : tenantAt tenant ts place = .ok true) : HasText tenant := by
  obtain ⟨t, _, ht⟩ := bind_eq_ok.mp h
  exact hasText_of_isTenant ht

theorem hasText_of_tenantListFrom (h : tenantListFrom tenant ts place true = .ok (some stop)) :
    HasText tenant := by
  rw [tenantListFrom] at h
  split at h
  · obtain ⟨t, _, h⟩ := bind_eq_ok.mp h
    rw [if_pos rfl] at h
    obtain ⟨literal, hliteral, h⟩ := bind_eq_ok.mp h
    cases literal with
    | true => exact hasText_of_isTenant hliteral
    | false => cases h
  · cases h

theorem hasText_of_tenantsAt (h : tenantsAt tenant ts place = .ok (some stop)) :
    HasText tenant := by
  obtain ⟨opens, _, h⟩ := bind_eq_ok.mp h
  cases opens with
  | true => exact hasText_of_tenantListFrom h
  | false => cases h

theorem hasText_of_bindsTenant (h : bindsTenant tenant ts = .ok true) : HasText tenant := by
  obtain ⟨equals, _, h⟩ := bind_eq_ok.mp h
  cases equals with
  | true => exact hasText_of_tenantAt h
  | false =>
    obtain ⟨lists, _, h⟩ := bind_eq_ok.mp h
    obtain ⟨stop, hstop, h⟩ := bind_eq_ok.mp (guarded_eq_ok_true h)
    rw [beq_iff_eq.mp (Except.ok.inj h)] at hstop
    exact hasText_of_tenantsAt hstop

theorem hasText_of_pinsAt (h : pinsAt column tenant ts place = .ok true) : HasText tenant := by
  obtain ⟨there, _, h⟩ := bind_eq_ok.mp h
  exact hasText_of_bindsTenant (guarded_eq_ok_true h)

end Places

/-! ### Blocks -/

theorem hasText_of_pins {owners : List String} {part : List Token}
    (h : pins column tenant owners part = .ok true) : HasText tenant := by
  obtain ⟨qualified, _, h⟩ := bind_eq_ok.mp h
  cases qualified with
  | true =>
    obtain ⟨owned, _, h⟩ := bind_eq_ok.mp h
    exact hasText_of_pinsAt (guarded_eq_ok_true h)
  | false => exact hasText_of_pinsAt h

theorem hasText_of_anyPins {owners : List String} {parts : List (List Token)}
    (h : anyPins column tenant owners parts = .ok true) : HasText tenant := by
  induction parts with
  | nil => cases h
  | cons part parts ih =>
    obtain ⟨pinned, hpinned, h⟩ := bind_eq_ok.mp h
    cases pinned with
    | true => exact hasText_of_pins hpinned
    | false => exact ih h

theorem hasText_of_checkBlock {sections : List Section}
    (h : checkBlock column tenant sections = .ok (.ok ())) : HasText tenant := by
  rw [checkBlock] at h
  split at h
  · obtain ⟨parts, _, h⟩ := bind_eq_ok.mp h
    cases parts with
    | none => cases h
    | some parts =>
      obtain ⟨owners, _, h⟩ := bind_eq_ok.mp h
      obtain ⟨pinned, hpinned, h⟩ := bind_eq_ok.mp h
      cases pinned with
      | true => exact hasText_of_anyPins hpinned
      | false => cases h
  · cases h

theorem hasText_of_checkBlocks {blocks : List (List Section)} (hne : blocks ≠ [])
    (h : checkBlocks column tenant blocks = .ok (.ok ())) : HasText tenant := by
  cases blocks with
  | nil => exact absurd rfl hne
  | cons sections more =>
    obtain ⟨checked, hchecked, h⟩ := bind_eq_ok.mp h
    cases checked with
    | error fault => cases h
    | ok _ => exact hasText_of_checkBlock hchecked

/-! ### Statements -/

theorem blocks_ne_nil_of_readStatement {sql : List Char} {ts : List Token}
    {blocks : List (List Section)} (h : readStatement sql = .ok (.ok (ts, blocks))) :
    blocks ≠ [] := by
  rw [readStatement_eq] at h
  obtain ⟨_, _, h⟩ := bind_eq_ok.mp (Except.ok.inj h)
  obtain ⟨raws, hraws, h⟩ := bind_eq_ok.mp h
  obtain ⟨read, hread, h⟩ := bind_eq_ok.mp h
  cases h
  obtain ⟨raw, hraw⟩ := List.exists_mem_of_ne_nil raws (ne_nil_of_splitUnion hraws).1
  obtain ⟨sections, hsections, _⟩ := (mem_of_mapM hread).1 raw hraw
  exact List.ne_nil_of_mem hsections

/-- No statement is accepted for a tenant without a text. -/
theorem hasText_of_checkScope {sql : List Char}
    (h : checkScope column tenant sql = .ok (.ok ())) : HasText tenant := by
  rw [checkScope] at h
  split at h
  · cases h
  · obtain ⟨read, hread, h⟩ := bind_eq_ok.mp h
    cases read with
    | error fault => cases h
    | ok read =>
      obtain ⟨ts, blocks⟩ := read
      obtain ⟨pinned, _, h⟩ := bind_eq_ok.mp h
      cases pinned with
      | true => exact hasText_of_checkBlocks (blocks_ne_nil_of_readStatement hread) h
      | false => cases h

/-- By place a statement is accepted just when the tenant has a text and the statement is scoped to
it. -/
theorem checkScope_eq_ok_iff {sql : List Char} :
    checkScope column tenant sql = .ok (.ok ()) ↔
      HasText tenant ∧ Scope.holds column tenant sql = true := by
  rw [Scope.holds_iff]
  constructor
  · intro h
    have htext := hasText_of_checkScope h
    rw [checkScope_eq htext] at h
    exact ⟨htext, Except.ok.inj h⟩
  · rintro ⟨htext, h⟩
    rw [checkScope_eq htext, h]

end Indexed
end QueryGate
