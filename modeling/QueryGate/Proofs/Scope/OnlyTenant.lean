import QueryGate.Policy.Shipped
import QueryGate.Proofs.Scope.Conjunction
import QueryGate.Proofs.Scope.Uses

/-!
# The only tenant of a statement

A pinned block compares the tenant column with the number of the tenant, and a check for another
tenant meets the same number at the same place.  So a statement is scoped to at most one tenant, and
to none below zero because digits write the number.
-/

namespace QueryGate
namespace Scope

open Sql

variable {column : String} {tenant other : Int}

/-- The numbers that a pinned part compares the tenant column with are the tenant.  If the whole
statement passes for another tenant, they are that one as well. -/
theorem tenant_of_pins {owners : List String} {p ts : List Token} (hp : p <:+: ts)
    (hpins : pins column tenant owners p = true) (huses : usesPinned column other [] ts = true) :
    tenant = other := by
  obtain ⟨test, htest, hname, howner, hne, htenant⟩ := columnTest?_of_pins hpins
  have hothers : pins column other owners p = true := by
    apply pins_of_columnTest? huses hp htest hname
    intro name hqualifier
    obtain ⟨q, hq, rfl⟩ := Option.map_eq_some_iff.mp hqualifier
    exact howner q hq
  obtain ⟨test', htest', _, _, _, hother⟩ := columnTest?_of_pins hothers
  rw [htest] at htest'
  cases htest'
  obtain ⟨n, hn⟩ := List.exists_mem_of_ne_nil _ hne
  exact (htenant n hn).symm.trans (hother n hn)

theorem nonneg_of_pins {owners : List String} {p : List Token}
    (hpins : pins column tenant owners p = true) : 0 ≤ tenant := by
  obtain ⟨test, _, _, _, hne, htenant⟩ := columnTest?_of_pins hpins
  obtain ⟨n, hn⟩ := List.exists_mem_of_ne_nil _ hne
  rw [← htenant n hn]
  exact Int.natCast_nonneg n

/-! ### The conjuncts of a condition -/

theorem conjunctsFrom_isInfix {depth : Int} {between : Bool} {ts : List Token}
    {parts : List (List Token)} (h : conjunctsFrom depth between ts = some parts) :
    ∃ first more, parts = first :: more ∧ first <+: ts ∧ ∀ p ∈ more, p <:+: ts := by
  induction ts generalizing depth between parts with
  | nil =>
    cases h
    exact ⟨[], [], rfl, List.prefix_rfl, nofun⟩
  | cons t r ih =>
    have hwithin {p : List Token} (hp : p <:+: r) : p <:+: t :: r :=
      hp.trans (List.suffix_cons t r).isInfix
    obtain ⟨_, _, inner, hinner, rfl | rfl⟩ := conjunctsFrom_cons_eq_some h
    · obtain ⟨first, more, rfl, hfirst, hmore⟩ := ih hinner
      exact ⟨t :: first, more, rfl, (List.prefix_cons_inj t).mpr hfirst,
        fun p hp => hwithin (hmore p hp)⟩
    · obtain ⟨first, more, rfl, hfirst, hmore⟩ := ih hinner
      refine ⟨[], first :: more, rfl, List.nil_prefix, ?_⟩
      intro p hp
      rcases List.mem_cons.mp hp with rfl | hp
      · exact hwithin hfirst.isInfix
      · exact hwithin (hmore p hp)

theorem isInfix_of_conjuncts {ts : List Token} {parts : List (List Token)}
    (h : conjuncts ts = some parts) {p : List Token} (hp : p ∈ parts) : p <:+: ts := by
  obtain ⟨first, more, rfl, hfirst, hmore⟩ := conjunctsFrom_isInfix h
  rcases List.mem_cons.mp hp with rfl | hp
  · exact hfirst.isInfix
  · exact hmore p hp

theorem exists_pins_of_checkBlock {sections : List Section}
    (h : checkBlock column tenant sections = .ok ()) :
    ∃ p, p <:+: body .where_ sections ∧
      pins column tenant (firstNames (body .from_ sections)) p = true := by
  obtain ⟨parts, hparts, p, hp, hpins⟩ := checkBlock_eq_ok h
  exact ⟨p, isInfix_of_conjuncts hparts hp, hpins⟩

/-! ### The statement as a whole -/

theorem exists_block {sql : List Char} {ts : List Token} {blocks : List (List Section)}
    (h : blocksOf sql = .ok (ts, blocks)) : ∃ sections, sections ∈ blocks := by
  obtain ⟨parts, _, hparts, hclauses⟩ := blocksOf_eq_ok_iff.mp h
  obtain ⟨first, more, heq, _⟩ := blocksFrom_isInfix false 0 ts
  rw [blocksFrom_of_splitUnion hparts] at heq
  obtain ⟨sections, hsections, _⟩ := (mem_of_mapM hclauses).1 first (by rw [heq]; simp)
  exact ⟨sections, hsections⟩

/-- A statement that is scoped to a tenant has a conjunct that is pinned to it. -/
theorem exists_pins_of_holds {sql : List Char} (h : holds column tenant sql = true) :
    ∃ ts blocks owners p, blocksOf sql = .ok (ts, blocks) ∧ p <:+: ts ∧
      pins column tenant owners p = true := by
  obtain ⟨ts, blocks, hblocks, _, hchecks⟩ := checkBlock_of_holds h
  obtain ⟨sections, hsections⟩ := exists_block hblocks
  obtain ⟨p, hp, hpins⟩ := exists_pins_of_checkBlock (hchecks sections hsections)
  exact ⟨ts, blocks, _, p, hblocks, hp.trans (clause_isInfix hblocks hsections), hpins⟩

/-- A statement is scoped to at most one tenant, and to none below zero. -/
theorem scoped_to_one_tenant (a : AllowList) (sql : List Char) (tenant other : Int) :
    (holds a.tenantColumn tenant sql = true → holds a.tenantColumn other sql = true →
      tenant = other) ∧
    (tenant < 0 → holds a.tenantColumn tenant sql = false) := by
  constructor
  · intro htenant hother
    obtain ⟨ts, blocks, owners, p, hblocks, hp, hpins⟩ := exists_pins_of_holds htenant
    obtain ⟨us, _, hblocks', huses, _⟩ := checkBlock_of_holds hother
    rw [hblocks] at hblocks'
    cases hblocks'
    exact tenant_of_pins hp hpins huses
  · intro hnegative
    rw [← Bool.not_eq_true]
    intro htenant
    obtain ⟨_, _, _, _, _, _, hpins⟩ := exists_pins_of_holds htenant
    have := nonneg_of_pins hpins
    omega

/-- A statement that names its restaurant in both ways, by a number and by a list with a text. -/
def listedTenantText : List Char :=
  "SELECT id FROM daily_check WHERE restaurant_id IN (74, '074') ".toList
    ++ "UNION SELECT id FROM check c WHERE c.restaurant_id = 74 LIMIT 5".toList

theorem scoped_to_restaurant_74 :
    holds Policy.shipped.tenantColumn 74 listedTenantText = true ∧
      holds Policy.shipped.tenantColumn 75 listedTenantText = false ∧
      holds Policy.shipped.tenantColumn (-74) listedTenantText = false := by
  have hscoped : holds Policy.shipped.tenantColumn 74 listedTenantText = true := by decide +kernel
  refine ⟨hscoped, ?_, ?_⟩
  · rw [← Bool.not_eq_true]
    intro hother
    have := (scoped_to_one_tenant Policy.shipped listedTenantText 74 75).1 hscoped hother
    omega
  · exact (scoped_to_one_tenant Policy.shipped listedTenantText (-74) 0).2 (by omega)

end Scope
end QueryGate
