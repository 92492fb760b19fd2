import QueryGate.Proofs.Guard.SameBlocks

/-!
# The uses of the tenant column

Wherever a statement that passes tests the tenant column, it tests for the tenant.  So a part of a
condition that is a test of the tenant column pins it.
-/

namespace QueryGate

namespace Sql

/-! ### Parts of a statement -/

theorem blocksFrom_isInfix (afterUnion : Bool) (depth : Int) (ts : List Token) :
    ∃ first more, blocksFrom afterUnion depth ts = first :: more ∧
      (afterUnion = false → first <+: ts) ∧ first <:+: ts ∧ ∀ b ∈ more, b <:+: ts := by
  induction ts generalizing afterUnion depth with
  | nil => exact ⟨[], [], rfl, fun _ => List.prefix_rfl, List.infix_rfl, List.forall_mem_nil _⟩
  | cons t r ih =>
    rw [blocksFrom]
    split
    · rename_i hafter
      obtain ⟨first, more, heq, _, hfirst, hmore⟩ := ih false (depthAfter depth t)
      refine ⟨first, more, heq, ?_, hfirst.trans (List.suffix_cons t r).isInfix,
        fun b hb => (hmore b hb).trans (List.suffix_cons t r).isInfix⟩
      rintro rfl
      cases hafter
    split
    · obtain ⟨first, more, heq, _, hfirst, hmore⟩ := ih true (depthAfter depth t)
      refine ⟨[], first :: more, by rw [heq], fun _ => List.nil_prefix, List.nil_infix, ?_⟩
      intro b hb
      rcases List.mem_cons.mp hb with rfl | hb
      · exact hfirst.trans (List.suffix_cons t r).isInfix
      · exact (hmore b hb).trans (List.suffix_cons t r).isInfix
    · obtain ⟨first, more, heq, hfront, _, hmore⟩ := ih false (depthAfter depth t)
      have hfirst : t :: first <+: t :: r := List.prefix_cons_inj t |>.mpr (hfront rfl)
      exact ⟨t :: first, more, by rw [heq]; rfl, fun _ => hfirst, hfirst.isInfix,
        fun b hb => (hmore b hb).trans (List.suffix_cons t r).isInfix⟩

theorem isInfix_of_splitUnion {ts : List Token} {parts : List (List Token)}
    (h : splitUnion ts = .ok parts) {part : List Token} (hpart : part ∈ parts) : part <:+: ts := by
  obtain ⟨first, more, heq, _, hfirst, hmore⟩ := blocksFrom_isInfix false 0 ts
  rw [← blocksFrom_of_splitUnion h, heq] at hpart
  rcases List.mem_cons.mp hpart with rfl | hpart
  · exact hfirst
  · exact hmore part hpart

theorem sectionsFrom_isInfix {current : Clause} {depth : Int} {ts rest : List Token}
    {more : List Section} (h : sectionsFrom current depth ts = .ok (rest, more)) :
    rest <+: ts ∧ ∀ s ∈ more, s.body <:+: ts := by
  fun_induction sectionsFrom current depth ts generalizing rest more with
  | case1 =>
    cases h
    exact ⟨List.prefix_rfl, List.forall_mem_nil _⟩
  | case3 current depth t r hc found after hr ih =>
    cases h
    obtain ⟨hfront, hmore⟩ := ih hr
    exact ⟨List.prefix_cons_inj t |>.mpr hfront,
      fun s hs => (hmore s hs).trans (List.suffix_cons t r).isInfix⟩
  | case7 current depth t next hc hrank hby b r hb found after hr ih =>
    cases h
    obtain ⟨hfront, hmore⟩ := ih hr
    have hwithin : r <:+: t :: b :: r := ((List.suffix_cons b r).trans (List.suffix_cons t _)).isInfix
    refine ⟨List.nil_prefix, ?_⟩
    intro s hs
    rcases List.mem_cons.mp hs with rfl | hs
    · exact hfront.isInfix.trans hwithin
    · exact (hmore s hs).trans hwithin
  | case10 current depth t r next hc hrank hby found after hr ih =>
    cases h
    obtain ⟨hfront, hmore⟩ := ih hr
    refine ⟨List.nil_prefix, ?_⟩
    intro s hs
    rcases List.mem_cons.mp hs with rfl | hs
    · exact hfront.isInfix.trans (List.suffix_cons t r).isInfix
    · exact (hmore s hs).trans (List.suffix_cons t r).isInfix
  | _ => cases h

theorem body_isInfix {clause : Clause} {ts : List Token} {sections : List Section}
    (h : splitClauses ts = .ok sections) : body clause sections <:+: ts := by
  have hall : ∀ s ∈ sections, s.body <:+: ts := by
    obtain ⟨t, r, items, more, rfl, _, hread, rfl⟩ := splitClauses_eq_ok h
    obtain ⟨hfront, hmore⟩ := sectionsFrom_isInfix hread
    intro s hs
    rcases List.mem_cons.mp hs with rfl | hs
    · exact hfront.isInfix.trans (List.suffix_cons t r).isInfix
    · exact (hmore s hs).trans (List.suffix_cons t r).isInfix
  unfold body body?
  cases hfind : sections.find? fun s => s.clause == clause with
  | none => exact List.nil_infix
  | some s => exact hall s (List.mem_of_find?_eq_some hfind)

theorem Phrase.infix_of_mem_conjuncts {f : Form} {c : Phrase f} {p : List Token}
    (h : p ∈ c.conjuncts) : p <:+: c.tokens := by
  induction c generalizing p with
  | and l w r ihl ihr =>
    show p <:+: l.tokensAt 2 ++ w.1 :: r.tokensAt 3
    have hl : l.tokensAt 2 <:+: l.tokensAt 2 ++ w.1 :: r.tokensAt 3 :=
      (List.prefix_append _ _).isInfix
    rcases List.mem_append.mp h with hp | hp
    · cases hs : l.shielded 2 with
      | true =>
        rw [if_pos hs] at hp
        rw [List.mem_singleton.mp hp]
        exact hl
      | false =>
        rw [if_neg (by simp [hs])] at hp
        refine (ihl hp).trans ?_
        rw [Phrase.tokensAt, hs] at hl
        rw [Phrase.tokensAt, hs]
        exact hl
    · rw [List.mem_singleton.mp hp]
      exact ((List.suffix_cons _ _).trans (List.suffix_append _ _)).isInfix
  | _ =>
    obtain rfl := List.mem_singleton.mp h
    exact List.infix_rfl

end Sql

namespace Scope

open Sql

/-- The body of a clause is a part of the statement. -/
theorem clause_isInfix {sql : List Char} {ts : List Token} {blocks : List (List Section)}
    (hblocks : blocksOf sql = .ok (ts, blocks)) {clause : Clause} {sections : List Section}
    (hsections : sections ∈ blocks) : body clause sections <:+: ts := by
  obtain ⟨parts, _, hparts, hclauses⟩ := blocksOf_eq_ok_iff.mp hblocks
  obtain ⟨part, hpart, hsplit⟩ := (mem_of_mapM hclauses).2 sections hsections
  refine (body_isInfix hsplit).trans ?_
  exact isInfix_of_splitUnion hparts hpart

variable {column : String} {tenant : Int}

theorem usesPinned_append {before u w : List Token}
    (h : usesPinned column tenant before (u ++ w) = true) :
    usesPinned column tenant (u.reverse ++ before) w = true := by
  induction u generalizing before with
  | nil => exact h
  | cons t u ih =>
    rw [List.cons_append, usesPinned, Bool.and_eq_true] at h
    have hrest := ih h.2
    rw [List.reverse_cons, List.append_assoc]
    exact hrest

/-- The scan looks at nothing but the neighbours of each tenant column. -/
theorem usesPinned_iff {before ts : List Token} :
    usesPinned column tenant before ts = true ↔
      ∀ u c rest, ts = u ++ c :: rest → isColumn column c rest = true →
        ((leftNeighbour (u.reverse ++ before)).map comparesBefore).getD false = false ∧
          pinnedAfter tenant rest = true := by
  induction ts generalizing before with
  | nil => exact ⟨fun _ u c rest h => by simp at h, fun _ => rfl⟩
  | cons t ts ih =>
    rw [usesPinned, Bool.and_eq_true, ih]
    constructor
    · rintro ⟨hfront, hrest⟩ u c rest hts hc
      cases u with
      | nil =>
        obtain ⟨rfl, rfl⟩ := List.cons.inj hts
        simpa [hc] using hfront
      | cons first u =>
        obtain ⟨rfl, rfl⟩ := List.cons.inj hts
        simpa using hrest u c rest rfl hc
    · intro h
      refine ⟨?_, fun u c rest hts hc => ?_⟩
      · cases hc : isColumn column t ts with
        | false => rfl
        | true => simpa using h [] t ts rfl hc
      · simpa using h (t :: u) c rest (by rw [hts, List.cons_append]) hc

theorem tenantList?_of_numerals? {ts rest : List Token} {ns : List Nat}
    (h : numerals? ts = some ns) (hlist : (tenantList? tenant (ts ++ rest)).isSome = true) :
    tenantList? tenant ts = some [] := by
  fun_induction numerals? ts generalizing ns with
  | case1 t =>
    simp only [List.cons_append, List.nil_append, tenantList?] at hlist
    split at hlist
    · rename_i ht
      rw [tenantList?, if_pos ht]
    · cases hlist
  | case2 t r ih =>
    obtain ⟨n, _, h⟩ := Option.bind_eq_some_iff.mp h
    obtain ⟨ms, hms, _⟩ := Option.map_eq_some_iff.mp h
    simp only [List.cons_append, tenantList?] at hlist
    split at hlist
    · rename_i ht
      rw [tenantList?, if_pos ht]
      exact ih hms hlist
    · cases hlist
  | case3 => cases h

/-- Numbers that the tenant column has to be one of are the tenant. -/
theorem bindsTenant_of_pinnedAfter {ts rest : List Token} {ns : List Nat}
    (h : oneOf? ts = some ns) (hpinned : pinnedAfter tenant (ts ++ rest) = true) :
    bindsTenant tenant ts = true := by
  unfold oneOf? at h
  split at h
  · rename_i t
    simp only [List.cons_append, List.nil_append, pinnedAfter, List.head?_cons, Option.map_some,
      Option.getD_some, Bool.and_eq_true] at hpinned
    exact hpinned.2
  · rename_i w list _
    split at h
    · rename_i hin
      have hkey := keyword?_of_isKeyword hin
      have hlist : (tenants? tenant (.lparen :: (list ++ rest))).isSome = true := by
        cases w with
        | word letters => simpa [pinnedAfter, hkey] using hpinned
        | _ => cases hkey
      have htenants := tenantList?_of_numerals? h hlist
      have hbinds : bindsTenant tenant (w :: .lparen :: list) =
          (w.isKeyword .in_ && tenants? tenant (.lparen :: list) == some []) := by
        rw [bindsTenant]
        rintro t rfl
        cases hkey
      rw [hbinds, hin, tenants?, htenants]
      rfl
    · cases h
  · cases h

theorem oneOf?_head {ts : List Token} {ns : List Nat} (h : oneOf? ts = some ns) (rest : List Token) :
    ((ts ++ rest).head? != some .dot && (ts ++ rest).head? != some .lparen) = true := by
  unfold oneOf? at h
  split at h
  · rfl
  · rename_i w list _
    split at h
    · rename_i hin
      have hkey := keyword?_of_isKeyword hin
      cases w with
      | word letters => rfl
      | _ => cases hkey
    · cases h
  · cases h

/-- A test of the tenant column in a statement that passes pins the column. -/
theorem pins_of_columnTest? {ts p : List Token} {test : ColumnTest} {owners : List String}
    (huses : usesPinned column tenant [] ts = true) (hp : p <:+: ts)
    (htest : columnTest? p = some test) (hcolumn : test.column.name = column)
    (howner : isOwned owners (test.qualifier.map Token.name)) :
    pins column tenant owners p = true := by
  obtain ⟨u, w, rfl⟩ := hp
  rw [List.append_assoc] at huses
  have hpart := usesPinned_append huses
  have bound {before r : List Token} {c : Token} {ns : List Nat} (hid : c.isIdentifier = true)
      (hc : c.name = column) (hns : oneOf? r = some ns)
      (huses : usesPinned column tenant before (c :: (r ++ w)) = true) :
      isColumn column c r = true ∧ bindsTenant tenant r = true := by
    have hcol (rest : List Token) : isColumn column c (r ++ rest) = true := by
      have hhead := oneOf?_head hns rest
      rw [isColumn, Bool.and_assoc, hhead, hid, hc, beq_self_eq_true]
      rfl
    refine ⟨by simpa using hcol [], ?_⟩
    exact bindsTenant_of_pinnedAfter hns (usesPinned_iff.mp huses [] c (r ++ w) rfl (hcol w)).2
  unfold columnTest? at htest
  split at htest
  · rename_i q c r
    split at htest
    · rename_i hids
      rw [Bool.and_eq_true] at hids
      obtain ⟨ns, hns, rfl⟩ := Option.map_eq_some_iff.mp htest
      have hrest : usesPinned column tenant _ (c :: (r ++ w)) = true :=
        usesPinned_append (u := [q, .dot]) hpart
      obtain ⟨hcol, hbinds⟩ := bound hids.2 hcolumn hns hrest
      have hq : q.name ∈ owners := howner q.name rfl
      simp [pins, hids.1, hq, hcol, hbinds]
    · cases htest
  · rename_i c r hno
    split at htest
    · rename_i hid
      obtain ⟨ns, hns, rfl⟩ := Option.map_eq_some_iff.mp htest
      obtain ⟨hcol, hbinds⟩ := bound hid hcolumn hns hpart
      rw [pins]
      · simp [hcol, hbinds]
      · exact hno
    · cases htest
  · cases htest

end Scope
end QueryGate
