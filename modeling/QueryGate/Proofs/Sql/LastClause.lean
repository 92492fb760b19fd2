import QueryGate.Proofs.Sql.Condition

/-!
# The end of a statement

A limit is the last clause of a block, so what stands behind its keyword reaches to the end of the
block, and a limit can be put behind any block that has none.  The last block reaches to the end of
the statement.
-/

namespace QueryGate
namespace Sql

/-! ### The last clause of a block -/

theorem rank_le_limit (c : Clause) : c.rank ≤ Clause.limit.rank := by cases c <;> decide

theorem isKeyword_limit_of_clause? {t : Token} (h : t.clause? = some .limit) :
    t.isKeyword .limit = true := by
  obtain ⟨k, hk, hclause⟩ := Option.bind_eq_some_iff.mp h
  cases k <;> cases hclause
  simp [Token.isKeyword, hk]

theorem clause?_limit (l : Word .limit) : l.1.clause? = some .limit := by
  rw [Token.clause?, keyword?_of_isKeyword l.2]
  rfl

/-- Nothing comes after a limit. -/
theorem sectionsFrom_limit {depth : Int} {ts body : List Token} {more : List Section}
    (h : sectionsFrom .limit depth ts = .ok (body, more)) : body = ts ∧ more = [] := by
  induction ts generalizing depth body with
  | nil =>
    cases h
    exact ⟨rfl, rfl⟩
  | cons t r ih =>
    rw [sectionsFrom] at h
    split at h
    · split at h
      · cases h
      · rename_i found after hr
        cases h
        obtain ⟨rfl, rfl⟩ := ih hr
        exact ⟨rfl, rfl⟩
    · rename_i next hnext
      rw [if_pos (rank_le_limit next)] at h
      cases h

/-- A keyword opens a clause in the open, which it does not leave. -/
theorem openedAt {d : Nat} {t : Token} {next : Clause}
    (h : (if depthAt (d : Int) t = 0 then t.clause? else none) = some next) :
    t.clause? = some next ∧ d = 0 ∧ ∀ r, depthThrough? d (t :: r) = depthThrough? d r := by
  split at h
  · rename_i hdepth
    rw [(depths_of_clause d h).1] at hdepth
    obtain ⟨k, hk, _⟩ := Option.bind_eq_some_iff.mp h
    exact ⟨h, Int.natCast_eq_zero.mp hdepth, depthThrough?_keyword d hk⟩
  · cases h

/-- What a limit holds is all that comes behind its keyword, which stands in the open. -/
theorem limit_of_sectionsFrom {current : Clause} {depth : Int} {d : Nat} (hd : depth = d)
    {ts body : List Token} {more : List Section}
    (h : sectionsFrom current depth ts = .ok (body, more))
    (hclosed : (depthThrough? d ts).isSome = true) {rows : List Token}
    (hrows : ⟨.limit, rows⟩ ∈ more) :
    ∃ (front : List Token) (l : Word .limit), ts = front ++ l.1 :: rows ∧
      depthThrough? d front = some 0 := by
  fun_induction sectionsFrom current depth ts generalizing d body more with
  | case1 =>
    cases h
    cases hrows
  | case3 current depth t r hc found after hr ih =>
    cases h
    obtain ⟨inner, hinner⟩ := Option.isSome_iff_exists.mp hclosed
    obtain ⟨next, hnext, hinner⟩ := Option.bind_eq_some_iff.mp hinner
    have hafter : depthAfter depth t = next := hd ▸ depthAfter_of_depthBehind? hnext
    obtain ⟨front, l, rfl, hfront⟩ := ih hafter hr (by rw [hinner]; rfl) hrows
    refine ⟨t :: front, l, rfl, ?_⟩
    rw [depthThrough?, hnext]
    exact hfront
  | case7 current depth t next hc hrank hby b r hb found after hr ih =>
    cases h
    subst hd
    obtain ⟨_, rfl, hthrough⟩ := openedAt hc
    have hbehind := depthThrough?_keyword 0 (keyword?_of_isKeyword hb)
    rw [hthrough, hbehind] at hclosed
    have hmem : ⟨.limit, rows⟩ ∈ after := by
      rcases List.mem_cons.mp hrows with heq | hmem
      · cases heq
        cases hby
      · exact hmem
    obtain ⟨front, l, rfl, hfront⟩ := ih rfl hr hclosed hmem
    exact ⟨t :: b :: front, l, rfl, by rw [hthrough, hbehind, hfront]⟩
  | case10 current depth t r next hc hrank hby found after hr ih =>
    cases h
    subst hd
    obtain ⟨hclause, rfl, hthrough⟩ := openedAt hc
    rcases List.mem_cons.mp hrows with heq | hmem
    · cases heq
      obtain ⟨rfl, _⟩ := sectionsFrom_limit hr
      exact ⟨[], ⟨t, isKeyword_limit_of_clause? hclause⟩, rfl, rfl⟩
    · rw [hthrough] at hclosed
      obtain ⟨front, l, rfl, hfront⟩ := ih rfl hr hclosed hmem
      exact ⟨t :: front, l, rfl, by rw [hthrough, hfront]⟩
  | _ => cases h

theorem limit_of_splitClauses {block : List Token} {sections : List Section}
    (h : splitClauses block = .ok sections) (hclosed : (depthThrough? 0 block).isSome = true)
    {rows : List Token} (hrows : body? .limit sections = some rows) :
    ∃ (front : List Token) (l : Word .limit), block = front ++ l.1 :: rows ∧
      depthThrough? 0 front = some 0 := by
  obtain ⟨s, hfound, rfl⟩ := Option.map_eq_some_iff.mp hrows
  have hclause : s.clause = .limit := by simpa using List.find?_some hfound
  have hmem := List.mem_of_find?_eq_some hfound
  obtain ⟨t, r, items, more, rfl, hselect, hread, rfl⟩ := splitClauses_eq_ok h
  have hthrough := depthThrough?_keyword 0 (keyword?_of_isKeyword hselect)
  have hbehind : ⟨.limit, s.body⟩ ∈ more := by
    rcases List.mem_cons.mp hmem with rfl | hmem
    · cases hclause
    · rwa [← hclause]
  rw [hthrough] at hclosed
  obtain ⟨front, l, rfl, hfront⟩ := limit_of_sectionsFrom rfl hread hclosed hbehind
  exact ⟨t :: front, l, rfl, by rw [hthrough, hfront]⟩

/-! ### A limit behind a block -/

/-- Whether a clause is among those of a block. -/
def hasClause (clause : Clause) (sections : List Section) : Bool :=
  sections.any fun s => s.clause == clause

theorem isSome_body? (clause : Clause) (sections : List Section) :
    (body? clause sections).isSome = hasClause clause sections := by
  rw [body?, Option.isSome_map, Bool.eq_iff_iff, List.find?_isSome, hasClause, List.any_eq_true]

theorem hasClause_cons (clause : Clause) (s : Section) (more : List Section) :
    hasClause clause (s :: more) = (s.clause == clause || hasClause clause more) := rfl

theorem ne_limit_of_rank {current next : Clause} (h : ¬next.rank ≤ current.rank) :
    (current == Clause.limit) = false := by
  refine beq_false_of_ne ?_
  rintro rfl
  exact h (rank_le_limit next)

section Append

variable (l : Word .limit) {rows : List Token} (hrows : sectionsFrom .limit 0 rows = .ok (rows, []))
include hrows

/-- A limit comes behind the clauses of a block that has none, and no second limit is allowed. -/
theorem sectionsFrom_append_limit {current : Clause} {depth : Int} {d : Nat} (hd : depth = d)
    {front : List Token} (hclosed : depthThrough? d front = some 0) :
    sectionsFrom current depth (front ++ l.1 :: rows) =
      match sectionsFrom current depth front with
      | .error fault => .error fault
      | .ok (body, more) =>
        if current == .limit || hasClause .limit more then .error (.unexpectedClause .limit)
        else .ok (body, more ++ [⟨.limit, rows⟩]) := by
  fun_induction sectionsFrom current depth front generalizing d with
  | case1 current depth =>
    cases hclosed
    subst hd
    have hdepth : depthAt ((0 : Nat) : Int) l.1 = 0 := (depths_of_clause 0 (clause?_limit l)).1
    rw [List.nil_append, sectionsFrom, if_pos hdepth, clause?_limit]
    have hrank : Clause.limit.rank ≤ current.rank ↔ current = .limit := by cases current <;> decide
    by_cases hcurrent : current = .limit
    · subst hcurrent
      rfl
    · have hne : (current == Clause.limit) = false := beq_false_of_ne hcurrent
      simp only [if_neg (mt hrank.mp hcurrent), hne]
      have hneeds : Clause.limit.needsBy = false := rfl
      simp only [hneeds, hrows]
      rfl
  | case2 current depth t r hc fault hr ih =>
    obtain ⟨next, hnext, hclosed⟩ := Option.bind_eq_some_iff.mp hclosed
    have hmore := ih (hd ▸ depthAfter_of_depthBehind? hnext) hclosed
    rw [hr] at hmore
    rw [List.cons_append, sectionsFrom, hc, hmore]
  | case3 current depth t r hc body more hr ih =>
    obtain ⟨next, hnext, hclosed⟩ := Option.bind_eq_some_iff.mp hclosed
    have hmore := ih (hd ▸ depthAfter_of_depthBehind? hnext) hclosed
    rw [hr] at hmore
    rw [List.cons_append, sectionsFrom, hc, hmore]
    cases hlimit : current == .limit || hasClause .limit more <;> simp [hlimit]
  | case4 current depth t r next hc hrank =>
    rw [List.cons_append, sectionsFrom, hc]
    simp only [if_pos hrank]
  | case5 current depth t next hc hrank hby =>
    have hl : l.1.isKeyword .by_ = false := by
      simp [Token.isKeyword, keyword?_of_isKeyword l.2]
    rw [List.cons_append, sectionsFrom, hc]
    simp [if_neg hrank, if_pos hby, hl]
  | case6 current depth t next hc hrank hby b r hb fault hr ih =>
    subst hd
    obtain ⟨_, rfl, hthrough⟩ := openedAt hc
    rw [hthrough, depthThrough?_keyword 0 (keyword?_of_isKeyword hb)] at hclosed
    have hmore := ih rfl hclosed
    rw [hr] at hmore
    rw [List.cons_append, List.cons_append, sectionsFrom, hc]
    simp only [if_neg hrank, if_pos hby, if_pos hb, hmore]
  | case7 current depth t next hc hrank hby b r hb body more hr ih =>
    subst hd
    obtain ⟨_, rfl, hthrough⟩ := openedAt hc
    rw [hthrough, depthThrough?_keyword 0 (keyword?_of_isKeyword hb)] at hclosed
    have hmore := ih rfl hclosed
    rw [hr] at hmore
    have hcurrent := ne_limit_of_rank hrank
    rw [List.cons_append, List.cons_append, sectionsFrom, hc]
    simp only [if_neg hrank, if_pos hby, if_pos hb, hmore, hcurrent, hasClause_cons]
    cases hlimit : next == .limit || hasClause .limit more <;> simp
  | case8 current depth t next hc hrank hby b r hb =>
    rw [List.cons_append, List.cons_append, sectionsFrom, hc]
    simp only [if_neg hrank, if_pos hby, if_neg hb]
  | case9 current depth t r next hc hrank hby fault hr ih =>
    subst hd
    obtain ⟨_, rfl, hthrough⟩ := openedAt hc
    rw [hthrough] at hclosed
    have hmore := ih rfl hclosed
    rw [hr] at hmore
    rw [List.cons_append, sectionsFrom, hc]
    simp only [if_neg hrank, if_neg hby, hmore]
  | case10 current depth t r next hc hrank hby body more hr ih =>
    subst hd
    obtain ⟨_, rfl, hthrough⟩ := openedAt hc
    rw [hthrough] at hclosed
    have hmore := ih rfl hclosed
    rw [hr] at hmore
    have hcurrent := ne_limit_of_rank hrank
    rw [List.cons_append, sectionsFrom, hc]
    simp only [if_neg hrank, if_neg hby, hmore, hcurrent, hasClause_cons]
    cases hlimit : next == .limit || hasClause .limit more <;> simp

theorem splitClauses_append_limit {block : List Token} (hclosed : depthThrough? 0 block = some 0) :
    splitClauses (block ++ l.1 :: rows) =
      match splitClauses block with
      | .error fault => .error fault
      | .ok sections =>
        if hasClause .limit sections then .error (.unexpectedClause .limit)
        else .ok (sections ++ [⟨.limit, rows⟩]) := by
  cases block with
  | nil =>
    have hl : l.1.isKeyword .select = false := by
      simp [Token.isKeyword, keyword?_of_isKeyword l.2]
    rw [List.nil_append]
    simp [splitClauses, hl]
  | cons t r =>
    rw [List.cons_append, splitClauses, splitClauses]
    split
    · rename_i hselect
      rw [depthThrough?_keyword 0 (keyword?_of_isKeyword hselect)] at hclosed
      have happend : sectionsFrom .select (0 : Nat) (r ++ l.1 :: rows) = _ :=
        sectionsFrom_append_limit l hrows rfl hclosed
      rw [Int.natCast_zero] at happend
      rw [happend]
      have hcurrent : (Clause.select == Clause.limit) = false := rfl
      rcases sectionsFrom .select 0 r with fault | ⟨body, more⟩
      · rfl
      · simp only [hasClause_cons, hcurrent, Bool.false_or]
        cases hasClause .limit more <;> rfl
    · rfl

end Append

/-! ### The last block of a statement -/

theorem exists_keyword_of_isOneOf {t : Token} {ks : List Keyword} (h : t.isOneOf ks = true) :
    ∃ k ∈ ks, t.keyword? = some k := by
  obtain ⟨k, hk, ht⟩ := List.any_eq_true.mp h
  exact ⟨k, hk, keyword?_of_isKeyword ht⟩

/-- The last block is the end of the statement, and what is in front of it closes all its
parentheses. -/
theorem last_of_blocksFrom {afterUnion : Bool} {depth : Nat} {ts : List Token}
    {init : List (List Token)} {last : List Token}
    (h : blocksFrom afterUnion depth ts = init ++ [last])
    (hclosed : (depthThrough? depth ts).isSome = true) :
    ∃ front inner, ts = front ++ last ∧ depthThrough? depth front = some inner ∧
      (init = [] → inner = depth ∧ (afterUnion = false → front = [])) ∧
      (init ≠ [] → inner = 0) := by
  induction ts generalizing afterUnion depth init last with
  | nil =>
    rw [blocksFrom] at h
    cases init with
    | nil =>
      exact ⟨[], depth, by simpa using h, rfl, fun _ => ⟨rfl, fun _ => rfl⟩, (absurd rfl ·)⟩
    | cons b init => simp at h
  | cons t r ih =>
    obtain ⟨whole, hwhole⟩ := Option.isSome_iff_exists.mp hclosed
    obtain ⟨next, hnext, hwhole⟩ := Option.bind_eq_some_iff.mp hwhole
    have hclosed : (depthThrough? next r).isSome = true := by rw [hwhole]; rfl
    have through {front : List Token} {inner : Nat} (h : depthThrough? next front = some inner) :
        depthThrough? depth (t :: front) = some inner := by
      rw [depthThrough?, hnext]
      exact h
    have keeps {k : Keyword} (hk : t.keyword? = some k) : next = depth := by
      rw [depthBehind?_of_keyword depth hk] at hnext
      exact (Option.some.inj hnext).symm
    rw [blocksFrom, depthAfter_of_depthBehind? hnext] at h
    split at h
    · rename_i hskipped
      rw [Bool.and_eq_true] at hskipped
      obtain ⟨k, _, hk⟩ := exists_keyword_of_isOneOf hskipped.2
      obtain ⟨front, inner, rfl, hfront, honly, hmore⟩ := ih h hclosed
      refine ⟨t :: front, inner, rfl, through hfront, ?_, hmore⟩
      intro hinit
      refine ⟨(honly hinit).1.trans (keeps hk), ?_⟩
      rw [hskipped.1]
      rintro ⟨⟩
    split at h
    · rename_i hunion
      obtain ⟨hdepth, hunion⟩ := hunion
      have hk := keyword?_of_isKeyword hunion
      rw [(depths_of_keyword depth hk).1] at hdepth
      cases init with
      | nil =>
        obtain ⟨first, more, hblocks⟩ := List.exists_cons_of_ne_nil (blocksFrom_ne_nil true next r)
        rw [hblocks] at h
        simp at h
      | cons b init =>
        rw [List.cons_append, List.cons.injEq] at h
        obtain ⟨front, inner, rfl, hfront, honly, hmore⟩ := ih h.2 hclosed
        refine ⟨t :: front, inner, rfl, through hfront, (absurd · (List.cons_ne_nil b init)), ?_⟩
        intro _
        by_cases hinit : init = []
        · rw [(honly hinit).1, keeps hk, Int.natCast_eq_zero.mp hdepth]
        · exact hmore hinit
    · obtain ⟨first, more, hblocks⟩ := List.exists_cons_of_ne_nil (blocksFrom_ne_nil false next r)
      rw [hblocks] at h
      cases init with
      | nil =>
        have hparts : (t :: first) :: more = [last] := h
        obtain ⟨rfl, rfl⟩ := List.cons.inj hparts
        have hblocks : blocksFrom false next r = [] ++ [first] := hblocks
        obtain ⟨front, inner, rfl, _, honly, _⟩ := ih hblocks hclosed
        have hnil := (honly rfl).2 rfl
        exact ⟨[], depth, by rw [hnil]; rfl, rfl, fun _ => ⟨rfl, fun _ => rfl⟩, (absurd rfl ·)⟩
      | cons b init =>
        have hparts : (t :: first) :: more = b :: (init ++ [last]) := h
        obtain ⟨_, rfl⟩ := List.cons.inj hparts
        have hblocks : blocksFrom false next r = (first :: init) ++ [last] := hblocks
        obtain ⟨front, inner, rfl, hfront, _, hmore⟩ := ih hblocks hclosed
        exact ⟨t :: front, inner, rfl, through hfront, (absurd · (List.cons_ne_nil b init)),
          fun _ => hmore (List.cons_ne_nil first init)⟩

theorem last_closed {ts : List Token} {init : List (List Token)} {last : List Token}
    (h : blocksFrom false 0 ts = init ++ [last]) {inner : Nat}
    (hclosed : depthThrough? 0 ts = some inner) :
    ∃ front, ts = front ++ last ∧ depthThrough? 0 front = some 0 ∧
      depthThrough? 0 last = some inner := by
  have hblocks : blocksFrom false (0 : Nat) ts = init ++ [last] := h
  obtain ⟨front, depth, rfl, hfront, honly, hmore⟩ :=
    last_of_blocksFrom hblocks (by rw [hclosed]; rfl)
  obtain rfl : depth = 0 := by
    by_cases hinit : init = []
    · exact (honly hinit).1
    · exact hmore hinit
  refine ⟨front, rfl, hfront, ?_⟩
  rwa [depthThrough?_append, hfront, Option.bind_some] at hclosed

theorem blocksFrom_of_all {depth : Int} {ts : List Token} (h : ts.all inBlock = true) :
    blocksFrom false depth ts = [ts] := by
  induction ts generalizing depth with
  | nil => rfl
  | cons t r ih =>
    rw [List.all_cons, Bool.and_eq_true, inBlock, Bool.not_eq_true'] at h
    simp only [blocksFrom, h.1, ih h.2, Bool.false_and, Bool.false_eq_true, and_false, ↓reduceIte]
    rfl

/-- Tokens that open no block belong to the last one. -/
theorem blocksFrom_append {afterUnion : Bool} {depth : Int} {ts back : List Token}
    (hback : back.all inBlock = true)
    (hfirst : ∀ t ∈ back.head?, t.isOneOf [.all, .distinct] = false) {init : List (List Token)}
    {last : List Token} (h : blocksFrom afterUnion depth ts = init ++ [last]) :
    blocksFrom afterUnion depth (ts ++ back) = init ++ [last ++ back] := by
  induction ts generalizing afterUnion depth init last with
  | nil =>
    have hone : init = [] ∧ last = [] := by
      cases init with
      | nil => simpa [blocksFrom, eq_comm] using h
      | cons b init => simp [blocksFrom] at h
    obtain ⟨rfl, rfl⟩ := hone
    show blocksFrom afterUnion depth back = [back]
    cases back with
    | nil => rfl
    | cons t r =>
      have ht := hfirst t rfl
      rw [List.all_cons, Bool.and_eq_true, inBlock, Bool.not_eq_true'] at hback
      simp only [blocksFrom, ht, hback.1, blocksFrom_of_all hback.2, Bool.and_false,
        Bool.false_eq_true, and_false, ↓reduceIte]
      rfl
  | cons t r ih =>
    rw [List.cons_append, blocksFrom]
    rw [blocksFrom] at h
    split at h
    · rename_i hskipped
      rw [if_pos hskipped]
      exact ih h
    rename_i hskipped
    rw [if_neg hskipped]
    split at h
    · rename_i hunion
      rw [if_pos hunion]
      obtain ⟨first, more, hblocks⟩ := List.exists_cons_of_ne_nil
        (blocksFrom_ne_nil true (depthAfter depth t) r)
      cases init with
      | nil =>
        rw [hblocks] at h
        simp at h
      | cons b init =>
        obtain ⟨rfl, hmore⟩ := List.cons.inj h
        rw [ih hmore]
        rfl
    · rename_i hunion
      rw [if_neg hunion]
      obtain ⟨first, more, hblocks⟩ := List.exists_cons_of_ne_nil
        (blocksFrom_ne_nil false (depthAfter depth t) r)
      rw [hblocks] at h
      cases init with
      | nil =>
        have hparts : (t :: first) :: more = [last] := h
        obtain ⟨rfl, rfl⟩ := List.cons.inj hparts
        have hblocks : blocksFrom false (depthAfter depth t) r = [] ++ [first] := hblocks
        rw [ih hblocks]
        rfl
      | cons b init =>
        have hparts : (t :: first) :: more = b :: (init ++ [last]) := h
        obtain ⟨rfl, rfl⟩ := List.cons.inj hparts
        have hblocks : blocksFrom false (depthAfter depth t) r = (first :: init) ++ [last] :=
          hblocks
        rw [ih hblocks]
        rfl

end Sql
end QueryGate
