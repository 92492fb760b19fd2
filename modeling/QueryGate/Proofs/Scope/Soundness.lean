import QueryGate.Proofs.Scope.Conjunction
import QueryGate.Proofs.Sql.Listing
import QueryGate.Run

/-!
# What the scope check promises

A part of a condition that pins the tenant column is a test of that column against the tenant.  If
the part is an operand of the outermost conjunction, every row that meets the condition belongs to
the tenant.  The scan finds such operands only when the condition is separable; for any other the
promise can fail.
-/

namespace QueryGate
namespace Scope

open Sql

variable {column : String} {tenant : Int} {owners : List String}

/-! ### Parts that pin the tenant column -/

theorem numeral?_of_isTenant {t : Token} (h : isTenant tenant t = true) :
    ∃ n, numeral? t = some n ∧ (n : Int) = tenant := by
  unfold isTenant digitsOf? at h
  unfold numeral?
  cases t with
  | number digits | literal _ digits =>
    simp only [Bool.and_eq_true, beq_iff_eq] at h
    exact ⟨_, if_pos h.1, h.2⟩
  | _ => cases h

theorem numerals?_of_tenantList? {ts : List Token} (h : tenantList? tenant ts = some []) :
    ∃ ns, numerals? ts = some ns ∧ ns ≠ [] ∧ ∀ n ∈ ns, (n : Int) = tenant := by
  fun_induction tenantList? tenant ts with
  | case1 t rest ht =>
    cases h
    obtain ⟨n, hn, hv⟩ := numeral?_of_isTenant ht
    exact ⟨[n], by simp [numerals?, hn], by simp, by simpa using hv⟩
  | case2 => cases h
  | case3 t rest ht ih =>
    obtain ⟨n, hn, hv⟩ := numeral?_of_isTenant ht
    obtain ⟨ns, hns, _, hall⟩ := ih h
    exact ⟨n :: ns, by simp [numerals?, hn, hns], by simp, by simpa using ⟨hv, hall⟩⟩
  | case4 => cases h
  | case5 => cases h

theorem oneOf?_of_bindsTenant {rest : List Token} (h : bindsTenant tenant rest = true) :
    ∃ ns, oneOf? rest = some ns ∧ ns ≠ [] ∧ ∀ n ∈ ns, (n : Int) = tenant := by
  unfold bindsTenant at h
  split at h
  · obtain ⟨n, hn, hv⟩ := numeral?_of_isTenant h
    exact ⟨[n], by simp [oneOf?, hn], by simp, by simpa using hv⟩
  · rename_i t rest _
    rw [Bool.and_eq_true, beq_iff_eq] at h
    obtain ⟨hin, hlist⟩ := h
    unfold tenants? at hlist
    split at hlist
    · obtain ⟨ns, hns, hrest⟩ := numerals?_of_tenantList? hlist
      refine ⟨ns, ?_, hrest⟩
      rw [oneOf?]
      · rw [if_pos hin, hns]
      · intro heq
        rw [heq] at hin
        cases hin
    · cases hlist
  · cases h

theorem isIdentifier_of_isColumn {c : Token} {rest : List Token}
    (h : isColumn column c rest = true) : c.isIdentifier = true ∧ c.name = column := by
  simp only [isColumn, Bool.and_eq_true, beq_iff_eq] at h
  exact ⟨h.1.1.1, h.1.1.2⟩

/-- A part that pins the tenant column is a test of the column, under one of the owners if it is
qualified. -/
theorem columnTest?_of_pins {p : List Token} (h : pins column tenant owners p = true) :
    ∃ test, columnTest? p = some test ∧ test.column.name = column ∧
      (∀ q, test.qualifier = some q → q.name ∈ owners) ∧
      test.numbers ≠ [] ∧ ∀ n ∈ test.numbers, (n : Int) = tenant := by
  unfold pins at h
  split at h
  · rename_i q c rest
    simp only [Bool.and_eq_true] at h
    obtain ⟨⟨⟨hq, howner⟩, hc⟩, hbind⟩ := h
    obtain ⟨hid, hname⟩ := isIdentifier_of_isColumn hc
    obtain ⟨ns, hns, hne, hall⟩ := oneOf?_of_bindsTenant hbind
    refine ⟨⟨some q, c, ns⟩, by simp [columnTest?, hq, hid, hns], hname, ?_, hne, hall⟩
    rintro _ ⟨⟩
    simpa using howner
  · rename_i c rest hno
    rw [Bool.and_eq_true] at h
    obtain ⟨hid, hname⟩ := isIdentifier_of_isColumn h.1
    obtain ⟨ns, hns, hne, hall⟩ := oneOf?_of_bindsTenant h.2
    refine ⟨⟨none, c, ns⟩, ?_, hname, by simp, hne, hall⟩
    rw [columnTest?]
    · simp [hid, hns]
    · exact hno
  · cases h

/-- Whether a qualifier, if there is one, is among the owners. -/
def isOwned (owners : List String) (q : Option String) : Prop := ∀ name, q = some name → name ∈ owners

/-- A true run of tokens that pins the tenant column says that the column is the tenant. -/
theorem column_of_pins {v : Valuation} {p : List Token} (h : pins column tenant owners p = true)
    (htrue : truth (v.ofRun p) = some true) :
    ∃ q, isOwned owners q ∧ v.column q column = some tenant := by
  obtain ⟨test, htest, hname, howner, _, hall⟩ := columnTest?_of_pins h
  refine ⟨test.qualifier.map Token.name, ?_, ?_⟩
  · intro name hname
    obtain ⟨q, hq, rfl⟩ := Option.map_eq_some_iff.mp hname
    exact howner q hq
  · simp only [Valuation.ofRun, htest, hname] at htrue
    cases hx : v.column (test.qualifier.map Token.name) column with
    | none => simp [hx, truth] at htrue
    | some x =>
      have hmem : ∃ n, n ∈ test.numbers ∧ x = (n : Int) := by simpa [hx, truth] using htrue
      obtain ⟨n, hn, rfl⟩ := hmem
      rw [hall n hn]

/-! ### Conditions that pin the tenant column -/

theorem not_bindsTenant_of_opens {t : Token} {r : List Token} (h : opensExpression t = true) :
    bindsTenant tenant (t :: r) = false := by
  simp only [opensExpression, Bool.and_eq_true, bne_iff_ne, ne_eq, Bool.not_eq_true'] at h
  rw [Bool.eq_false_iff]
  intro hbind
  unfold bindsTenant at hbind
  split at hbind
  · rename_i heq
    cases heq
    exact h.1.2 rfl
  · rename_i heq
    cases heq
    simp [h.2] at hbind
  · cases hbind

/-- Behind a single token in front, an expression pins nothing. -/
theorem not_pins_of_opens {w t : Token} {r : List Token} (h : opensExpression t = true) :
    pins column tenant owners (w :: t :: r) = false := by
  unfold pins
  split
  · rename_i heq
    cases heq
    simp [opensExpression] at h
  · rename_i heq
    cases heq
    rw [not_bindsTenant_of_opens h, Bool.and_false]
  · rfl

theorem keyword?_of_isTenant {t : Token} (h : isTenant tenant t = true) : t.keyword? = none := by
  cases t <;> first | rfl | cases h

theorem keyword?_of_tenantList? {ts : List Token} (h : tenantList? tenant ts = some []) :
    ∀ t ∈ ts, t.keyword? = none := by
  fun_induction tenantList? tenant ts with
  | case1 t rest ht =>
    cases h
    simpa using ⟨keyword?_of_isTenant ht, rfl⟩
  | case2 => cases h
  | case3 t rest ht ih =>
    simpa using ⟨keyword?_of_isTenant ht, rfl, ih h⟩
  | case4 => cases h
  | case5 => cases h

/-- Only `IN` is a keyword among what binds the tenant column. -/
theorem isKeyword_of_bindsTenant {rest : List Token} (h : bindsTenant tenant rest = true)
    {t : Token} (ht : t ∈ rest) {k : Keyword} (hk : t.isKeyword k = true) : k = .in_ := by
  have hkey := keyword?_of_isKeyword hk
  unfold bindsTenant at h
  split at h
  · simp only [List.mem_cons, List.not_mem_nil, or_false] at ht
    rcases ht with rfl | rfl
    · cases hkey
    · rw [keyword?_of_isTenant h] at hkey
      cases hkey
  · rename_i w rest _
    rw [Bool.and_eq_true, beq_iff_eq] at h
    obtain ⟨hin, hlist⟩ := h
    unfold tenants? at hlist
    split at hlist
    · simp only [List.mem_cons] at ht
      rcases ht with rfl | rfl | ht
      · exact Option.some.inj (hkey.symm.trans (keyword?_of_isKeyword hin))
      · cases hkey
      · rw [keyword?_of_tenantList? hlist t ht] at hkey
        cases hkey
    · cases hlist
  · cases h

/-- Parentheses pin nothing. -/
theorem not_pins_parenthesized (u : List Token) :
    pins column tenant owners (parenthesized u) = false := by
  show pins column tenant owners (.lparen :: (u ++ [.rparen])) = false
  unfold pins
  split
  · rename_i heq
    rw [← (List.cons.inj heq).1]
    rfl
  · rename_i heq
    rw [← (List.cons.inj heq).1]
    rfl
  · rfl

/-- What holds a connective pins nothing. -/
theorem not_pins_of_connective {k : Keyword} {w t : Token} (hw : w.isKeyword k = true)
    (hk : k ≠ .in_) {u r : List Token} (hu : u ≠ []) (ht : opensExpression t = true) :
    pins column tenant owners (u ++ w :: t :: r) = false := by
  have hin (rest : List Token) (hmem : w ∈ rest) : bindsTenant tenant rest = false := by
    rw [Bool.eq_false_iff]
    intro hbind
    exact hk (isKeyword_of_bindsTenant hbind hmem hw)
  unfold pins
  split
  · rename_i q c rest heq
    rcases u with _ | ⟨a, _ | ⟨b, _ | ⟨d, u⟩⟩⟩
    · exact absurd rfl hu
    · cases heq
      cases keyword?_of_isKeyword hw
    · cases heq
      rw [not_bindsTenant_of_opens ht, Bool.and_false]
    · simp only [List.cons_append, List.cons.injEq] at heq
      rw [hin rest (by simp [← heq.2.2.2]), Bool.and_false]
  · rename_i c rest _ heq
    cases u with
    | nil => exact absurd rfl hu
    | cons a u =>
      simp only [List.cons_append, List.cons.injEq] at heq
      rw [hin rest (by simp [← heq.2]), Bool.and_false]
  · rfl

/-- Of the constructs of a condition only an atom can pin the tenant column. -/
theorem not_pins_tokens {f : Form} (c : Phrase f) (hatom : c.isAtom = false) :
    pins column tenant owners c.tokens = false := by
  have opened {g : Form} (b : Bool) (d : Phrase g) :
      ∃ t r, Phrase.enclose b d.tokens = t :: r ∧ opensExpression t = true := by
    simpa using Phrase.enclose_opens b d.tokens_opens []
  have behind {k : Keyword} {u : List Token} (hu : u ≠ []) (w : Word k) (b : Bool)
      (d : Condition) (hk : k ≠ .in_) :
      pins column tenant owners (u ++ w.1 :: Phrase.enclose b d.tokens) = false := by
    obtain ⟨t, r, hr, ht⟩ := opened b d
    rw [hr]
    exact not_pins_of_connective w.2 hk hu ht
  have nonempty {g : Form} (b : Bool) (d : Phrase g) : Phrase.enclose b d.tokens ≠ [] := by
    obtain ⟨t, r, hr, _⟩ := opened b d
    simp [hr]
  cases c with
  | atom run => cases hatom
  | group c => exact not_pins_parenthesized _
  | not w c =>
    obtain ⟨t, r, hr, ht⟩ := opened (c.shielded 3) c
    rw [Phrase.tokens, hr]
    exact not_pins_of_opens ht
  | and l w r => exact behind (nonempty _ l) w _ r (by decide)
  | xor l w r => exact behind (nonempty _ l) w _ r (by decide)
  | or l w r => exact behind (nonempty _ l) w _ r (by decide)
  | between x negation w low a high =>
    have hfront : Phrase.enclose (x.shielded 6) x.tokens ++ negation.toList.map (·.1) ≠ [] := by
      simp [nonempty (x.shielded 6) x]
    obtain ⟨t, r, hr, ht⟩ := opened (low.shielded 6) low
    have h : pins column tenant owners _ = false := not_pins_of_connective w.2 (by decide) hfront ht
      (r := r ++ a.1 :: Phrase.enclose (high.shielded 5) high.tokens)
    rw [Phrase.tokens, hr]
    simpa using h
  | choose w b =>
    obtain ⟨t, r, hr, ht⟩ := b.tokens_opens
    rw [Phrase.tokens, hr]
    exact not_pins_of_opens ht
  | when_ w c t r more =>
    obtain ⟨t', r', hr, ht⟩ := c.tokens_opens
    rw [Phrase.tokens, hr]
    exact not_pins_of_opens ht
  | else_ w r e =>
    obtain ⟨t', r', hr, ht⟩ := r.tokens_opens
    rw [Phrase.tokens, hr]
    exact not_pins_of_opens ht
  | end_ e =>
    show pins column tenant owners [e.1] = false
    simp [pins, bindsTenant]

/-- An operand of a true conjunction that pins the tenant column says that the column is the
tenant. -/
theorem column_of_pinned_conjunct {v : Valuation} {f : Form} {c : Phrase f} (htrue : c.isTrue v)
    {p : List Token} (hp : p ∈ c.conjuncts) (hpins : pins column tenant owners p = true) :
    ∃ q, isOwned owners q ∧ v.column q column = some tenant := by
  induction c generalizing p with
  | atom run =>
    rw [List.mem_singleton.mp hp] at hpins
    exact column_of_pins hpins htrue
  | and l w r ihl ihr =>
    obtain ⟨hl, hr⟩ := Phrase.isTrue_and.mp htrue
    rcases List.mem_append.mp hp with hp | hp
    · cases hs : l.shielded 2 with
      | true =>
        rw [if_pos hs] at hp
        rw [List.mem_singleton.mp hp, Phrase.tokensAt, hs, Phrase.enclose, if_pos rfl,
          not_pins_parenthesized] at hpins
        cases hpins
      | false =>
        rw [if_neg (by simp [hs])] at hp
        exact ihl hl hp hpins
    · rw [List.mem_singleton.mp hp, Phrase.tokensAt] at hpins
      cases hs : r.shielded 3 with
      | true =>
        rw [hs, Phrase.enclose, if_pos rfl, not_pins_parenthesized] at hpins
        cases hpins
      | false =>
        rw [hs, Phrase.enclose, if_neg (by simp)] at hpins
        have hr' := Phrase.not_isConjunction_of_not_shielded (Nat.le_refl 3) hs
        exact ihr hr (by simp [Phrase.conjuncts_of_not_isConjunction hr']) hpins
  | _ =>
    rw [List.mem_singleton.mp hp, not_pins_tokens _ rfl] at hpins
    cases hpins

/-! ### The check of a block -/

/-- What the scan finds are the operands of the outermost conjunction just when the condition is
separable. -/
theorem conjuncts_eq_iff {c : Condition} {parts : List (List Token)}
    (h : conjuncts c.tokens = some parts) : parts = c.conjuncts ↔ c.separable = true := by
  obtain ⟨found, hscan, _, hsep⟩ := reads_tokens c false
  have hparts : parts = found := by
    rw [hscan.whole h]
    exact glue_nil hscan.1
  obtain ⟨hyes, hno⟩ := hsep rfl
  rw [hparts]
  refine ⟨?_, hyes⟩
  intro heq
  rw [← Bool.not_eq_false]
  intro hsep
  have hlt := hno hsep
  rw [heq] at hlt
  exact Nat.lt_irrefl _ hlt

/-- A block that passes is pinned: a row that meets its condition has the tenant in the tenant
column. -/
theorem column_of_checkBlock {sections : List Section} {c : Condition}
    (hcheck : checkBlock column tenant sections = .ok ())
    (hwhere : body .where_ sections = c.tokens) (hsep : c.separable = true) {v : Valuation}
    (htrue : c.isTrue v) :
    ∃ q, isOwned (firstNames (body .from_ sections)) q ∧ v.column q column = some tenant := by
  obtain ⟨parts, hparts, p, hp, hpins⟩ := checkBlock_eq_ok hcheck
  rw [hwhere] at hparts
  rw [(conjuncts_eq_iff hparts).mpr hsep] at hp
  exact column_of_pinned_conjunct htrue hp hpins

/-- Every block of a statement that passes has passed. -/
theorem checkBlock_of_holds {sql : List Char} (h : holds column tenant sql = true) :
    ∃ ts blocks, blocksOf sql = .ok (ts, blocks) ∧ usesPinned column tenant [] ts = true ∧
      ∀ sections ∈ blocks, checkBlock column tenant sections = .ok () := by
  have hcheck := (holds_iff column tenant).mp h
  unfold check at hcheck
  split at hcheck
  · cases hcheck
  · split at hcheck
    · cases hcheck
    · rename_i ts blocks hblocks
      split at hcheck
      · rename_i huses
        exact ⟨ts, blocks, hblocks, huses, forM_eq_ok_iff.mp hcheck⟩
      · cases hcheck

/-! ### Statements on one table -/

/-- A statement that reads one table under a condition and has a limit. -/
structure SingleTable where
  select : Word .select
  items : List Token
  items_pass : Passes staysInClause items
  from_ : Word .from_
  entry : Entry
  entry_passes : Passes staysInClause entry.tokens
  where_ : Word .where_
  condition : Condition
  limit : Word .limit
  rows : List Char

namespace SingleTable

/-- The tokens of a statement. -/
def tokens (s : SingleTable) : List Token :=
  s.select.1 :: (s.items ++ s.from_.1 :: (s.entry.tokens ++ s.where_.1 ::
    (s.condition.tokens ++ [s.limit.1, .number s.rows])))

/-- The clauses of a statement. -/
def sections (s : SingleTable) : List Section :=
  [⟨.select, s.items⟩, ⟨.from_, s.entry.tokens⟩, ⟨.where_, s.condition.tokens⟩,
    ⟨.limit, [.number s.rows]⟩]

end SingleTable

theorem passes_singleTable (s : SingleTable) : Passes inBlock s.tokens := by
  have hlimit : Passes inBlock [s.limit.1, .number s.rows] :=
    (passes_word s.limit (inBlock_of_isKeyword s.limit.2 (by decide))).cons
      (.single nofun nofun rfl)
  exact passes_clauses s.select s.from_ s.where_ s.items_pass s.entry_passes
    s.condition.passes_tokens hlimit

theorem splitClauses_singleTable (s : SingleTable) :
    splitClauses s.tokens = .ok s.sections := by
  have hlimit : sectionsFrom .where_ 0 [s.limit.1, .number s.rows] =
      .ok ([], [⟨.limit, [.number s.rows]⟩]) :=
    sectionsFrom_clause (clause?_of_isKeyword s.limit.2) (by decide) rfl rfl
  exact splitClauses_clauses s.select s.from_ s.where_ s.items_pass s.entry_passes
    s.condition.passes_tokens hlimit

theorem blocksOf_singleTable {sql : List Char} {s : SingleTable}
    (h : tokenize sql = .ok s.tokens) : blocksOf sql = .ok (s.tokens, [s.sections]) := by
  have hpass := passes_singleTable s
  have hblocks : blocksFrom false 0 s.tokens = [s.tokens] := by
    have hrun := blocksFrom_run [] hpass.closed hpass.shows
    rw [List.append_nil, Int.natCast_zero] at hrun
    rw [hrun, blocksFrom, prepend_cons, List.append_nil]
  have hsplit : splitUnion s.tokens = .ok [s.tokens] := by
    rw [splitUnion, hblocks]
    rfl
  simp only [blocksOf, h, bind, Except.bind, hsplit, List.mapM_cons, List.mapM_nil,
    splitClauses_singleTable s, pure, Except.pure]

/-- A statement on one table that is scoped to a tenant.  The scan finds the operands of the
outermost conjunction of its condition just when the condition is separable.  If it is, or if one
of the operands pins the tenant column anyway, every row that meets the condition has the tenant in
the tenant column. -/
theorem row_of_scoped_statement {sql : List Char} {s : SingleTable}
    (hsql : tokenize sql = .ok s.tokens) (hscoped : holds column tenant sql = true) :
    (conjuncts s.condition.tokens = some s.condition.conjuncts ↔ s.condition.separable = true) ∧
      (s.condition.separable = true ∨ (∃ p ∈ s.condition.conjuncts,
          pins column tenant (firstNames s.entry.tokens) p = true) →
        ∀ (row : String → Option Int) (other : List Token → Option Int),
          s.condition.isTrue ⟨fun _ => row, other⟩ → row column = some tenant) := by
  obtain ⟨ts, blocks, hblocks, _, hall⟩ := checkBlock_of_holds hscoped
  rw [blocksOf_singleTable hsql] at hblocks
  cases hblocks
  have hcheck := hall s.sections List.mem_cons_self
  have hwhere : body .where_ s.sections = s.condition.tokens := rfl
  refine ⟨?_, ?_⟩
  · obtain ⟨parts, hparts, _⟩ := checkBlock_eq_ok hcheck
    rw [hwhere] at hparts
    rw [hparts, Option.some.injEq]
    exact conjuncts_eq_iff hparts
  · intro hpinned row other htrue
    rcases hpinned with hsep | ⟨p, hp, hpins⟩
    · obtain ⟨_, _, hcolumn⟩ := column_of_checkBlock hcheck hwhere hsep htrue
      exact hcolumn
    · obtain ⟨_, _, hcolumn⟩ := column_of_pinned_conjunct htrue hp hpins
      exact hcolumn

/-- The column `id`. -/
def idColumn : List Token := [.word ['i', 'd']]

/-- The column of restaurants. -/
def restaurantColumn : List Token := [.word "restaurant_id".toList]

/-- A constant of one digit. -/
def digit (c : Char) : List Token := [.number [c]]

/-- A run of tokens that tests a column for a number. -/
def equals (column number : List Token) : List Token := column ++ .operator .eq :: number

/-- The test for the rows of restaurant 74. -/
def tenantRun : Run :=
  ⟨equals restaurantColumn [.number ['7', '4']], by decide, by decide⟩

/-- The statement that selects the ids of the checks that meet a condition. -/
def checksWhere (c : Condition) : SingleTable where
  select := Keyword.select.token
  items := idColumn
  items_pass := by decide
  from_ := Keyword.from_.token
  entry := ⟨⟨.word ['c', 'h', 'e', 'c', 'k'], by decide⟩, .own⟩
  entry_passes := by decide
  where_ := Keyword.where_.token
  condition := c
  limit := Keyword.limit.token
  rows := ['5']

/-- A row of the given restaurant. -/
def rowOf (restaurant : Int) (name : String) : Option Int :=
  if name = "restaurant_id" then some restaurant else some 1

/-- The rows of one tenant in a range of ids. -/
def rangeOfTenant : Condition :=
  .and
    (.between (.atom ⟨idColumn, by decide, by decide⟩) none Keyword.between.token
      (.atom ⟨digit '1', by decide, by decide⟩) Keyword.and.token
      (.atom ⟨digit '9', by decide, by decide⟩))
    Keyword.and.token (.atom tenantRun)

/-- A statement under the condition `rangeOfTenant`. -/
def rangeText : List Char :=
  "SELECT id FROM check ".toList ++ "WHERE id BETWEEN 1 AND 9 ".toList
    ++ "AND restaurant_id = 74 LIMIT 5".toList

theorem row_of_scoped_range :
    tokenize rangeText = .ok (checksWhere rangeOfTenant).tokens ∧
      holds "restaurant_id" 74 rangeText = true ∧
      rangeOfTenant.separable = true ∧
      rangeOfTenant.isTrue ⟨fun _ => rowOf 74, fun _ => some 1⟩ ∧
      rowOf 74 "restaurant_id" = some 74 := by
  have hsql : tokenize rangeText = .ok (checksWhere rangeOfTenant).tokens := by
    rw [tokenize_eq_ok_iff]
    decide +kernel
  have hscoped : holds "restaurant_id" 74 rangeText = true := by decide +kernel
  have htrue : rangeOfTenant.isTrue ⟨fun _ => rowOf 74, fun _ => some 1⟩ := by decide
  exact ⟨hsql, hscoped, rfl, htrue,
    (row_of_scoped_statement hsql hscoped).2 (Or.inl rfl) (rowOf 74) (fun _ => some 1) htrue⟩

/-- A condition that names the tenant only inside a `CASE`. -/
def tenantInCase : Condition :=
  .choose CaseWord.case_.token
    (.when_ CaseWord.when_.token
      (.and
        (.and (.atom ⟨equals idColumn (digit '1'), by decide, by decide⟩) Keyword.and.token
          (.atom tenantRun))
        Keyword.and.token (.atom ⟨equals idColumn (digit '2'), by decide, by decide⟩))
      CaseWord.then_.token (.atom ⟨digit '0', by decide, by decide⟩)
      (.else_ CaseWord.else_.token (.atom ⟨digit '1', by decide, by decide⟩)
        CaseWord.end_.token))

/-- A statement under the condition `tenantInCase`. -/
def caseText : List Char :=
  "SELECT id FROM check ".toList ++ "WHERE CASE WHEN id = 1 ".toList
    ++ "AND restaurant_id = 74 ".toList ++ "AND id = 2 THEN 0 ".toList
    ++ "ELSE 1 END LIMIT 5".toList

/-- A conjunction inside a `CASE` is taken apart as if it were the outermost one, so a statement
passes that reads the rows of every other restaurant. -/
theorem scoped_statement_reads_other_restaurant :
    tokenize caseText = .ok (checksWhere tenantInCase).tokens ∧
      holds "restaurant_id" 74 caseText = true ∧
      tenantInCase.separable = false ∧
      tenantInCase.isTrue ⟨fun _ => rowOf 75, fun _ => some 1⟩ ∧
      rowOf 75 "restaurant_id" ≠ some 74 := by
  refine ⟨?_, by decide +kernel, rfl, by decide +kernel, by decide⟩
  rw [tokenize_eq_ok_iff]
  decide +kernel

end Scope
end QueryGate
