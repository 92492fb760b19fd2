import QueryGate.Proofs.Guard.Listing
import QueryGate.Proofs.Scope.Uses

/-!
# Rows of one tenant

What a query block asks of the rows that it picks, one for each of its tables: the equalities of
the joins and the condition.  The scope check pins one table.  A block with one join has no other
with the tenant column, since the guard allows no join between two of those; behind further joins
there can be more, and a row of one that the condition does not ask about can belong to any tenant.
-/

namespace QueryGate

namespace Sql

/-- The tests of columns in a condition. -/
def Phrase.tests : {f : Form} → Phrase f → List ColumnTest
  | _, .atom run => (columnTest? run.tokens).toList
  | _, .group c | _, .not _ c => c.tests
  | _, .and l _ r | _, .xor l _ r | _, .or l _ r => l.tests ++ r.tests
  | _, .between x _ _ low _ high => x.tests ++ (low.tests ++ high.tests)
  | _, .choose _ b => b.tests
  | _, .when_ _ c _ r more => c.tests ++ (r.tests ++ more.tests)
  | _, .else_ _ r _ => r.tests
  | _, .end_ _ => []

/-- The value that a valuation gives to the column of a test. -/
def Valuation.ofColumn (v : Valuation) (t : ColumnTest) : Option Int :=
  v.column (t.qualifier.map Token.name) t.column.name

/-- A condition depends on the columns that it tests only. -/
theorem Phrase.value_congr {f : Form} {c : Phrase f} {v w : Valuation} (hother : v.other = w.other)
    (h : ∀ t ∈ c.tests, v.ofColumn t = w.ofColumn t) : c.value v = c.value w := by
  induction c with
  | atom run =>
    show v.ofRun run.tokens = w.ofRun run.tokens
    unfold Valuation.ofRun
    cases ht : columnTest? run.tokens with
    | none => exact congrFun hother _
    | some t =>
      have htest : v.ofColumn t = w.ofColumn t := h t (by simp [Phrase.tests, ht])
      unfold Valuation.ofColumn at htest
      simp only [htest]
  | group c ih => exact ih h
  | not _ c ih => simp only [Phrase.value, ih h]
  | and l _ r ihl ihr | xor l _ r ihl ihr | or l _ r ihl ihr =>
    simp only [Phrase.tests, List.mem_append] at h
    simp only [Phrase.value, ihl fun t ht => h t (Or.inl ht), ihr fun t ht => h t (Or.inr ht)]
  | between x _ _ low _ high ihx ihl ihh =>
    simp only [Phrase.tests, List.mem_append] at h
    simp only [Phrase.value, ihx fun t ht => h t (Or.inl ht),
      ihl fun t ht => h t (Or.inr (Or.inl ht)), ihh fun t ht => h t (Or.inr (Or.inr ht))]
  | choose _ b ih => exact ih h
  | when_ _ c _ r more ihc ihr ihm =>
    simp only [Phrase.tests, List.mem_append] at h
    simp only [Phrase.value, ihc fun t ht => h t (Or.inl ht),
      ihr fun t ht => h t (Or.inr (Or.inl ht)), ihm fun t ht => h t (Or.inr (Or.inr ht))]
  | else_ _ r _ ih => exact ih h
  | end_ _ => rfl

end Sql

namespace Scope

open Sql

/-! ### Rows picked for the tables of a block -/

/-- What a column of a row can hold. -/
inductive Cell where
  | number (n : Int)
  | text (s : String)
  deriving DecidableEq

/-- The number in a cell. -/
def Cell.number? : Cell → Option Int
  | number n => some n
  | text _ => none

/-- A row that is picked for a table of a block.  Where a column has no value, it has no cell. -/
structure Pick where
  entry : Entry
  cells : String → Option Cell

/-- A pick with another cell in a column. -/
def Pick.put (x : Pick) (column : String) (cell : Option Cell) : Pick :=
  { x with cells := fun name => if name = column then cell else x.cells name }

section Picks

variable (a : AllowList) (further : String → String → Bool)

/-- Whether a table has a column: a listed one, or a further one that is not the tenant column. -/
def hasColumn (table column : String) : Bool :=
  (a.columns table).contains column || (column != a.tenantColumn && further table column)

/-- Whether a table of a block has the tenant column. -/
def hasTenant (e : Entry) : Bool := (a.columns e.tableName).contains a.tenantColumn

/-- Whether a table of a block answers for a column, which can be qualified by a name. -/
def answers (q : Option String) (column : String) (e : Entry) : Bool :=
  q.all (· == e.visibleName) && hasColumn a further e.tableName column

/-- The cell that a column stands for: that of the only table that answers for it. -/
def cellOf (choice : List Pick) (q : Option String) (column : String) : Option Cell :=
  match choice.filter fun x => answers a further q column x.entry with
  | [x] => x.cells column
  | _ => none

/-- What a condition sees of the picked rows. -/
def seen (choice : List Pick) (other : List Token → Option Int) : Valuation :=
  ⟨fun q column => (cellOf a further choice q column).bind Cell.number?, other⟩

/-- Whether an equality holds between the picked rows. -/
def joins (choice : List Pick) (e : Equality) : Prop :=
  ∃ cell, cellOf a further choice (some e.leftTable.1.name) e.leftColumn.1.name = some cell ∧
    cellOf a further choice (some e.rightTable.1.name) e.rightColumn.1.name = some cell

/-- A choice of one row for every table of a block that meets what the block asks: the equalities
of the joins and the condition.  What the atoms say that are no tests of a column is open. -/
structure Meets (l : Listing) (c : Condition) (other : List Token → Option Int)
    (choice : List Pick) : Prop where
  tables : choice.map (·.entry) = l.entries
  joined : ∀ j ∈ l.joins, joins a further choice j.condition
  condition : c.isTrue (seen a further choice other)

/-- Whether a block holds a table to a tenant: an outermost conjunct pins the tenant column under
the name of the table, or the table is the only one that has the column. -/
def isHeld (tenant : Int) (l : Listing) (c : Condition) (e : Entry) : Prop :=
  (∃ p ∈ c.conjuncts, pins a.tenantColumn tenant [e.visibleName] p = true) ∨
    (c.separable = true ∧ (l.entries.filter (hasTenant a)).length ≤ 1)

/-- Whether a condition asks nothing about the tenant column of a table. -/
def isUnasked (l : Listing) (c : Condition) (e : Entry) : Prop :=
  ∀ t ∈ c.tests, t.column.name = a.tenantColumn →
    l.entries.filter (answers a further (t.qualifier.map Token.name) a.tenantColumn) ≠ [e]

/-- Whether a condition tests the tenant column in outermost conjuncts only. -/
def testsOutermost (c : Condition) : Prop :=
  ∀ t ∈ c.tests, t.column.name = a.tenantColumn → ∃ p ∈ c.conjuncts, columnTest? p = some t

/-- Whether every row that a block can pick from a table with the tenant column belongs to the
tenant. -/
def isIsolated (tenant : Int) (l : Listing) (c : Condition) (other : List Token → Option Int) :
    Prop :=
  ∀ choice, Meets a further l c other choice → ∀ x ∈ choice, hasTenant a x.entry = true →
    x.cells a.tenantColumn = some (.number tenant)

end Picks

variable {a : AllowList} {further : String → String → Bool}

theorem answers_tenant (q : Option String) (e : Entry) :
    answers a further q a.tenantColumn e = (q.all (· == e.visibleName) && hasTenant a e) := by
  simp [answers, hasColumn, hasTenant]

/-- A column with a cell is the column of the only table that answers for it. -/
theorem cellOf_eq_some {choice : List Pick} {q : Option String} {column : String} {cell : Cell}
    (h : cellOf a further choice q column = some cell) :
    ∃ x ∈ choice, answers a further q column x.entry = true ∧ x.cells column = some cell ∧
      ∀ y ∈ choice, answers a further q column y.entry = true → y = x := by
  unfold cellOf at h
  split at h
  · rename_i x hfilter
    have hx : x ∈ choice.filter fun x => answers a further q column x.entry := by
      rw [hfilter]
      exact List.mem_singleton_self x
    obtain ⟨hmem, hanswers⟩ := List.mem_filter.mp hx
    refine ⟨x, hmem, hanswers, h, ?_⟩
    intro y hy hyanswers
    have hin : y ∈ choice.filter fun x => answers a further q column x.entry :=
      List.mem_filter.mpr ⟨hy, hyanswers⟩
    rw [hfilter] at hin
    exact List.mem_singleton.mp hin
  · cases h

/-! ### Tables that are held to the tenant -/

section Held

variable {tenant : Int} {l : Listing} {c : Condition} {other : List Token → Option Int}
  {choice : List Pick}

theorem number_of_seen {q : Option String} {column : String} {n : Int}
    (h : (seen a further choice other).column q column = some n) :
    cellOf a further choice q column = some (.number n) := by
  obtain ⟨cell, hcell, hn⟩ := Option.bind_eq_some_iff.mp h
  cases cell with
  | number m =>
    cases hn
    exact hcell
  | text s => cases hn

/-- A table whose tenant column an outermost conjunct pins gives rows of the tenant only. -/
theorem tenant_of_pinned {x : Pick} (hx : x ∈ choice) (htenant : hasTenant a x.entry = true)
    (htrue : c.isTrue (seen a further choice other)) {p : List Token} (hp : p ∈ c.conjuncts)
    (hpins : pins a.tenantColumn tenant [x.entry.visibleName] p = true) :
    x.cells a.tenantColumn = some (.number tenant) := by
  obtain ⟨q, hq, hcolumn⟩ := column_of_pinned_conjunct htrue hp hpins
  obtain ⟨y, _, _, hcell, honly⟩ := cellOf_eq_some (number_of_seen hcolumn)
  have hanswers : answers a further q a.tenantColumn x.entry = true := by
    rw [answers_tenant, htenant, Bool.and_true]
    cases q with
    | none => rfl
    | some name => simpa using hq name rfl
  rw [honly x hx hanswers]
  exact hcell

/-- A block that passes pins one of its tables. -/
theorem exists_tenant {sections : List Section}
    (hcheck : checkBlock a.tenantColumn tenant sections = .ok ())
    (hwhere : body .where_ sections = c.tokens) (hsep : c.separable = true)
    (htrue : c.isTrue (seen a further choice other)) :
    ∃ x ∈ choice, hasTenant a x.entry = true ∧ x.cells a.tenantColumn = some (.number tenant) := by
  obtain ⟨q, _, hcolumn⟩ := column_of_checkBlock hcheck hwhere hsep htrue
  obtain ⟨x, hx, hanswers, hcell, _⟩ := cellOf_eq_some (number_of_seen hcolumn)
  rw [answers_tenant, Bool.and_eq_true] at hanswers
  exact ⟨x, hx, hanswers.2, hcell⟩

theorem eq_of_length_filter_le_one {α : Type} {p : α → Bool} {xs : List α}
    (h : (xs.filter p).length ≤ 1) {x y : α} (hx : x ∈ xs) (hy : y ∈ xs) (hpx : p x = true)
    (hpy : p y = true) : x = y := by
  have hxin := List.mem_filter.mpr ⟨hx, hpx⟩
  have hyin := List.mem_filter.mpr ⟨hy, hpy⟩
  match hxs : xs.filter p with
  | [] =>
    rw [hxs] at hxin
    cases hxin
  | [z] =>
    rw [hxs] at hxin hyin
    rw [List.mem_singleton.mp hxin, List.mem_singleton.mp hyin]
  | z :: z' :: more =>
    rw [hxs] at h
    simp at h

/-- A table that a block holds to the tenant gives rows of the tenant only. -/
theorem tenant_of_held {sections : List Section}
    (hcheck : checkBlock a.tenantColumn tenant sections = .ok ())
    (hwhere : body .where_ sections = c.tokens) (hmeets : Meets a further l c other choice)
    {x : Pick} (hx : x ∈ choice) (htenant : hasTenant a x.entry = true)
    (hheld : isHeld a tenant l c x.entry) : x.cells a.tenantColumn = some (.number tenant) := by
  rcases hheld with ⟨p, hp, hpins⟩ | ⟨hsep, honly⟩
  · exact tenant_of_pinned hx htenant hmeets.condition hp hpins
  · obtain ⟨y, hy, hytenant, hcell⟩ := exists_tenant hcheck hwhere hsep hmeets.condition
    have hlength : (choice.filter fun z => hasTenant a z.entry).length ≤ 1 := by
      have hmap := List.filter_map (f := fun z : Pick => z.entry) (p := hasTenant a) (l := choice)
      rw [hmeets.tables] at hmap
      rw [hmap, List.length_map] at honly
      exact honly
    rw [eq_of_length_filter_le_one hlength hx hy htenant hytenant]
    exact hcell

/-! ### Tables that a condition does not ask about -/

variable {front back : List Pick} {x : Pick}

theorem cellOf_put {q : Option String} {column name : String} (cell : Option Cell)
    (h : name = column →
      ((front ++ x :: back).map (·.entry)).filter (answers a further q name) ≠ [x.entry]) :
    cellOf a further (front ++ x.put column cell :: back) q name =
      cellOf a further (front ++ x :: back) q name := by
  have hput : (x.put column cell).entry = x.entry := rfl
  rw [List.filter_map] at h
  unfold cellOf
  rw [List.filter_append, List.filter_append, List.filter_cons, List.filter_cons, hput]
  cases hx : answers a further q name x.entry with
  | false => rfl
  | true =>
    cases hfront : front.filter fun y => answers a further q name y.entry with
    | nil =>
      cases hback : back.filter fun y => answers a further q name y.entry with
      | nil =>
        by_cases hname : name = column
        · refine absurd ?_ (h hname)
          rw [List.filter_append, List.filter_cons]
          simp only [Function.comp_def, hx, hfront, hback]
          rfl
        · simp [Pick.put, hname]
      | cons y ys => rfl
    | cons y ys => cases ys <;> rfl

/-- Whatever a row holds in a tenant column that is not asked about, the block can pick it. -/
theorem meets_put (hmeets : Meets a further l c other (front ++ x :: back))
    (hjoins : ∀ j ∈ l.joins, j.condition.leftColumn.1.name ≠ a.tenantColumn ∧
      j.condition.rightColumn.1.name ≠ a.tenantColumn)
    (hunasked : isUnasked a further l c x.entry) (cell : Option Cell) :
    Meets a further l c other (front ++ x.put a.tenantColumn cell :: back) := by
  obtain ⟨htables, hjoined, hcondition⟩ := hmeets
  refine ⟨?_, ?_, ?_⟩
  · rw [← htables]
    simp [Pick.put]
  · intro j hj
    obtain ⟨found, hleft, hright⟩ := hjoined j hj
    obtain ⟨hl, hr⟩ := hjoins j hj
    refine ⟨found, ?_, ?_⟩
    · rw [cellOf_put cell fun h => absurd h hl]
      exact hleft
    · rw [cellOf_put cell fun h => absurd h hr]
      exact hright
  · unfold Phrase.isTrue at hcondition ⊢
    rw [← hcondition]
    refine congrArg truth (Phrase.value_congr rfl ?_)
    intro t ht
    unfold Valuation.ofColumn seen
    dsimp only
    rw [cellOf_put]
    intro hname
    rw [htables, hname]
    exact hunasked t ht hname

/-- A table with the tenant column is held to the tenant, or the condition does not ask about it. -/
theorem held_or_unasked {ts : List Token} (huses : usesPinned a.tenantColumn tenant [] ts = true)
    (hc : c.tokens <:+: ts) (htests : testsOutermost a c) (e : Entry) :
    isHeld a tenant l c e ∨ isUnasked a further l c e := by
  by_cases hheld : isHeld a tenant l c e
  · exact Or.inl hheld
  · refine Or.inr fun t ht hname honly => hheld ?_
    obtain ⟨p, hp, htest⟩ := htests t ht hname
    have he : e ∈ l.entries.filter
        (answers a further (t.qualifier.map Token.name) a.tenantColumn) := by
      rw [honly]
      exact List.mem_singleton_self e
    have hanswers := (List.mem_filter.mp he).2
    rw [answers_tenant, Bool.and_eq_true] at hanswers
    refine Or.inl ⟨p, hp, ?_⟩
    refine pins_of_columnTest? huses ((Phrase.infix_of_mem_conjuncts hp).trans hc) htest hname ?_
    intro name hq
    rw [hq] at hanswers
    simpa using hanswers.1

end Held

end Scope

end QueryGate
