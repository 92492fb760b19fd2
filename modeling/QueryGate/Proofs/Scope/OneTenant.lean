import QueryGate.Proofs.Guard.Wording
import QueryGate.Proofs.Scope.Isolation

/-!
# Accepted statements and their tenant

The guard allows joins between checks and their templates only, and templates belong to no tenant.
So a block of an accepted statement with one join has one table with the tenant column, which the
scope check pins.
-/

namespace QueryGate
namespace Scope

open Sql Guard

/-! ### The joins that the guard allows -/

/-- No name of a listed table has a blank. -/
theorem space_not_mem_of_hasTable {table : String} (h : Policy.shipped.hasTable table = true) :
    ' ' ∉ table.toList := by
  have hall : ∀ entry ∈ Policy.shippedTables, ' ' ∉ entry.1.toList := by decide
  obtain ⟨columns, hmem⟩ := AllowList.exists_mem_of_hasTable h
  exact hall (table, columns) hmem

theorem findJoin_shipped {leftTable leftColumn rightTable rightColumn : String}
    (h : (Policy.shipped.findJoin leftTable leftColumn rightTable rightColumn).isSome = true) :
    (leftTable = "daily_check" ∧ leftColumn = "qid" ∧ rightTable = "template" ∧
      rightColumn = "id") ∨
    (leftTable = "template" ∧ leftColumn = "id" ∧ rightTable = "daily_check" ∧
      rightColumn = "qid") := by
  simp only [AllowList.findJoin, Policy.shipped, List.find?_singleton, Option.isSome_ite,
    JoinShape.covers, Bool.or_eq_true, beq_iff_eq, JoinShape.mk.injEq] at h
  rcases h with ⟨rfl, rfl, rfl, rfl⟩ | ⟨rfl, rfl, rfl, rfl⟩
  · exact Or.inl ⟨rfl, rfl, rfl, rfl⟩
  · exact Or.inr ⟨rfl, rfl, rfl, rfl⟩

section Accepted

variable {sql : List Char} (haccepted : Guard.accepts Policy.shipped sql = true)
  {ts : List Token} {blocks : List (List Section)} (hblocks : blocksOf sql = .ok (ts, blocks))
  {sections : List Section} (hsections : sections ∈ blocks)
include haccepted hblocks hsections

/-- What the guard has made sure of the joins of a block: they are between checks and templates, on
other columns than that of the tenant. -/
theorem joins_of_accepted {l : Listing} (hfrom : body .from_ sections = l.tokens) {j : Joined}
    (hj : j ∈ l.joins) :
    (∃ e ∈ l.entries, e.tableName = "template") ∧
      j.condition.leftColumn.1.name ≠ Policy.shipped.tenantColumn ∧
      j.condition.rightColumn.1.name ≠ Policy.shipped.tenantColumn := by
  obtain ⟨q, hrefs, _, hallowed, hjoins⟩ := read_of_accepts haccepted hblocks hsections hfrom
  obtain ⟨leftName, leftColumn, rightName, rightColumn, leftTable, rightTable, hon, hleft, hright,
    hshape⟩ := checkJoin_eq_ok (hjoins j hj)
  have named {name table : String} (h : q.tableNamed? name = some table) :
      ∃ e ∈ l.entries, e.tableName = table := by
    obtain ⟨ref, hmem, _, rfl⟩ := isNamed_of_tableNamed? h
    rw [hrefs] at hmem
    obtain ⟨e, he, rfl⟩ := List.mem_map.mp hmem
    have htable := space_not_mem_of_hasTable (hallowed e he)
    exact ⟨e, he, (name_collapsed (isIdentifier_of_plain e.table) htable).symm⟩
  have column {n : InnerName} {m : Name} {name : String} (h : n.1.collapsed = m.1)
      (hm : m.1.name = name) (hname : ' ' ∉ name.toList) : n.1.name = name := by
    rw [← name_collapsed n.2.1 (by rwa [h, hm]), h, hm]
  have hnames : (collapsedName j.condition.leftColumn).1 = leftColumn.1 ∧
      (collapsedName j.condition.rightColumn).1 = rightColumn.1 := by
    have hon' : j.condition.collapsed.tokens = _ := hon
    simp only [Equality.tokens, List.cons.injEq] at hon'
    exact ⟨hon'.2.2.1, hon'.2.2.2.2.2.2.1⟩
  rcases findJoin_shipped hshape with ⟨_, hl, rfl, hr⟩ | ⟨rfl, hl, _, hr⟩
  · refine ⟨named hright, ?_, ?_⟩
    · rw [column hnames.1 hl (by decide)]
      decide
    · rw [column hnames.2 hr (by decide)]
      decide
  · refine ⟨named hleft, ?_, ?_⟩
    · rw [column hnames.1 hl (by decide)]
      decide
    · rw [column hnames.2 hr (by decide)]
      decide

/-- A block with at most one join has at most one table with the tenant column. -/
theorem length_tenants_le_one {l : Listing} (hfrom : body .from_ sections = l.tokens)
    (hjoins : l.joins.length ≤ 1) :
    (l.entries.filter (hasTenant Policy.shipped)).length ≤ 1 := by
  cases hl : l.joins with
  | nil =>
    have hlength := List.length_filter_le (hasTenant Policy.shipped) l.entries
    simpa [Listing.entries, hl] using hlength
  | cons j more =>
    obtain ⟨⟨e, he, htemplate⟩, _⟩ :=
      joins_of_accepted haccepted hblocks hsections hfrom (hl ▸ List.mem_cons_self)
    have hnone : hasTenant Policy.shipped e = false := by
      unfold hasTenant
      rw [htemplate]
      decide
    have hlt : (l.entries.filter (hasTenant Policy.shipped)).length < l.entries.length :=
      List.length_filter_lt_length_iff_exists.mpr ⟨e, he, by simp [hnone]⟩
    have hlength : l.entries.length = l.joins.length + 1 := by simp [Listing.entries]
    omega

end Accepted

/-- A block is isolated just when every table with the tenant column is held to the tenant, provided
that the block can pick rows at all and asks for the tenant column in outermost conjuncts only. -/
theorem isIsolated_iff {a : AllowList} {further : String → String → Bool} {tenant : Int}
    {l : Listing} {c : Condition} {other : List Token → Option Int} {ts : List Token}
    {sections : List Section} (hcheck : checkBlock a.tenantColumn tenant sections = .ok ())
    (huses : usesPinned a.tenantColumn tenant [] ts = true)
    (hwhere : body .where_ sections = c.tokens) (hc : c.tokens <:+: ts)
    (hjoins : ∀ j ∈ l.joins, j.condition.leftColumn.1.name ≠ a.tenantColumn ∧
      j.condition.rightColumn.1.name ≠ a.tenantColumn)
    (htests : testsOutermost a c) {choice : List Pick} (hmeets : Meets a further l c other choice) :
    isIsolated a further tenant l c other ↔
      ∀ e ∈ l.entries, hasTenant a e = true → isHeld a tenant l c e := by
  constructor
  · intro hisolated e he htenant
    rcases held_or_unasked huses hc htests e with hheld | hunasked
    · exact hheld
    · exfalso
      rw [← hmeets.tables] at he
      obtain ⟨x, hx, rfl⟩ := List.mem_map.mp he
      obtain ⟨front, back, rfl⟩ := List.append_of_mem hx
      have hput := meets_put hmeets hjoins hunasked none
      have hcell := hisolated _ hput (x.put a.tenantColumn none) (by simp) htenant
      simp [Pick.put] at hcell
  · intro hheld choice' hmeets' x hx htenant
    have he : x.entry ∈ l.entries := by
      rw [← hmeets'.tables]
      exact List.mem_map_of_mem hx
    exact tenant_of_held hcheck hwhere hmeets' hx htenant (hheld x.entry he htenant)

/-- The rows that a block of an accepted and scoped statement can pick.  Its tables are a listing,
and one of them is pinned to the tenant if the condition is separable.  A table that the block holds
to the tenant gives rows of the tenant only, and all of them are held if there is at most one join
and the condition is separable.  If the condition tests the tenant column in outermost conjuncts
only, a table that is not held gives rows of anyone. -/
theorem tenant_of_accepted_statement {sql : List Char} {tenant : Int}
    (haccepted : Guard.accepts Policy.shipped sql = true)
    (hscoped : holds Policy.shipped.tenantColumn tenant sql = true) :
    ∃ ts blocks, blocksOf sql = .ok (ts, blocks) ∧ ∀ sections ∈ blocks,
      (∃ l : Listing, body .from_ sections = l.tokens) ∧
      ∀ (l : Listing) (c : Condition), body .from_ sections = l.tokens →
        body .where_ sections = c.tokens →
        (l.joins.length ≤ 1 → c.separable = true →
          ∀ e ∈ l.entries, isHeld Policy.shipped tenant l c e) ∧
        ∀ further other,
          (c.separable = true → ∀ choice, Meets Policy.shipped further l c other choice →
            ∃ x ∈ choice, hasTenant Policy.shipped x.entry = true ∧
              x.cells Policy.shipped.tenantColumn = some (.number tenant)) ∧
          (∀ choice, Meets Policy.shipped further l c other choice → ∀ x ∈ choice,
            hasTenant Policy.shipped x.entry = true → isHeld Policy.shipped tenant l c x.entry →
            x.cells Policy.shipped.tenantColumn = some (.number tenant)) ∧
          (testsOutermost Policy.shipped c →
            (∃ choice, Meets Policy.shipped further l c other choice) →
            (isIsolated Policy.shipped further tenant l c other ↔
              ∀ e ∈ l.entries, hasTenant Policy.shipped e = true →
                isHeld Policy.shipped tenant l c e)) := by
  obtain ⟨ts, blocks, hblocks, huses, hchecks⟩ := checkBlock_of_holds hscoped
  refine ⟨ts, blocks, hblocks, ?_⟩
  intro sections hsections
  refine ⟨exists_listing haccepted hblocks hsections, ?_⟩
  intro l c hfrom hwhere
  have hcheck := hchecks sections hsections
  refine ⟨?_, ?_⟩
  · intro hlength hsep e he
    exact Or.inr ⟨hsep, length_tenants_le_one haccepted hblocks hsections hfrom hlength⟩
  · intro further other
    refine ⟨?_, ?_, ?_⟩
    · intro hsep choice hmeets
      exact exists_tenant hcheck hwhere hsep hmeets.condition
    · intro choice hmeets x hx htenant hheld
      exact tenant_of_held hcheck hwhere hmeets hx htenant hheld
    · rintro htests ⟨choice, hmeets⟩
      refine isIsolated_iff hcheck huses hwhere ?_ ?_ htests hmeets
      · rw [← hwhere]
        exact clause_isInfix hblocks hsections
      · intro j hj
        exact (joins_of_accepted haccepted hblocks hsections hfrom hj).2

/-! ### Checks joined through their template -/

/-- A word that is no keyword. -/
abbrev FreeWord := { letters : List Char // Keyword.ofWord? letters = none }

/-- A word that is no keyword, as the name of a table. -/
def FreeWord.plain (w : FreeWord) : PlainName :=
  ⟨.word w.1, by simp [Token.isPlainIdentifier, Token.isIdentifier, Token.isReserved,
    Token.keyword?, w.2]⟩

/-- A word that is no keyword, as a name in the condition of a join. -/
def FreeWord.inner (w : FreeWord) : InnerName :=
  ⟨.word w.1, rfl, by simp [announcesJoin, Token.isOneOf, Token.isKeyword, Token.keyword?, w.2]⟩

/-- The name `d`. -/
def letterD : FreeWord := ⟨['d'], by rw [Keyword.ofWord?_eq]; decide⟩

/-- The name `e`. -/
def letterE : FreeWord := ⟨['e'], by rw [Keyword.ofWord?_eq]; decide⟩

/-- The name `t`. -/
def letterT : FreeWord := ⟨['t'], by rw [Keyword.ofWord?_eq]; decide⟩

/-- The checks under another name. -/
def checksAs (w : FreeWord) : Entry :=
  ⟨FreeWord.plain ⟨['d', 'a', 'i', 'l', 'y', '_', 'c', 'h', 'e', 'c', 'k'],
    by rw [Keyword.ofWord?_eq]; decide⟩, .plain w.plain⟩

/-- The templates under another name. -/
def templatesAs (w : FreeWord) : Entry :=
  ⟨FreeWord.plain ⟨['t', 'e', 'm', 'p', 'l', 'a', 't', 'e'],
    by rw [Keyword.ofWord?_eq]; decide⟩, .plain w.plain⟩

/-- The equality of the template of a check and the template `t`. -/
def templateOf (check : FreeWord) : Equality where
  leftTable := check.inner
  leftColumn := FreeWord.inner ⟨['q', 'i', 'd'], by rw [Keyword.ofWord?_eq]; decide⟩
  rightTable := letterT.inner
  rightColumn := FreeWord.inner ⟨['i', 'd'], by rw [Keyword.ofWord?_eq]; decide⟩

/-- A joined table with its condition. -/
def joinedOn (e : Entry) (condition : Equality) : Joined :=
  ⟨.plain Keyword.join.token, e, Keyword.on_.token, condition⟩

/-- The checks `d` with their templates. -/
def checksAndTemplates : Listing :=
  ⟨checksAs letterD, [joinedOn (templatesAs letterT) (templateOf letterD)]⟩

/-- The checks `d` with their templates and all checks `e` of the same template. -/
def checksOfSameTemplate : Listing :=
  { checksAndTemplates with
    joins := checksAndTemplates.joins ++
      [joinedOn (checksAs letterE) (templateOf letterE)] }

/-- The test for the checks `d` of restaurant 74. -/
def tenantOfD : Condition :=
  .atom ⟨letterD.plain.1 :: .dot :: equals restaurantColumn [.number ['7', '4']],
    by decide, by decide⟩

/-- The tokens of a statement that selects the ids of the checks `d`. -/
def idsFrom (l : Listing) (c : Condition) : List Token :=
  Keyword.select.token.1 :: letterD.plain.1 :: .dot :: .word ['i', 'd'] :: Keyword.from_.token.1 ::
    (l.tokens ++ Keyword.where_.token.1 :: (c.tokens ++ [Keyword.limit.token.1, .number ['5']]))

/-- The clauses of such a statement. -/
def idSections (l : Listing) (c : Condition) : List Section :=
  [⟨.select, [letterD.plain.1, .dot, .word ['i', 'd']]⟩, ⟨.from_, l.tokens⟩,
    ⟨.where_, c.tokens⟩, ⟨.limit, [.number ['5']]⟩]

/-- A row of a check of the given restaurant. -/
def checkRow (e : Entry) (restaurant : Int) : Pick :=
  ⟨e, fun column => if column = "restaurant_id" then some (.number restaurant) else some (.number 1)⟩

/-- A row of a template, which belongs to no restaurant. -/
def templateRow : Pick :=
  ⟨templatesAs letterT, fun column => if column = "restaurant_id" then none else some (.number 1)⟩

/-- The text of a statement on the checks `d` and their templates. -/
def pairText : List Char :=
  "SELECT d.id FROM daily_check d ".toList ++ "JOIN template t ON d.qid = t.id ".toList
    ++ "WHERE d.restaurant_id = 74 LIMIT 5".toList

theorem accepts_pairText : Guard.accepts Policy.shipped pairText = true := by
  apply Guard.accepts_of_isQuietQuery
  unfold pairText
  rewrite [String.toList_ofList, String.toList_ofList, String.toList_ofList]
  decide +kernel

theorem blocksOf_pairText : blocksOf pairText =
    .ok (idsFrom checksAndTemplates tenantOfD, [idSections checksAndTemplates tenantOfD]) := by
  have htokens : tokenize pairText = .ok (idsFrom checksAndTemplates tenantOfD) := by
    rw [tokenize_eq_ok_iff]
    unfold pairText
    rewrite [String.toList_ofList, String.toList_ofList, String.toList_ofList]
    decide +kernel
  rw [blocksOf, htokens]
  rfl

theorem tenant_of_checks_and_templates :
    Guard.accepts Policy.shipped pairText = true ∧
      holds Policy.shipped.tenantColumn 74 pairText = true ∧
      Meets Policy.shipped (fun _ _ => false) checksAndTemplates tenantOfD (fun _ => none)
        [checkRow checksAndTemplates.first 74, templateRow] ∧
      (checkRow checksAndTemplates.first 74).cells "restaurant_id" = some (.number 74) := by
  have hscoped : holds Policy.shipped.tenantColumn 74 pairText = true := by decide +kernel
  have hmeets : Meets Policy.shipped (fun _ _ => false) checksAndTemplates tenantOfD
      (fun _ => none) [checkRow checksAndTemplates.first 74, templateRow] := by
    refine ⟨rfl, ?_, by decide⟩
    intro j hj
    obtain rfl := List.mem_singleton.mp hj
    exact ⟨.number 1, by decide, by decide⟩
  refine ⟨accepts_pairText, hscoped, hmeets, ?_⟩
  obtain ⟨ts, blocks, hblocks, hall⟩ := tenant_of_accepted_statement accepts_pairText hscoped
  rw [blocksOf_pairText] at hblocks
  cases hblocks
  obtain ⟨hheld, hrows⟩ := (hall _ List.mem_cons_self).2 checksAndTemplates tenantOfD rfl rfl
  exact (hrows _ _).2.1 _ hmeets _ List.mem_cons_self (by decide)
    (hheld (by decide) rfl _ List.mem_cons_self)

/-- A statement on the checks `d` and all checks of the same template. -/
def sameTemplateText : List Char :=
  "SELECT d.id FROM daily_check d ".toList ++ "JOIN template t ON d.qid = t.id ".toList
    ++ "JOIN daily_check e ON e.qid = t.id ".toList
    ++ "WHERE d.restaurant_id = 74 LIMIT 5".toList

/-- Checks of all restaurants have the same templates, so a statement that joins checks to the
templates of a tenant's checks reads the rows of every other restaurant. -/
theorem accepted_statement_reads_other_restaurant :
    Guard.accepts Policy.shipped sameTemplateText = true ∧
      holds Policy.shipped.tenantColumn 74 sameTemplateText = true ∧
      tokenize sameTemplateText = .ok (idsFrom checksOfSameTemplate tenantOfD) ∧
      ∃ choice,
        Meets Policy.shipped (fun _ _ => false) checksOfSameTemplate tenantOfD (fun _ => none)
          choice ∧
        ∃ x ∈ choice, hasTenant Policy.shipped x.entry = true ∧
          x.cells Policy.shipped.tenantColumn = some (.number 75) := by
  refine ⟨Guard.accepts_of_isQuietQuery (by decide +kernel), by decide +kernel, ?_, ?_⟩
  · rw [tokenize_eq_ok_iff]
    decide +kernel
  · refine ⟨[checkRow checksAndTemplates.first 74, templateRow,
      checkRow (checksAs letterE) 75], ?_, _,
      List.mem_cons_of_mem _ (List.mem_cons_of_mem _ List.mem_cons_self), by decide, rfl⟩
    refine ⟨rfl, ?_, by decide⟩
    intro j hj
    rcases List.mem_cons.mp hj with rfl | hj
    · exact ⟨.number 1, by decide, by decide⟩
    · obtain rfl := List.mem_singleton.mp hj
      exact ⟨.number 1, by decide, by decide⟩

end Scope
end QueryGate
