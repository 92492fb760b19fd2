import QueryGate.Proofs.Guard.SameBlocks

/-!
# What passes the guard

Each check of the guard passes just when what it looks for is there.  So an accepted statement can
be described without the order of the checks and without the reasons for which they fail.
-/

namespace QueryGate

namespace Guard

open Sql

variable {a : AllowList} {q : Query}

/-! ### Reading -/

/-- The tables that a block reads, if it has any. -/
def tablesFrom (ts : List Token) : Except Rejection (Option Source) :=
  if ts = [] then .ok none else (sourceOf ts).map some

theorem ofBlock_eq_ok_iff {block : List Token} {q : Query} :
    Query.ofBlock block = .ok q ↔ (block.tail.any fun u => u.isKeyword .select) = false ∧
      ∃ sections, splitClauses block = .ok sections ∧ q.select = body .select sections ∧
        q.limit = body? .limit sections ∧ tablesFrom (body .from_ sections) = .ok q.source := by
  constructor
  · intro h
    obtain ⟨hnested, sections, hsplit, hselect, hlimit, hsource⟩ := ofBlock_eq_ok h
    refine ⟨hnested, sections, hsplit, hselect, hlimit, ?_⟩
    rcases hsource with ⟨hnone, hempty⟩ | ⟨source, hsome, hread⟩
    · rw [tablesFrom, if_pos hempty, hnone]
    · have hne : body .from_ sections ≠ [] := by
        intro hnil
        rw [hnil] at hread
        cases hread
      rw [tablesFrom, if_neg hne, hread, hsome]
      rfl
  · rintro ⟨hnested, sections, hsplit, hselect, hlimit, hfrom⟩
    obtain ⟨select, source, limit⟩ := q
    obtain rfl : select = _ := hselect
    obtain rfl : limit = _ := hlimit
    obtain ⟨t, r, _, _, rfl, hkey, _, _⟩ := splitClauses_eq_ok hsplit
    rw [List.tail_cons] at hnested
    simp only [Query.ofBlock, hkey, hnested, hsplit, Bool.not_true, Bool.false_eq_true, ↓reduceIte]
    rw [tablesFrom] at hfrom
    cases hbody : body .from_ sections with
    | nil =>
      rw [if_pos hbody] at hfrom
      cases hfrom
      rfl
    | cons u us =>
      rw [hbody, if_neg (List.cons_ne_nil _ _)] at hfrom
      cases hread : sourceOf (u :: us) with
      | error e =>
        rw [hread] at hfrom
        cases hfrom
      | ok found =>
        rw [hread] at hfrom
        cases hfrom
        simp only [hread]

/-- Whether tokens are read as the given query blocks. -/
def readsAs (ts : List Token) (queries : List Query) : Prop :=
  ∃ parts, splitUnion ts = .ok parts ∧ parts.mapM Query.ofBlock = .ok queries

theorem queriesOf_eq_ok_iff {text : List Char} {queries : List Query} :
    queriesOf text = .ok queries ↔ ∃ us, tokenize text = .ok us ∧ readsAs us queries := by
  constructor
  · intro h
    obtain ⟨us, parts, hus, hparts, hqueries⟩ := queriesOf_eq_ok h
    exact ⟨us, hus, parts, hparts, hqueries⟩
  · rintro ⟨us, hus, parts, hparts, hqueries⟩
    simp only [queriesOf, hus, hparts, hqueries]

/-! ### The checks -/

theorem checkShape_eq_ok_iff {text : List Char} :
    checkShape text = .ok () ↔ text ≠ [] ∧ "SELECT ".toList.isPrefixOf (Text.upper text) = true ∧
      ∀ part ∈ terminators, Text.containsText part.toList text = false := by
  unfold checkShape
  split
  · rename_i hempty
    simp [List.isEmpty_iff.mp hempty]
  rename_i hempty
  split
  · rename_i hselect
    rw [Bool.not_eq_true'] at hselect
    rw [hselect]
    exact ⟨nofun, fun ⟨_, h, _⟩ => nomatch h⟩
  rename_i hselect
  split
  · rename_i hany
    obtain ⟨part, hpart, hfound⟩ := List.any_eq_true.mp hany
    constructor
    · nofun
    · rintro ⟨_, _, hnone⟩
      rw [hnone part hpart] at hfound
      cases hfound
  · rename_i hany
    simp only [Bool.not_eq_true, List.any_eq_false] at hany
    simp only [Bool.not_eq_true, Bool.not_eq_false'] at hselect
    exact ⟨fun _ => ⟨by simpa using hempty, hselect, hany⟩, fun _ => rfl⟩

theorem checkKeywords_eq_ok_iff {text : List Char} :
    checkKeywords a text = .ok () ↔
      ∀ word ∈ a.forbiddenKeywords, Text.containsWord word.toList text = false := by
  unfold checkKeywords
  split
  · rename_i word hfound
    constructor
    · intro h
      cases h
    · intro h
      have hcontained := List.find?_some hfound
      rw [h word (List.mem_of_find?_eq_some hfound)] at hcontained
      cases hcontained
  · rename_i hnone
    simpa using hnone

theorem checkTables_eq_ok_iff {queries : List Query} :
    checkTables a queries = .ok () ↔
      ∀ q ∈ queries, q.tables ≠ [] ∧ ∀ table ∈ q.tables, a.hasTable table = true := by
  constructor
  · intro h q hq
    exact tables_of_checkTables h hq
  · intro h
    have hempty : (queries.any fun q => q.tables.isEmpty) = false := by
      rw [List.any_eq_false]
      intro q hq
      simpa using (h q hq).1
    have hunknown : ((queries.flatMap Query.tables).filter fun table => !a.hasTable table) = [] := by
      rw [List.filter_flatMap, List.flatMap_eq_nil_iff]
      intro q hq
      rw [List.filter_eq_nil_iff]
      intro table htable
      simp [(h q hq).2 table htable]
    unfold checkTables
    rw [hempty, hunknown]
    rfl

/-- Whether a select item may be selected. -/
def isSelectable (a : AllowList) (q : Query) (item : List Token) : Prop :=
  ∃ e, withoutAlias item = .ok e ∧ expressionAllowed a q e = true

theorem refusedItems_eq_nil_iff {items : List (List Token)} :
    refusedItems a q items = .ok [] ↔ ∀ item ∈ items, isSelectable a q item := by
  unfold refusedItems
  rw [bind_eq_ok]
  constructor
  · rintro ⟨checked, hchecked, hnone⟩ item hitem
    obtain ⟨c, hc, hrun⟩ := (mem_of_mapM hchecked).1 item hitem
    obtain ⟨e, he, hallowed⟩ := bind_eq_ok.mp hrun
    cases hallowed
    have hrefused : (checked.filter fun c => !c.2) = [] :=
      List.map_eq_nil_iff.mp (Except.ok.inj hnone)
    have hpassed := List.filter_eq_nil_iff.mp hrefused _ hc
    exact ⟨e, he, by simpa using hpassed⟩
  · intro h
    obtain ⟨checked, hchecked, hall⟩ := exists_mapM_eq_ok (p := fun c => c.2 = true)
      (f := fun item => do
        let e ← withoutAlias item
        pure (item, expressionAllowed a q e)) fun item hitem => by
        obtain ⟨e, he, hallowed⟩ := h item hitem
        exact ⟨(item, expressionAllowed a q e), bind_eq_ok.mpr ⟨e, he, rfl⟩, hallowed⟩
    refine ⟨checked, hchecked, ?_⟩
    have hrefused : (checked.filter fun c => !c.2) = [] := by
      rw [List.filter_eq_nil_iff]
      intro c hc
      simp [hall c hc]
    rw [hrefused]
    rfl

theorem checkProjection_eq_ok_iff :
    checkProjection a q = .ok () ↔ selectList q.select = [.star] ∨
      ∀ item ∈ splitTopLevel (· == .comma) (selectList q.select), isSelectable a q item := by
  rw [← refusedItems_eq_nil_iff]
  unfold checkProjection
  dsimp only
  split
  · rename_i hstar
    simp [hstar]
  · rename_i hstar
    rw [or_iff_right hstar]
    cases refusedItems a q (splitTopLevel (· == .comma) (selectList q.select)) with
    | error e => exact ⟨nofun, nofun⟩
    | ok refused => cases refused <;> simp

theorem timeExpressionAllowed_limit (a : AllowList) (q : Query) (l : Option (List Token))
    (ts : List Token) :
    timeExpressionAllowed a { q with limit := l } ts = timeExpressionAllowed a q ts := by
  rw [Bool.eq_iff_iff]
  constructor
  · exact timeExpressionAllowed_mono (fun _ h => h) (fun _ _ h => h)
  · exact timeExpressionAllowed_mono (fun _ h => h) (fun _ _ h => h)

/-- The limit of a block makes no difference to what it may select. -/
theorem checkProjection_limit (a : AllowList) (q : Query) (l : Option (List Token)) :
    checkProjection a { q with limit := l } = checkProjection a q := by
  have hcolumn : columnAllowed a { q with limit := l } = columnAllowed a q := rfl
  have hexpression : expressionAllowed a { q with limit := l } = expressionAllowed a q := by
    funext e
    simp only [expressionAllowed, hcolumn, timeExpressionAllowed_limit]
  simp only [checkProjection, refusedItems, hexpression]

theorem checkRows_eq_ok_iff :
    checkRows a q = .ok () ↔ ∀ limit, q.limit = some limit →
      ∃ rows, limitRows? limit = some rows ∧ (rows : Int) ≤ a.maxLimit := by
  unfold checkRows
  cases q.limit with
  | none => exact ⟨fun _ => nofun, fun _ => rfl⟩
  | some limit =>
    cases hrows : limitRows? limit with
    | none => simp [hrows]
    | some rows => simp [hrows]

theorem checkLimit_eq_ok_iff {queries : List Query} :
    checkLimit a queries = .ok () ↔ (queries.getLast?.bind Query.limit).isSome = true ∧
      ∀ q ∈ queries, checkRows a q = .ok () := by
  unfold checkLimit
  cases queries.getLast?.bind Query.limit with
  | none => simp
  | some limit =>
    show queries.forM (checkRows a) = .ok () ↔ _
    rw [forM_eq_ok_iff]
    simp

/-! ### Statements -/

/-- What the guard allows a block to be. -/
structure IsAllowed (a : AllowList) (q : Query) : Prop where
  readsTables : q.tables ≠ []
  tables : ∀ table ∈ q.tables, a.hasTable table = true
  projection : selectList q.select = [.star] ∨
    ∀ item ∈ splitTopLevel (· == .comma) (selectList q.select), isSelectable a q item
  joins : ∀ join ∈ q.joins, checkJoin a q join = .ok ()
  rows : ∀ limit, q.limit = some limit →
    ∃ rows, limitRows? limit = some rows ∧ (rows : Int) ≤ a.maxLimit

/-- A limit adds to what is allowed of a block without one that the number of rows can be read and
is within the bound. -/
theorem isAllowed_limit_iff (hq : q.limit = none) (limit : List Token) :
    IsAllowed a { q with limit := some limit } ↔
      IsAllowed a q ∧ ∃ rows, limitRows? limit = some rows ∧ (rows : Int) ≤ a.maxLimit := by
  have hprojection := checkProjection_limit a q (some limit)
  constructor
  · intro h
    have hitems := checkProjection_eq_ok_iff.mpr h.projection
    rw [hprojection] at hitems
    refine ⟨⟨h.readsTables, h.tables, checkProjection_eq_ok_iff.mp hitems, h.joins, ?_⟩,
      h.rows limit rfl⟩
    rw [hq]
    nofun
  · rintro ⟨h, hrows⟩
    have hitems := checkProjection_eq_ok_iff.mpr h.projection
    rw [← hprojection] at hitems
    refine ⟨h.readsTables, h.tables, checkProjection_eq_ok_iff.mp hitems, h.joins, ?_⟩
    rintro _ ⟨⟩
    exact hrows

theorem checkQueries_eq_ok_iff {queries : List Query} :
    checkQueries a queries = .ok () ↔ (queries.getLast?.bind Query.limit).isSome = true ∧
      ∀ q ∈ queries, IsAllowed a q := by
  constructor
  · intro h
    obtain ⟨_, htables, h⟩ := bind_eq_ok.mp h
    obtain ⟨_, hitems, h⟩ := bind_eq_ok.mp h
    obtain ⟨_, hjoins, hlimit⟩ := bind_eq_ok.mp h
    obtain ⟨hlast, hrows⟩ := checkLimit_eq_ok_iff.mp hlimit
    refine ⟨hlast, ?_⟩
    intro q hq
    obtain ⟨hne, hallowed⟩ := checkTables_eq_ok_iff.mp htables q hq
    exact {
      readsTables := hne
      tables := hallowed
      projection := checkProjection_eq_ok_iff.mp (forM_eq_ok_iff.mp hitems q hq)
      joins := forM_eq_ok_iff.mp (forM_eq_ok_iff.mp hjoins q hq)
      rows := checkRows_eq_ok_iff.mp (hrows q hq) }
  · rintro ⟨hlast, hall⟩
    have htables : checkTables a queries = .ok () :=
      checkTables_eq_ok_iff.mpr fun q hq => ⟨(hall q hq).readsTables, (hall q hq).tables⟩
    have hitems : queries.forM (checkProjection a) = .ok () :=
      forM_eq_ok_iff.mpr fun q hq => checkProjection_eq_ok_iff.mpr (hall q hq).projection
    have hjoins : queries.forM (checkJoins a) = .ok () :=
      forM_eq_ok_iff.mpr fun q hq => forM_eq_ok_iff.mpr (hall q hq).joins
    have hlimit : checkLimit a queries = .ok () :=
      checkLimit_eq_ok_iff.mpr ⟨hlast, fun q hq => checkRows_eq_ok_iff.mpr (hall q hq).rows⟩
    simp only [checkQueries, htables, hitems, hjoins, hlimit, bind, Except.bind]

/-- An accepted statement has the right shape and no forbidden word, and it can be read block by
block, each of which is allowed and the last of which has a limit. -/
theorem accepts_iff {sql : List Char} :
    accepts a sql = true ↔ checkShape (Text.squeeze sql) = .ok () ∧
      (∀ word ∈ a.forbiddenKeywords, Text.containsWord word.toList (Text.squeeze sql) = false) ∧
      ∃ queries, queriesOf (Text.squeeze sql) = .ok queries ∧
        (queries.getLast?.bind Query.limit).isSome = true ∧ ∀ q ∈ queries, IsAllowed a q := by
  constructor
  · intro h
    obtain ⟨hshape, hkeywords, queries, hqueries, hchecked⟩ := checks_of_accepts h
    exact ⟨hshape, checkKeywords_eq_ok_iff.mp hkeywords, queries, hqueries,
      checkQueries_eq_ok_iff.mp hchecked⟩
  · rintro ⟨hshape, hwords, queries, hqueries, hall⟩
    have hkeywords := checkKeywords_eq_ok_iff.mpr hwords
    have hchecked := checkQueries_eq_ok_iff.mpr hall
    have hcheck : check a sql = .ok () := by
      simp only [check, hshape, hkeywords, hqueries, hchecked, bind, Except.bind]
    simp only [accepts, hcheck]

end Guard
end QueryGate
