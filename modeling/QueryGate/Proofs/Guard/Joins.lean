import QueryGate.Proofs.Scope.OneTenant
import QueryGate.Proofs.Scope.SameStatement

/-!
# What a join is tied to

The guard looks up the names in the condition of a join among all tables of the block, wherever they
are listed.  So the condition is an allowed equality between two tables of the block, but the table
that is joined need not be one of them.
-/

namespace QueryGate
namespace Guard

open Sql

/-! ### Names of one table only -/

/-- Tables none of whose names stands for two of them. -/
def consistent (refs : List TableRef) : Prop :=
  ∀ r ∈ refs, ∀ s ∈ refs, ∀ n, r.isNamed n = true → s.isNamed n = true → r.table = s.table

theorem tableNamed?_of_consistent {refs : List TableRef} (h : consistent refs) {r : TableRef}
    (hr : r ∈ refs) {n : String} (hn : r.isNamed n = true) :
    tableNamed? refs n = some r.table := by
  cases hfound : tableNamed? refs n with
  | none =>
    rw [tableNamed?, Option.map_eq_none_iff, List.find?_eq_none] at hfound
    exact absurd hn (hfound r hr)
  | some table =>
    obtain ⟨s, hs, hsn, rfl⟩ := isNamed_of_tableNamed? hfound
    rw [h s hs r hr n hsn hn]

section Reading

variable {seen : List TableRef} {ref : TableRef} {ts left : List Token}

theorem not_clashes_of_withRef {got : TableRef} (h : withRef seen ref ts = .ok (got, left))
    {n : String} (hn : ref.isNamed n = true) : clashes seen ref.table n = false := by
  simp only [TableRef.isNamed, Bool.or_eq_true, beq_iff_eq] at hn
  unfold withRef at h
  split at h
  · cases h
  · rename_i htable
    rw [Bool.not_eq_true] at htable
    split at h
    · rename_i hnone
      rcases hn with rfl | hn
      · exact htable
      · rw [hnone] at hn
        cases hn
    · rename_i name hname
      split at h
      · cases h
      · rename_i halias
        rw [Bool.not_eq_true] at halias
        rcases hn with rfl | hn
        · exact htable
        · rw [hname, Option.some.injEq] at hn
          rwa [← hn]

theorem consistent_of_withRef {got : TableRef} (hseen : consistent seen)
    (h : withRef seen ref ts = .ok (got, left)) : consistent (seen ++ [got]) := by
  obtain ⟨rfl, _⟩ := withRef_eq_ok h
  -- A table that is read shares its names with tables of the same name only.
  have hnew {r : TableRef} (hr : r ∈ seen) {n : String} (hrn : r.isNamed n = true)
      (hn : got.isNamed n = true) : r.table = got.table := by
    have hclash := not_clashes_of_withRef h hn
    rw [clashes, tableNamed?_of_consistent hseen hr hrn] at hclash
    simpa using hclash
  intro r hr s hs n hrn hsn
  rcases List.mem_append.mp hr with hr | hr <;> rcases List.mem_append.mp hs with hs | hs
  · exact hseen r hr s hs n hrn hsn
  · rw [List.mem_singleton.mp hs] at hsn ⊢
    exact hnew hr hrn hsn
  · rw [List.mem_singleton.mp hr] at hrn ⊢
    exact (hnew hs hsn hrn).symm
  · rw [List.mem_singleton.mp hr, List.mem_singleton.mp hs]

theorem consistent_of_aliasFrom {table : String} (hseen : consistent seen)
    (h : aliasFrom seen table ts = .ok (ref, left)) : consistent (seen ++ [ref]) := by
  unfold aliasFrom at h
  split at h
  · exact consistent_of_withRef hseen h
  · split at h
    · split at h
      · cases h
      · split at h
        · exact consistent_of_withRef hseen h
        · cases h
    · split at h
      · exact consistent_of_withRef hseen h
      · exact consistent_of_withRef hseen h

theorem consistent_of_tableRefFrom (hseen : consistent seen)
    (h : tableRefFrom seen ts = .ok (ref, left)) : consistent (seen ++ [ref]) := by
  unfold tableRefFrom at h
  split at h
  · cases h
  · split at h
    · cases h
    · split at h
      · split at h
        · cases h
        · exact consistent_of_aliasFrom hseen h
      · cases h

theorem consistent_of_joinsFrom {joins : List Join} (hseen : consistent seen)
    (h : joinsFrom seen ts = .ok joins) : consistent (seen ++ joins.map (·.ref)) := by
  fun_induction joinsFrom seen ts generalizing joins with
  | case1 =>
    cases h
    simpa using hseen
  | case7 seen t r named hwords ref o rest hread hon condition hcomma more hmore =>
    rename_i ih
    cases h
    have hrest := ih (consistent_of_tableRefFrom hseen hread) hmore
    rwa [List.append_assoc] at hrest
  | _ => cases h

/-- In a block that the guard can read every name stands for one table. -/
theorem consistent_of_sourceOf {source : Source} (h : sourceOf ts = .ok source) :
    consistent source.refs := by
  obtain ⟨first, rest, joins, hfirst, hjoins, rfl⟩ := sourceOf_eq_ok h
  have hseen : consistent ([] ++ [first]) := consistent_of_tableRefFrom (by simp [consistent]) hfirst
  exact consistent_of_joinsFrom hseen hjoins

end Reading

/-! ### The condition of a join -/

/-- Whether one side of the condition of a join is a column of the joined table, and the other a
column of a table before it. -/
def isTied (earlier : List Entry) (j : Joined) : Prop :=
  (j.condition.leftTable.1.name = j.entry.visibleName ∧
    j.condition.rightTable.1.name ∈ earlier.map Entry.visibleName) ∨
  (j.condition.rightTable.1.name = j.entry.visibleName ∧
    j.condition.leftTable.1.name ∈ earlier.map Entry.visibleName)

/-- Whether the names in the condition of a join are those of tables up to the joined one, each of
which has a name of its own. -/
structure NamesTables (earlier : List Entry) (j : Joined) : Prop where
  distinct : ((earlier ++ [j.entry]).map Entry.visibleName).Nodup
  left : j.condition.leftTable.1.name ∈ (earlier ++ [j.entry]).map Entry.visibleName
  right : j.condition.rightTable.1.name ∈ (earlier ++ [j.entry]).map Entry.visibleName

/-- Whether the condition of a join is an allowed equality between columns of listed tables. -/
def isAllowed (a : AllowList) (entries : List Entry) (j : Joined) : Prop :=
  ∃ left ∈ entries, ∃ right ∈ entries,
    left.collapsed.ref.isNamed j.condition.leftTable.1.collapsed.name = true ∧
    right.collapsed.ref.isNamed j.condition.rightTable.1.collapsed.name = true ∧
    (a.findJoin left.collapsed.tableName j.condition.leftColumn.1.collapsed.name
      right.collapsed.tableName j.condition.rightColumn.1.collapsed.name).isSome = true

theorem findJoin_ne {a : AllowList} (hshapes : ∀ s ∈ a.joins, s.leftTable ≠ s.rightTable)
    {leftTable leftColumn rightTable rightColumn : String}
    (h : (a.findJoin leftTable leftColumn rightTable rightColumn).isSome = true) :
    leftTable ≠ rightTable := by
  obtain ⟨s, hs, hcovers⟩ := List.find?_isSome.mp h
  have hne := hshapes s hs
  simp only [JoinShape.covers, Bool.or_eq_true, beq_iff_eq] at hcovers
  rcases hcovers with rfl | rfl
  · exact hne
  · exact hne.symm

/-- With names that differ, a condition ties the joined table just when it does not name earlier
tables only. -/
theorem isTied_iff {earlier : List Entry} {j : Joined} (h : NamesTables earlier j)
    (hne : j.condition.leftTable.1.name ≠ j.condition.rightTable.1.name) :
    isTied earlier j ↔ ¬ (j.condition.leftTable.1.name ∈ earlier.map Entry.visibleName ∧
      j.condition.rightTable.1.name ∈ earlier.map Entry.visibleName) := by
  obtain ⟨hdistinct, hleft, hright⟩ := h
  rw [List.map_append, List.map_singleton] at hdistinct hleft hright
  have hnew : j.entry.visibleName ∉ earlier.map Entry.visibleName := by
    intro hmem
    exact (List.nodup_append.mp hdistinct).2.2 _ hmem _ (List.mem_singleton.mpr rfl) rfl
  rw [List.mem_append, List.mem_singleton] at hleft hright
  constructor
  · rintro (⟨hj, _⟩ | ⟨hj, _⟩) ⟨hl, hr⟩
    · rw [hj] at hl
      exact hnew hl
    · rw [hj] at hr
      exact hnew hr
  · intro hnot
    rcases hleft with hl | hl
    · have hr := hright.resolve_left fun hr => hnot ⟨hl, hr⟩
      exact Or.inr ⟨hr, hl⟩
    · have hr := hright.resolve_right fun hr => hne (hl.trans hr.symm)
      exact Or.inl ⟨hl, hr⟩

section Accepted

variable {a : AllowList} {sql : List Char} (haccepted : accepts a sql = true) {ts : List Token}
  {blocks : List (List Section)} (hblocks : Scope.blocksOf sql = .ok (ts, blocks))
  {sections : List Section} (hsections : sections ∈ blocks) {l : Listing}
  (hfrom : body .from_ sections = l.tokens)
include haccepted hblocks hsections hfrom

theorem isAllowed_of_accepts {j : Joined} (hj : j ∈ l.joins) : isAllowed a l.entries j := by
  obtain ⟨q, hrefs, _, _, hjoins⟩ := read_of_accepts haccepted hblocks hsections hfrom
  obtain ⟨leftName, leftColumn, rightName, rightColumn, leftTable, rightTable, hon, hleft, hright,
    hshape⟩ := checkJoin_eq_ok (hjoins j hj)
  have named {name table : String} (h : q.tableNamed? name = some table) :
      ∃ e ∈ l.entries, e.collapsed.ref.isNamed name = true ∧ e.collapsed.tableName = table := by
    obtain ⟨ref, hmem, hnamed, rfl⟩ := isNamed_of_tableNamed? h
    rw [hrefs] at hmem
    obtain ⟨e, he, rfl⟩ := List.mem_map.mp hmem
    exact ⟨e, he, hnamed, rfl⟩
  obtain ⟨left, hl, hlname, rfl⟩ := named hleft
  obtain ⟨right, hr, hrname, rfl⟩ := named hright
  have hnames : j.condition.collapsed.tokens = _ := hon
  simp only [Equality.tokens, Equality.collapsed, collapsedName, List.cons.injEq] at hnames
  obtain ⟨hln, _, hlc, _, hrn, _, hrc, _⟩ := hnames
  rw [← hln] at hlname
  rw [← hrn] at hrname
  rw [← hlc, ← hrc] at hshape
  exact ⟨left, hl, right, hr, hlname, hrname, hshape⟩

/-- Unless a shape joins a table with itself, the sides of a condition have different names. -/
theorem names_ne_of_accepts (hshapes : ∀ s ∈ a.joins, s.leftTable ≠ s.rightTable) {j : Joined}
    (hj : j ∈ l.joins) : j.condition.leftTable.1.name ≠ j.condition.rightTable.1.name := by
  intro hsame
  obtain ⟨left, hl, right, hr, hlname, hrname, hshape⟩ :=
    isAllowed_of_accepts haccepted hblocks hsections hfrom hj
  obtain ⟨_, _, hread, _, _⟩ := read_of_accepts haccepted hblocks hsections hfrom
  have hconsistent := consistent_of_sourceOf hread
  rw [refs_collapsed] at hconsistent
  obtain ⟨_, hts, _, _⟩ := Scope.blocksOf_eq_ok_iff.mp hblocks
  have hlisted : body .from_ sections <:+: ts := Scope.clause_isInfix hblocks hsections
  have hnamed {n : InnerName} (hn : n.1 ∈ j.condition.tokens) :
      n.1.collapsed.name = collapsedText n.1.name := by
    apply name_of_tokenize hts
    apply hlisted.subset
    rw [hfrom, Listing.tokens]
    apply List.mem_append_right
    refine List.mem_flatMap.mpr ⟨j, hj, ?_⟩
    simp [Joined.tokens, hn]
  rw [hnamed (by simp [Equality.tokens]), hsame] at hlname
  rw [hnamed (by simp [Equality.tokens])] at hrname
  exact findJoin_ne hshapes hshape (hconsistent _ (List.mem_map_of_mem hl) _
    (List.mem_map_of_mem hr) _ hlname hrname)

end Accepted

/-- The joins of an accepted statement.  The condition of a join is an allowed equality between two
tables of the block.  Suppose that no shape joins a table with itself and that the condition has the
names of tables up to the joined one, each with a name of its own.  Then the condition ties the
joined table to an earlier one just when it does not name earlier tables only, as the condition of
the first join never does. -/
theorem joins_of_accepted_statement {a : AllowList} {sql : List Char}
    (haccepted : accepts a sql = true) :
    ∃ ts blocks, Scope.blocksOf sql = .ok (ts, blocks) ∧ ∀ sections ∈ blocks,
      (∃ l : Listing, body .from_ sections = l.tokens) ∧
      ∀ l : Listing, body .from_ sections = l.tokens →
        ∀ front j back, l.joins = front ++ j :: back →
          isAllowed a l.entries j ∧
          ((∀ s ∈ a.joins, s.leftTable ≠ s.rightTable) →
            NamesTables (l.first :: front.map (·.entry)) j →
              (isTied (l.first :: front.map (·.entry)) j ↔
                ¬ (j.condition.leftTable.1.name ∈
                      (l.first :: front.map (·.entry)).map Entry.visibleName ∧
                    j.condition.rightTable.1.name ∈
                      (l.first :: front.map (·.entry)).map Entry.visibleName)) ∧
              (front = [] → isTied [l.first] j)) := by
  obtain ⟨ts, blocks, _, hblocks⟩ := Scope.exists_blocksOf haccepted
  refine ⟨ts, blocks, hblocks, ?_⟩
  intro sections hsections
  refine ⟨exists_listing haccepted hblocks hsections, ?_⟩
  intro l hfrom front j back hjoins
  have hj : j ∈ l.joins := by
    rw [hjoins]
    simp
  refine ⟨isAllowed_of_accepts haccepted hblocks hsections hfrom hj, ?_⟩
  intro hshapes hnames
  have hne := names_ne_of_accepts haccepted hblocks hsections hfrom hshapes hj
  refine ⟨isTied_iff hnames hne, ?_⟩
  rintro rfl
  apply (isTied_iff hnames hne).mpr
  rintro ⟨hleft, hright⟩
  exact hne ((List.mem_singleton.mp hleft).trans (List.mem_singleton.mp hright).symm)

/-- The only join of the statement on checks and their templates ties the templates to the
checks. -/
theorem joins_of_checks_and_templates :
    accepts Policy.shipped Scope.pairText = true ∧
      (∀ s ∈ Policy.shipped.joins, s.leftTable ≠ s.rightTable) ∧
      NamesTables [Scope.checksAs Scope.letterD]
        (Scope.joinedOn (Scope.templatesAs Scope.letterT) (Scope.templateOf Scope.letterD)) ∧
      isTied [Scope.checksAs Scope.letterD]
        (Scope.joinedOn (Scope.templatesAs Scope.letterT) (Scope.templateOf Scope.letterD)) := by
  have hshapes : ∀ s ∈ Policy.shipped.joins, s.leftTable ≠ s.rightTable := by decide
  have hnames : NamesTables [Scope.checksAs Scope.letterD]
      (Scope.joinedOn (Scope.templatesAs Scope.letterT) (Scope.templateOf Scope.letterD)) :=
    ⟨by decide, by decide, by decide⟩
  refine ⟨Scope.accepts_pairText, hshapes, hnames, ?_⟩
  obtain ⟨ts, blocks, hblocks, hall⟩ := joins_of_accepted_statement Scope.accepts_pairText
  rw [Scope.blocksOf_pairText] at hblocks
  cases hblocks
  exact (((hall _ List.mem_cons_self).2 Scope.checksAndTemplates rfl [] _ [] rfl).2 hshapes
    hnames).2 rfl

/-- The name `u`. -/
def letterU : Scope.FreeWord := ⟨['u'], by rw [Keyword.ofWord?_eq]; decide⟩

/-- The checks `d` with their templates, and the templates `u` under the same condition. -/
def checksAndAllTemplates : Listing :=
  { Scope.checksAndTemplates with
    joins := Scope.checksAndTemplates.joins ++
      [Scope.joinedOn (Scope.templatesAs letterU) (Scope.templateOf Scope.letterD)] }

/-- A statement whose second join repeats the condition of the first. -/
def repeatedConditionText : List Char :=
  "SELECT d.id FROM daily_check d ".toList ++ "JOIN template t ON d.qid = t.id ".toList
    ++ "JOIN template u ON d.qid = t.id ".toList ++ "WHERE d.restaurant_id = 74 LIMIT 5".toList

/-- The condition of an accepted join can name earlier tables only. -/
theorem accepted_join_ties_nothing :
    accepts Policy.shipped repeatedConditionText = true ∧
      Scope.blocksOf repeatedConditionText =
        .ok (Scope.idsFrom checksAndAllTemplates Scope.tenantOfD,
          [Scope.idSections checksAndAllTemplates Scope.tenantOfD]) ∧
      ∃ front j, checksAndAllTemplates.joins = front ++ [j] ∧
        NamesTables (checksAndAllTemplates.first :: front.map (·.entry)) j ∧
        ¬ isTied (checksAndAllTemplates.first :: front.map (·.entry)) j := by
  have htokens : tokenize repeatedConditionText =
      .ok (Scope.idsFrom checksAndAllTemplates Scope.tenantOfD) := by
    rw [tokenize_eq_ok_iff]
    decide +kernel
  refine ⟨accepts_of_isQuietQuery (by decide +kernel), ?_, ?_⟩
  · rw [Scope.blocksOf, htokens]
    rfl
  · refine ⟨Scope.checksAndTemplates.joins, _, rfl, ?_, ?_⟩
    · exact ⟨by decide, by decide, by decide⟩
    · unfold isTied
      decide

end Guard
end QueryGate
