import QueryGate.Proofs.Indexed.Limit

/-!
# Statements, checked by place

The checks of all blocks, and the guard as their sequence.  Only the limits can reject a number of
rows, so every check in front of them is done without a look at the bound.
-/

namespace QueryGate
namespace Indexed

open Sql Guard

variable {α β : Type} (a : AllowList)

/-! ### Checks of all blocks -/

theorem flatMap_tables {bs : List Block} {qs : List Query} (h : List.Forall₂ StandsFor bs qs) :
    bs.flatMap (·.tables) = qs.flatMap Query.tables := by
  induction h with
  | nil => rfl
  | cons hbq _ ih => rw [List.flatMap_cons, List.flatMap_cons, tables_eq hbq, ih]

theorem any_noTables {bs : List Block} {qs : List Query} (h : List.Forall₂ StandsFor bs qs) :
    (bs.any fun b => b.tables.isEmpty) = qs.any fun q => q.tables.isEmpty := by
  induction h with
  | nil => rfl
  | cons hbq _ ih => rw [List.any_cons, List.any_cons, tables_eq hbq, ih]

theorem checkTables_eq {bs : List Block} {qs : List Query} (h : List.Forall₂ StandsFor bs qs) :
    checkTables a bs = ofCheck (Guard.checkTables a qs) := by
  rw [checkTables, Guard.checkTables, any_noTables h, flatMap_tables h]
  split
  · rfl
  · cases (qs.flatMap Query.tables).filter fun table => !a.hasTable table <;> rfl

theorem last_of_forall₂ {R : α → β → Prop} {xs : List α} {ys : List β} (h : List.Forall₂ R xs ys)
    (hne : ys ≠ []) : ∃ x y, item xs (-1) = .ok x ∧ ys.getLast? = some y ∧ R x y := by
  have hreverse := List.forall₂_reverse_iff.mpr h
  generalize hxs : xs.reverse = xs' at hreverse
  generalize hys : ys.reverse = ys' at hreverse
  cases hreverse with
  | nil => exact absurd (List.reverse_eq_nil_iff.mp hys) hne
  | @cons x y front others hxy _ =>
    refine ⟨x, y, ?_, ?_, hxy⟩
    · rw [← List.reverse_reverse xs, hxs, List.reverse_cons]
      exact item_last front.reverse x
    · rw [← List.reverse_reverse ys, hys, List.getLast?_reverse]
      rfl

/-- The last block is there to be looked at. -/
theorem checkLimit_eq {bs : List Block} {qs : List Query} (h : List.Forall₂ StandsFor bs qs)
    (hne : qs ≠ []) : checkLimit a bs = reported a (Guard.checkLimit a qs) := by
  obtain ⟨last, q, hitem, hlast, hbq⟩ := last_of_forall₂ h hne
  rw [checkLimit, hitem, ok_bind, hbq.limit_eq, Guard.checkLimit, hlast]
  rw [Option.bind_some]
  cases q.limit with
  | none => rfl
  | some limit => exact forM_eq rfl (reported_bind a) (fun _ _ hbq => checkRows_eq a hbq) h

/-! ### Checks that reject no number of rows -/

theorem checkShape_countsNoRows (text : List Char) : CountsNoRows (checkShape text) := by
  unfold checkShape
  split
  · rintro _ _ ⟨⟩
  · split
    · rintro _ _ ⟨⟩
    · split <;> rintro _ _ ⟨⟩

theorem checkKeywords_countsNoRows (text : List Char) : CountsNoRows (checkKeywords a text) := by
  unfold checkKeywords
  split <;> rintro _ _ ⟨⟩

theorem withRef_countsNoRows (seen : List TableRef) (ref : TableRef) (rest : List Token) :
    CountsNoRows (withRef seen ref rest) := by
  unfold withRef
  split
  · rintro _ _ ⟨⟩
  · split
    · rintro _ _ ⟨⟩
    · split <;> rintro _ _ ⟨⟩

theorem aliasOf_countsNoRows (table : String) (ts : List Token) :
    CountsNoRows (aliasOf table ts) := by
  unfold aliasOf
  split
  · rintro _ _ ⟨⟩
  · split
    · split
      · rintro _ _ ⟨⟩
      · split <;> rintro _ _ ⟨⟩
    · split <;> rintro _ _ ⟨⟩

theorem tableRefFrom_countsNoRows (seen : List TableRef) (ts : List Token) :
    CountsNoRows (tableRefFrom seen ts) := by
  cases ts with
  | nil => rintro _ _ ⟨⟩
  | cons t r =>
    rw [tableRefFrom_cons]
    split
    · rintro _ _ ⟨⟩
    · split
      · rintro _ _ ⟨⟩
      · split
        · rintro _ _ ⟨⟩
        · rw [aliasFrom_eq]
          exact (aliasOf_countsNoRows t.name r).bind fun got => withRef_countsNoRows _ _ _

theorem joinWords_countsNoRows (t : Token) (r : List Token) : CountsNoRows (joinWords t r) := by
  unfold joinWords
  split
  · rintro _ _ ⟨⟩
  · dsimp only
    split
    · rintro _ _ ⟨⟩
    · split <;> rintro _ _ ⟨⟩

theorem joinsFrom_countsNoRows (seen : List TableRef) (ts : List Token) :
    CountsNoRows (joinsFrom seen ts) := by
  fun_induction joinsFrom seen ts with
  | case1 => rintro _ _ ⟨⟩
  | case2 seen t r e hwords => exact (joinWords_countsNoRows t r).passedOn hwords
  | case3 seen t r named hwords e href =>
    exact (tableRefFrom_countsNoRows seen named).passedOn href
  | case4 => rintro _ _ ⟨⟩
  | case5 => rintro _ _ ⟨⟩
  | case6 seen t r named hwords ref o rest href hon on_ hcomma e hmore ih => exact ih.passedOn hmore
  | case7 => rintro _ _ ⟨⟩
  | case8 => rintro _ _ ⟨⟩

theorem sourceOf_countsNoRows (ts : List Token) : CountsNoRows (sourceOf ts) := by
  rw [sourceOf_eq]
  exact (tableRefFrom_countsNoRows [] ts).bind fun got =>
    (joinsFrom_countsNoRows [got.1] got.2).bind fun _ => .ok _

theorem ofBlock_countsNoRows (block : List Token) : CountsNoRows (Query.ofBlock block) := by
  unfold Query.ofBlock
  split
  · rintro _ _ ⟨⟩
  · split
    · rintro _ _ ⟨⟩
    · split
      · rintro _ _ ⟨⟩
      · split
        · rintro _ _ ⟨⟩
        · dsimp only
          split
          · rintro _ _ ⟨⟩
          · split
            · rename_i hsource
              exact (sourceOf_countsNoRows _).passedOn hsource
            · rintro _ _ ⟨⟩

theorem queriesOf_countsNoRows (text : List Char) : CountsNoRows (queriesOf text) := by
  unfold queriesOf
  split
  · rintro _ _ ⟨⟩
  · split
    · rintro _ _ ⟨⟩
    · exact CountsNoRows.mapM ofBlock_countsNoRows _

theorem withoutAlias_countsNoRows (item : List Token) :
    CountsNoRows (Guard.withoutAlias item) := by
  unfold Guard.withoutAlias
  split
  · split
    · split <;> rintro _ _ ⟨⟩
    · split <;> rintro _ _ ⟨⟩
  · split <;> rintro _ _ ⟨⟩
  · rintro _ _ ⟨⟩

theorem checkTables_countsNoRows (qs : List Query) : CountsNoRows (Guard.checkTables a qs) := by
  unfold Guard.checkTables
  split
  · rintro _ _ ⟨⟩
  · split <;> rintro _ _ ⟨⟩

theorem checkProjection_countsNoRows (q : Query) : CountsNoRows (Guard.checkProjection a q) := by
  have hitems (items : List (List Token)) : CountsNoRows (refusedItems a q items) := by
    refine (CountsNoRows.mapM (fun item => ?_) items).bind fun _ => .ok _
    exact (withoutAlias_countsNoRows item).bind fun _ => .ok _
  unfold Guard.checkProjection
  dsimp only
  split
  · rintro _ _ ⟨⟩
  · split
    · rename_i hrefused
      exact (hitems _).passedOn hrefused
    · rintro _ _ ⟨⟩
    · rintro _ _ ⟨⟩

theorem checkJoin_countsNoRows (q : Query) (join : Join) :
    CountsNoRows (Guard.checkJoin a q join) := by
  unfold Guard.checkJoin
  split
  · split
    · split
      · split <;> rintro _ _ ⟨⟩
      · rintro _ _ ⟨⟩
    · rintro _ _ ⟨⟩
  · rintro _ _ ⟨⟩

theorem checkJoins_countsNoRows (q : Query) : CountsNoRows (Guard.checkJoins a q) :=
  CountsNoRows.forM (checkJoin_countsNoRows a q) q.joins

/-! ### Statements -/

theorem queriesOf_ne_nil {text : List Char} {qs : List Query} (h : queriesOf text = .ok qs) :
    qs ≠ [] := by
  unfold queriesOf at h
  split at h
  · cases h
  · split at h
    · cases h
    · rename_i raws hraws
      obtain ⟨raw, more, rfl⟩ := List.exists_cons_of_ne_nil (ne_nil_of_splitUnion hraws).1
      rw [List.mapM_cons] at h
      obtain ⟨q, -, h⟩ := bind_eq_ok.mp h
      obtain ⟨others, -, h⟩ := bind_eq_ok.mp h
      cases h
      exact List.cons_ne_nil q others

theorem checkQueries_eq {bs : List Block} {qs : List Query} (h : List.Forall₂ StandsFor bs qs)
    (hne : qs ≠ []) :
    (do
      checkTables a bs
      bs.forM (checkProjection a)
      bs.forM (checkJoins a)
      checkLimit a bs) = reported a (checkQueries a qs) := by
  have hprojection := forM_eq rfl ofCheck_bind (fun _ _ hbq => checkProjection_eq a hbq) h
  have hjoins := forM_eq rfl ofCheck_bind (fun _ _ hbq => checkJoins_eq a hbq) h
  rw [checkTables_eq a h, hprojection, hjoins, checkLimit_eq a h hne, checkQueries,
    reported_then a (checkTables_countsNoRows a qs)]
  congr 1
  funext _
  rw [reported_then a (CountsNoRows.forM (checkProjection_countsNoRows a) qs)]
  congr 1
  funext _
  rw [reported_then a (CountsNoRows.forM (checkJoins_countsNoRows a) qs)]

/-- The guard by place does what the guard does, but for a bound that cannot be written. -/
theorem check_eq (sql : List Char) : check a sql = reported a (Guard.check a sql) := by
  rw [check, Guard.check]
  rw [reported_then a (checkShape_countsNoRows _)]
  congr 1
  funext _
  rw [reported_then a (checkKeywords_countsNoRows a _)]
  congr 1
  funext _
  rw [reported_then a (queriesOf_countsNoRows _)]
  have hblocks := blocksOf_follows (Text.squeeze sql)
  have hne (qs : List Query) (h : queriesOf (Text.squeeze sql) = .ok qs) := queriesOf_ne_nil h
  revert hne
  generalize blocksOf (Text.squeeze sql) = run at hblocks
  generalize queriesOf (Text.squeeze sql) = checked at hblocks
  intro hne
  cases hblocks with
  | @ok bs qs hbq => exact checkQueries_eq a hbq (hne qs rfl)
  | rejected why => rfl

theorem tablesOf_eq (sql : List Char) : tablesOf sql = .ok (Guard.tablesOf sql) := by
  have h := blocksOf_follows (Text.squeeze sql)
  rw [tablesOf, Guard.tablesOf]
  generalize blocksOf (Text.squeeze sql) = run at h
  generalize queriesOf (Text.squeeze sql) = checked at h
  cases h with
  | ok hbq => exact congrArg Except.ok (flatMap_tables hbq)
  | rejected why => rfl

end Indexed
end QueryGate
