import QueryGate.Policy.Shipped
import QueryGate.Proofs.Guard.Acceptance

/-!
# Tighter allow-lists

An allow-list is at least as tight as another one if it lists no table, no column and no shape of a
join that the other does not, forbids all that the other forbids, and grants no more rows.  The
guard accepts no statement under it that it does not accept under the other.
-/

namespace QueryGate
namespace Guard

open Sql

/-- Whether what an allow-list lets through is let through by another one. -/
structure Tightens (tight loose : AllowList) : Prop where
  timeFunctions : ∀ f, f ∈ tight.timeFunctions ↔ f ∈ loose.timeFunctions
  tables : ∀ table, tight.hasTable table = true → loose.hasTable table = true
  columns : ∀ table, ∀ column ∈ tight.columns table, column ∈ loose.columns table
  joins : ∀ shape ∈ tight.joins, shape ∈ loose.joins
  forbiddenKeywords : ∀ word ∈ loose.forbiddenKeywords, word ∈ tight.forbiddenKeywords
  maxLimit : tight.maxLimit ≤ loose.maxLimit

section Tightens

variable {tight loose : AllowList} (h : Tightens tight loose) {q : Query}
include h

/-! ### Select items -/

theorem bareColumnAllowed_of_tightens {c : Token} (hc : bareColumnAllowed tight q c = true) :
    bareColumnAllowed loose q c = true := by
  simp only [bareColumnAllowed, Bool.and_eq_true, List.any_eq_true, List.contains_iff_mem] at hc ⊢
  obtain ⟨hid, table, htable, hcolumn⟩ := hc
  exact ⟨hid, table, htable, h.columns table _ hcolumn⟩

theorem qualifiedColumnAllowed_of_tightens {name c : Token}
    (hc : qualifiedColumnAllowed tight q name c = true) :
    qualifiedColumnAllowed loose q name c = true := by
  unfold qualifiedColumnAllowed at hc ⊢
  rw [Bool.and_eq_true] at hc ⊢
  refine ⟨hc.1, ?_⟩
  cases htable : q.tableNamed? name.name with
  | none => simp [htable] at hc
  | some table =>
    simp only [htable, List.contains_iff_mem] at hc ⊢
    exact h.columns table _ hc.2

theorem columnAllowed_of_tightens {e : List Token} (he : columnAllowed tight q e = true) :
    columnAllowed loose q e = true := by
  unfold columnAllowed at he ⊢
  split at he
  · exact bareColumnAllowed_of_tightens h he
  · exact qualifiedColumnAllowed_of_tightens h he
  · cases he

theorem expressionAllowed_of_tightens {e : List Token} (he : expressionAllowed tight q e = true) :
    expressionAllowed loose q e = true := by
  unfold expressionAllowed at he ⊢
  have hfunctions (f : String) : loose.timeFunctions.contains f = tight.timeFunctions.contains f := by
    rw [Bool.eq_iff_iff, List.contains_iff_mem, List.contains_iff_mem, h.timeFunctions]
  simp only [hfunctions]
  split at he
  · exact columnAllowed_of_tightens h he
  · split
    · rfl
    · rename_i hcount
      rw [if_neg hcount] at he
      split
      · rename_i htime
        rw [if_pos htime, Bool.and_eq_true] at he
        rw [Bool.and_eq_true]
        have hcolumns := timeExpressionAllowed_mono
          (fun c => bareColumnAllowed_of_tightens h)
          (fun name c => qualifiedColumnAllowed_of_tightens h) he.2
        exact ⟨he.1, hcolumns⟩
      · rename_i htime
        rw [if_neg htime] at he
        exact columnAllowed_of_tightens h he

theorem isSelectable_of_tightens {item : List Token} (hitem : isSelectable tight q item) :
    isSelectable loose q item := by
  obtain ⟨e, he, hallowed⟩ := hitem
  exact ⟨e, he, expressionAllowed_of_tightens h hallowed⟩

/-! ### Joins -/

theorem findJoin_of_tightens {leftTable leftColumn rightTable rightColumn : String}
    (hjoin : (tight.findJoin leftTable leftColumn rightTable rightColumn).isSome = true) :
    (loose.findJoin leftTable leftColumn rightTable rightColumn).isSome = true := by
  obtain ⟨shape, hshape, hcovers⟩ := List.find?_isSome.mp hjoin
  exact List.find?_isSome.mpr ⟨shape, h.joins shape hshape, hcovers⟩

theorem checkJoin_of_tightens {join : Join} (hjoin : checkJoin tight q join = .ok ()) :
    checkJoin loose q join = .ok () := by
  unfold checkJoin at hjoin ⊢
  split at hjoin
  · split at hjoin
    · rename_i hnames
      split at hjoin
      · split at hjoin
        · rename_i hshape
          rw [if_pos hnames, if_pos (findJoin_of_tightens h hshape)]
        · cases hjoin
      · cases hjoin
    · cases hjoin
  · cases hjoin

/-! ### Blocks -/

theorem isAllowed_of_tightens (hq : IsAllowed tight q) : IsAllowed loose q where
  readsTables := hq.readsTables
  tables := by
    intro table htable
    exact h.tables table (hq.tables table htable)
  projection := by
    refine hq.projection.imp id ?_
    intro hitems item hitem
    exact isSelectable_of_tightens h (hitems item hitem)
  joins := by
    intro join hjoin
    exact checkJoin_of_tightens h (hq.joins join hjoin)
  rows := by
    intro limit hlimit
    obtain ⟨rows, hrows, hbound⟩ := hq.rows limit hlimit
    exact ⟨rows, hrows, Int.le_trans hbound h.maxLimit⟩

end Tightens

/-- What the guard accepts under an allow-list it accepts under every looser one. -/
theorem accepts_of_tightens {tight loose : AllowList} (h : Tightens tight loose) {sql : List Char}
    (haccepted : accepts tight sql = true) : accepts loose sql = true := by
  obtain ⟨hshape, hwords, queries, hqueries, hlast, hall⟩ := accepts_iff.mp haccepted
  apply accepts_iff.mpr
  refine ⟨hshape, ?_, queries, hqueries, hlast, ?_⟩
  · intro word hword
    exact hwords word (h.forbiddenKeywords word hword)
  · intro q hq
    exact isAllowed_of_tightens h (hall q hq)

/-- The shipped allow-list without all tables but one, most of its columns, unions and long lists. -/
def checkNotesOnly : AllowList :=
  { Policy.shipped with
    tables := [("daily_check", ["id", "note"])]
    joins := []
    forbiddenKeywords := "UNION" :: Policy.shipped.forbiddenKeywords
    maxLimit := 10 }

theorem lookup_checkNotesOnly {table : String} (h : table ≠ "daily_check") :
    checkNotesOnly.tables.lookup table = none := by
  simp [checkNotesOnly, List.lookup_cons, beq_false_of_ne h]

theorem tightens_checkNotesOnly : Tightens checkNotesOnly Policy.shipped where
  timeFunctions f := Iff.rfl
  tables := by
    intro table htable
    by_cases hname : table = "daily_check"
    · rw [hname]
      decide
    · rw [AllowList.hasTable, lookup_checkNotesOnly hname] at htable
      cases htable
  columns := by
    intro table column hcolumn
    by_cases hname : table = "daily_check"
    · rw [hname] at hcolumn ⊢
      have hall : ∀ c ∈ checkNotesOnly.columns "daily_check",
          c ∈ Policy.shipped.columns "daily_check" := by decide
      exact hall column hcolumn
    · rw [AllowList.columns, lookup_checkNotesOnly hname] at hcolumn
      cases hcolumn
  joins := nofun
  forbiddenKeywords word hword := List.mem_cons_of_mem _ hword
  maxLimit := by decide

/-- A statement on the notes of checks. -/
def checkNotesText : List Char :=
  "SELECT DISTINCT d.note FROM daily_check d WHERE restaurant_id = 74 LIMIT 10".toList

theorem accepts_checkNotesText :
    Tightens checkNotesOnly Policy.shipped ∧ accepts checkNotesOnly checkNotesText = true ∧
      accepts Policy.shipped checkNotesText = true := by
  have haccepted : accepts checkNotesOnly checkNotesText = true := by decide +kernel
  exact ⟨tightens_checkNotesOnly, haccepted,
    accepts_of_tightens tightens_checkNotesOnly haccepted⟩

end Guard
end QueryGate
