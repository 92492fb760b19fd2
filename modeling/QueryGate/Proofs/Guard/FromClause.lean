import QueryGate.Proofs.Guard.Acceptance
import QueryGate.Proofs.Guard.Joins

/-!
# The tables of a block

The tokens of a `FROM` clause are read without a rejection just when they are those of a listing in
which no name stands for two tables.  So the checks of the tables and of the joins say of a clause
what a listing says of itself.
-/

namespace QueryGate
namespace Guard

open Sql

/-! ### Reading a listing -/

section Reading

variable {seen : List TableRef}

theorem consistent_of_subset {refs more : List TableRef} (h : consistent more)
    (hsub : refs ⊆ more) : consistent refs :=
  fun r hr s hs => h r (hsub hr) s (hsub hs)

theorem not_clashes_of_consistent {ref : TableRef} (h : consistent (seen ++ [ref])) {n : String}
    (hn : ref.isNamed n = true) : clashes seen ref.table n = false := by
  unfold clashes
  split
  · rename_i known hknown
    obtain ⟨r, hr, hrn, rfl⟩ := isNamed_of_tableNamed? hknown
    simpa using h r (List.mem_append_left _ hr) ref (by simp) n hrn hn
  · rfl

/-- A table can be added when no name stands for two tables then. -/
theorem withRef_of_consistent {ref : TableRef} (h : consistent (seen ++ [ref]))
    (rest : List Token) : withRef seen ref rest = .ok (ref, rest) := by
  have htable : clashes seen ref.table ref.table = false :=
    not_clashes_of_consistent h (by simp [TableRef.isNamed])
  unfold withRef
  rw [htable, if_neg Bool.false_ne_true]
  split
  · rfl
  · rename_i name hname
    have halias : clashes seen ref.table name = false :=
      not_clashes_of_consistent h (by simp [TableRef.isNamed, hname])
    rw [halias, if_neg Bool.false_ne_true]

theorem joinsFrom_of_consistent {js : List Joined}
    (h : consistent (seen ++ js.map (·.entry.ref))) :
    joinsFrom seen (js.flatMap Joined.tokens) = .ok (js.map Joined.join) := by
  induction js generalizing seen with
  | nil =>
    rw [List.flatMap_nil, joinsFrom]
    rfl
  | cons j js ih =>
    rw [List.map_cons] at h
    have hfirst : consistent (seen ++ [j.entry.ref]) := by
      refine consistent_of_subset h ?_
      intro r hr
      rcases List.mem_append.mp hr with hr | hr
      · exact List.mem_append_left _ hr
      · rw [List.mem_singleton.mp hr]
        simp
    have hmore : joinsFrom (seen ++ [j.entry.ref]) (js.flatMap Joined.tokens) = .ok _ :=
      ih (by rwa [List.append_assoc])
    rw [joinsFrom_joined, withRef_of_consistent hfirst, hmore]
    rfl

theorem refs_source (l : Listing) : l.source.refs = l.entries.map Entry.ref := by
  simp [Source.refs, Listing.source, Listing.entries, Joined.join]

/-- A listing is read unless a name stands for two of its tables. -/
theorem sourceOf_eq_ok_iff {l : Listing} {s : Source} :
    sourceOf l.tokens = .ok s ↔ s = l.source ∧ consistent (l.entries.map Entry.ref) := by
  constructor
  · intro h
    obtain rfl := sourceOf_listing h
    exact ⟨rfl, refs_source l ▸ consistent_of_sourceOf h⟩
  · rintro ⟨rfl, h⟩
    rw [Listing.entries, List.map_cons, List.map_map] at h
    have hfirst : withRef [] l.first.ref (l.joins.flatMap Joined.tokens) = .ok (l.first.ref, _) :=
      withRef_of_consistent (by simp [consistent]) _
    have hjoins : joinsFrom [l.first.ref] (l.joins.flatMap Joined.tokens) = .ok _ :=
      joinsFrom_of_consistent h
    rw [sourceOf, Listing.tokens, tableRefFrom_entry l.first (endsTable_joins l.joins), hfirst]
    dsimp only
    rw [hjoins]
    rfl

end Reading

/-! ### The condition of a join -/

/-- Whether the condition of a join compares columns of two tables of the block, in either order, as
a shape allows it. -/
def MatchesShape (a : AllowList) (entries : List Entry) (e : Equality) : Prop :=
  ∃ left ∈ entries, ∃ right ∈ entries,
    left.ref.isNamed e.leftTable.1.name = true ∧ right.ref.isNamed e.rightTable.1.name = true ∧
    ∃ s ∈ a.joins, s.covers left.tableName e.leftColumn.1.name right.tableName
      e.rightColumn.1.name = true

variable {a : AllowList} {q : Query}

theorem tableNamed?_eq_some_iff {entries : List Entry} (h : consistent (entries.map Entry.ref))
    {n table : String} : tableNamed? (entries.map Entry.ref) n = some table ↔
      ∃ e ∈ entries, e.ref.isNamed n = true ∧ e.tableName = table := by
  constructor
  · intro hnamed
    obtain ⟨_, href, hn, rfl⟩ := isNamed_of_tableNamed? hnamed
    obtain ⟨e, he, rfl⟩ := List.mem_map.mp href
    exact ⟨e, he, hn, rfl⟩
  · rintro ⟨e, he, hn, rfl⟩
    exact tableNamed?_of_consistent h (List.mem_map_of_mem he) hn

/-- The condition of a listed join passes just when it matches a shape. -/
theorem checkJoin_eq_ok_iff {l : Listing} (hq : q.refs = l.entries.map Entry.ref)
    (h : consistent (l.entries.map Entry.ref)) (j : Joined) :
    checkJoin a q j.join = .ok () ↔ MatchesShape a l.entries j.condition := by
  have named {n table : String} : tableNamed? q.refs n = some table ↔
      ∃ e ∈ l.entries, e.ref.isNamed n = true ∧ e.tableName = table := by
    rw [hq]
    exact tableNamed?_eq_some_iff h
  constructor
  · intro hchecked
    obtain ⟨leftName, leftColumn, rightName, rightColumn, leftTable, rightTable, hon, hleft,
      hright, hshape⟩ := checkJoin_eq_ok hchecked
    have hnames : j.condition.tokens = _ := hon
    simp only [Equality.tokens, List.cons.injEq] at hnames
    obtain ⟨hl, _, hlc, _, hr, _, hrc, _⟩ := hnames
    obtain ⟨left, hleftMem, hleftNamed, rfl⟩ := named.mp hleft
    obtain ⟨right, hrightMem, hrightNamed, rfl⟩ := named.mp hright
    rw [← hl] at hleftNamed
    rw [← hr] at hrightNamed
    rw [← hlc, ← hrc] at hshape
    exact ⟨left, hleftMem, right, hrightMem, hleftNamed, hrightNamed,
      List.find?_isSome.mp hshape⟩
  · rintro ⟨left, hleft, right, hright, hleftNamed, hrightNamed, hshape⟩
    have hl := named.mpr ⟨left, hleft, hleftNamed, rfl⟩
    have hr := named.mpr ⟨right, hright, hrightNamed, rfl⟩
    have hfound : (a.findJoin left.tableName j.condition.leftColumn.1.name right.tableName
        j.condition.rightColumn.1.name).isSome = true := List.find?_isSome.mpr hshape
    have hidentifiers : [j.condition.leftTable.1, j.condition.leftColumn.1,
        j.condition.rightTable.1, j.condition.rightColumn.1].all Token.isIdentifier = true := by
      simp [j.condition.leftTable.2.1, j.condition.leftColumn.2.1, j.condition.rightTable.2.1,
        j.condition.rightColumn.2.1]
    rw [checkJoin, Joined.join, Equality.tokens]
    dsimp only
    rw [if_pos hidentifiers, Query.tableNamed?, hl, Query.tableNamed?, hr]
    dsimp only
    rw [if_pos hfound]

/-! ### The clause -/

/-- Reads the tables of a block that has none yet, and checks them and their joins. -/
def checkSource (a : AllowList) (select : List Token) (limit : Option (List Token))
    (ts : List Token) : Except Rejection Unit := do
  let source ← sourceOf ts
  let q : Query := ⟨select, some source, limit⟩
  checkTables a [q]
  checkJoins a q

/-- What the guard allows the tables of a block to be. -/
structure MayBeRead (a : AllowList) (l : Listing) : Prop where
  allowed : ∀ e ∈ l.entries, a.hasTable e.tableName = true
  /-- No name stands for two tables. -/
  consistent : consistent (l.entries.map Entry.ref)
  matches_ : ∀ j ∈ l.joins, MatchesShape a l.entries j.condition

theorem checkSource_listing {select : List Token} {limit : Option (List Token)} {l : Listing} :
    checkSource a select limit l.tokens = .ok () ↔ MayBeRead a l := by
  let q : Query := ⟨select, some l.source, limit⟩
  have hrefs : q.refs = l.entries.map Entry.ref := refs_source l
  have htables : q.tables = l.entries.map Entry.tableName := by
    rw [Query.tables, hrefs, List.map_map]
    rfl
  have hjoins : q.joins = l.joins.map Joined.join := rfl
  rw [checkSource, bind_eq_ok]
  constructor
  · rintro ⟨source, hsource, hchecked⟩
    obtain ⟨rfl, hconsistent⟩ := sourceOf_eq_ok_iff.mp hsource
    obtain ⟨_, hread, hmatches⟩ := bind_eq_ok.mp hchecked
    have hall := (checkTables_eq_ok_iff.mp hread q List.mem_cons_self).2
    have hmatches : ∀ join ∈ q.joins, checkJoin a q join = .ok () := forM_eq_ok_iff.mp hmatches
    rw [htables] at hall
    rw [hjoins] at hmatches
    exact {
      allowed := fun e he => hall _ (List.mem_map_of_mem he)
      consistent := hconsistent
      matches_ := fun j hj =>
        (checkJoin_eq_ok_iff hrefs hconsistent j).mp (hmatches _ (List.mem_map_of_mem hj)) }
  · rintro ⟨hallowed, hconsistent, hmatches⟩
    refine ⟨l.source, sourceOf_eq_ok_iff.mpr ⟨rfl, hconsistent⟩, bind_eq_ok.mpr ⟨(), ?_, ?_⟩⟩
    · refine checkTables_eq_ok_iff.mpr (List.forall_mem_singleton.mpr ⟨?_, ?_⟩)
      · rw [htables]
        exact List.cons_ne_nil _ _
      · rw [htables]
        intro table htable
        obtain ⟨e, he, rfl⟩ := List.mem_map.mp htable
        exact hallowed e he
    · refine forM_eq_ok_iff.mpr ?_
      show ∀ join ∈ q.joins, checkJoin a q join = .ok ()
      rw [hjoins]
      intro join hjoin
      obtain ⟨j, hj, rfl⟩ := List.mem_map.mp hjoin
      exact (checkJoin_eq_ok_iff hrefs hconsistent j).mpr (hmatches j hj)

/-- Tokens pass as the tables of a block just when they are those of a listing that may be read. -/
theorem checkSource_eq_ok_iff (a : AllowList) (select : List Token) (limit : Option (List Token))
    (ts : List Token) :
    checkSource a select limit ts = .ok () ↔ ∃ l : Listing, ts = l.tokens ∧ MayBeRead a l := by
  constructor
  · intro h
    obtain ⟨source, hread, hchecked⟩ := bind_eq_ok.mp h
    obtain ⟨_, _, hjoins⟩ := bind_eq_ok.mp hchecked
    have hlisted : ∃ l : Listing, ts = l.tokens :=
      listing_of_sourceOf keepsNames_id (by rwa [List.map_id]) (forM_eq_ok_iff.mp hjoins)
    obtain ⟨l, rfl⟩ := hlisted
    exact ⟨l, rfl, checkSource_listing.mp h⟩
  · rintro ⟨l, rfl, hread⟩
    exact checkSource_listing.mpr hread

end Guard
end QueryGate
