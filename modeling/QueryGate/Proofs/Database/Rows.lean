import Mathlib.Data.List.Induction
import QueryGate.Proofs.Database.Session
import QueryGate.Proofs.Scope.SameStatement

/-!
# The rows that a session returns

A row of a result is handed on as a mapping from the labels of its columns to the values of its
cells.  It holds every cell just when no two columns have the same label; of columns with one label
only the value of the last is left.
-/

namespace QueryGate

namespace Policy

/-! ### Named items -/

section Named

variable {α : Type} {name : String} {item : α} {items : List (String × α)}

theorem keys_putNamed :
    (putNamed name item items).map Prod.fst =
      if name ∈ items.map Prod.fst then items.map Prod.fst else items.map Prod.fst ++ [name] := by
  induction items with
  | nil => rfl
  | cons e rest ih =>
    rw [putNamed]
    by_cases heq : e.1 = name
    · simp [heq]
    · simp only [heq, if_false, List.map_cons, ih, List.mem_cons, Ne.symm heq, false_or]
      split <;> rfl

/-- An item that is put under a name is found there, and the others are found as before. -/
theorem lookup_putNamed (n : String) :
    (putNamed name item items).lookup n = ((name, item) :: items).lookup n := by
  induction items with
  | nil => rfl
  | cons e rest ih =>
    obtain ⟨key, held⟩ := e
    rw [putNamed]
    by_cases hkey : key = name
    · subst hkey
      simp only [if_true, List.lookup_cons]
      split <;> rfl
    · simp only [hkey, if_false, List.lookup_cons, ih]
      by_cases hn : n = key
      · rw [beq_iff_eq.mpr hn, beq_eq_false_iff_ne.mpr (hn ▸ hkey)]
      · rw [beq_eq_false_iff_ne.mpr hn]

theorem namedOf_concat (items : List (String × α)) (e : String × α) :
    namedOf (items ++ [e]) = putNamed e.1 e.2 (namedOf items) := by
  rw [namedOf, List.foldl_concat]
  rfl

theorem mem_keys_namedOf : name ∈ (namedOf items).map Prod.fst ↔ name ∈ items.map Prod.fst := by
  induction items using List.reverseRecOn with
  | nil => rfl
  | append_singleton items e ih =>
    rw [namedOf_concat, keys_putNamed, List.map_append, List.mem_append, ← ih]
    split
    · rename_i hmem
      simp only [List.map_cons, List.map_nil, List.mem_singleton]
      exact ⟨Or.inl, fun h => h.elim id fun heq => heq ▸ hmem⟩
    · simp

/-- No name is there twice. -/
theorem nodup_keys_namedOf (items : List (String × α)) : ((namedOf items).map Prod.fst).Nodup := by
  induction items using List.reverseRecOn with
  | nil => exact List.nodup_nil
  | append_singleton items e ih =>
    rw [namedOf_concat, keys_putNamed]
    split
    · exact ih
    · rename_i hmem
      refine List.nodup_append.mpr ⟨ih, by simp, ?_⟩
      rintro name hname _ hlast rfl
      exact hmem (List.mem_singleton.mp hlast ▸ hname)

/-- A name has the item that came last. -/
theorem lookup_namedOf (items : List (String × α)) (n : String) :
    (namedOf items).lookup n = items.reverse.lookup n := by
  induction items using List.reverseRecOn with
  | nil => rfl
  | append_singleton items e ih =>
    rw [namedOf_concat, lookup_putNamed, List.reverse_concat, List.lookup_cons, List.lookup_cons, ih]

theorem putNamed_of_not_mem (h : name ∉ items.map Prod.fst) :
    putNamed name item items = items ++ [(name, item)] := by
  induction items with
  | nil => rfl
  | cons e rest ih =>
    obtain ⟨hne, hrest⟩ := not_or.mp (List.mem_cons.not.mp h)
    rw [putNamed, if_neg (Ne.symm hne), ih hrest, List.cons_append]

/-- The item of a name that does not come again is found. -/
theorem lookup_namedOf_append_cons {before after : List (String × α)}
    (h : name ∉ after.map Prod.fst) :
    (namedOf (before ++ (name, item) :: after)).lookup name = some item := by
  have hafter : after.reverse.lookup name = none := by
    rw [List.lookup_eq_none_iff]
    intro e he
    rw [bne_iff_ne]
    rintro rfl
    exact h (List.mem_map_of_mem (List.mem_reverse.mp he))
  rw [lookup_namedOf, List.reverse_append, List.reverse_cons, List.lookup_append,
    List.lookup_append, hafter, List.lookup_cons_self]
  rfl

/-- The items are left as they are when no name is there twice. -/
theorem namedOf_of_nodup {items : List (String × α)} (h : (items.map Prod.fst).Nodup) :
    namedOf items = items := by
  induction items using List.reverseRecOn with
  | nil => rfl
  | append_singleton items e ih =>
    rw [List.map_append] at h
    obtain ⟨hitems, _, hnew⟩ := List.nodup_append.mp h
    have hnot : e.1 ∉ items.map Prod.fst := fun hmem =>
      hnew e.1 hmem e.1 (List.mem_singleton.mpr rfl) rfl
    rw [namedOf_concat, ih hitems, putNamed_of_not_mem hnot]

end Named

end Policy

namespace Database

/-! ### What a row holds -/

/-- A row holds every cell: an entry for each column, in their order and with their labels, and in
it the value of the cell as it is handed on. -/
structure HoldsEvery (labels : List String) (cells : List Value) (row : Row) : Prop where
  labelled : row.map Prod.fst = labels
  values : List.Forall₂ (fun v w => plainCell v = .ok w) cells (row.map Prod.snd)

/-- A row holds for every label the value of the last cell with it, and nothing else. -/
structure HoldsLast (labels : List String) (cells : List Value) (row : Row) : Prop where
  nodup : (row.map Prod.fst).Nodup
  mem_iff : ∀ label, label ∈ row.map Prod.fst ↔ label ∈ labels
  last : ∀ before label after v, labels = before ++ label :: after → label ∉ after →
    cells[before.length]? = some v → ∃ w, plainCell v = .ok w ∧ row.lookup label = some w

variable {labels : List String} {cells : List Value} {row : Row}

/-- The cells of a row are handed on one by one, each with its label. -/
theorem holdsEvery_of_mapM {entries : Row} (hlength : cells.length = labels.length)
    (h : ((labels.zip cells).mapM fun (label, v) => do
      let cell ← plainCell v
      pure (label, cell)) = .ok entries) : HoldsEvery labels cells entries := by
  induction labels generalizing cells entries with
  | nil =>
    obtain rfl := List.eq_nil_of_length_eq_zero hlength
    cases h
    exact ⟨rfl, .nil⟩
  | cons label labels ih =>
    obtain ⟨v, cells, rfl⟩ := List.exists_cons_of_length_eq_add_one hlength
    rw [List.zip_cons_cons, List.mapM_cons] at h
    obtain ⟨entry, hentry, h⟩ := bind_eq_ok.mp h
    obtain ⟨more, hmore, h⟩ := bind_eq_ok.mp h
    obtain ⟨w, hw, hentry⟩ := bind_eq_ok.mp hentry
    cases h
    cases hentry
    have hrest := ih (Nat.succ.inj hlength) hmore
    exact ⟨congrArg (label :: ·) hrest.labelled, .cons hw hrest.values⟩

theorem HoldsEvery.holdsLast {entries : Row} (h : HoldsEvery labels cells entries) :
    HoldsLast labels cells (Policy.namedOf entries) where
  nodup := Policy.nodup_keys_namedOf entries
  mem_iff label := by rw [Policy.mem_keys_namedOf, h.labelled]
  last before label after v hlabels hafter hv := by
    rw [← h.labelled] at hlabels
    obtain ⟨front, back, rfl, rfl, hback⟩ := List.map_eq_append_iff.mp hlabels
    obtain ⟨⟨_, w⟩, back, rfl, rfl, rfl⟩ := List.map_eq_cons_iff.mp hback
    obtain ⟨hlength, hvalues⟩ := List.forall₂_iff_get.mp h.values
    obtain ⟨hplace, rfl⟩ := List.getElem?_eq_some_iff.mp hv
    have hw := hvalues _ hplace (hlength ▸ hplace)
    refine ⟨w, ?_, Policy.lookup_namedOf_append_cons hafter⟩
    simpa using hw

/-- What is left of the cells of a row. -/
theorem rowOf_spec (hlength : cells.length = labels.length) (h : rowOf labels cells = .ok row) :
    HoldsLast labels cells row ∧ (HoldsEvery labels cells row ↔ labels.Nodup) := by
  obtain ⟨entries, hentries, hrow⟩ := bind_eq_ok.mp h
  cases hrow
  have hevery := holdsEvery_of_mapM hlength hentries
  refine ⟨hevery.holdsLast, ?_⟩
  constructor
  · intro hholds
    rw [← hholds.labelled]
    exact Policy.nodup_keys_namedOf entries
  · intro hnodup
    rw [Policy.namedOf_of_nodup (hevery.labelled ▸ hnodup)]
    exact hevery

/-! ### What a session returns -/

theorem next_of_andThen {α : Type} {db : Behaviour} {trace : Trace} {call : Call}
    {next : Trace → Except Fault α × Trace} {x : α}
    (h : (andThen db trace call next).1 = .ok x) : (next (trace ++ [call])).1 = .ok x := by
  cases hfails : db.fails trace call with
  | some message =>
    rw [andThen_of_some hfails] at h
    cases h
  | none => rwa [andThen_of_none hfails] at h

theorem result_of_giveBack {α : Type} {db : Behaviour} {result : Except Fault α} {trace : Trace}
    {x : α} (h : (giveBack db result trace).1 = .ok x) : result = .ok x := by
  have hrolledBack := next_of_andThen h
  have hclosed := next_of_andThen hrolledBack
  exact hclosed

/-- Rows are returned only of a result that was fetched, each cell of which could be handed on. -/
theorem rowOf_of_execute {db : Behaviour} {sql : String} {limit : Value} {trace : Trace}
    {rows : List Row} (h : (execute db sql limit trace).1 = .ok rows) :
    List.Forall₂ (fun cells row => rowOf db.table.columns cells = .ok row) db.table.rows rows := by
  have hgiven := next_of_andThen h
  have hresult : (statements db sql limit (trace ++ [.connect])).1 = .ok rows :=
    result_of_giveBack hgiven
  have hlimit := next_of_andThen hresult
  cases hnumber : Policy.wholeNumber limit with
  | error e =>
    rw [hnumber] at hlimit
    cases hlimit
  | ok milliseconds =>
    rw [hnumber] at hlimit
    apply forall₂_of_mapM
    exact next_of_andThen (next_of_andThen (next_of_andThen (next_of_andThen hlimit)))

end Database

end QueryGate
