import Mathlib.Data.List.Forall2
import QueryGate.Indexed.Source
import QueryGate.Proofs.Indexed.Structure

/-!
# The tables of a block, read by place

While a `FROM` clause is read by place, the block that is being filled holds the tables, names and
joins that the recursion over the tokens has found so far.  So the names can always be looked up,
the last table is there when its join is recorded, and both readings fail for the same reason.
-/

namespace QueryGate
namespace Indexed

open Sql Guard

variable {α β γ δ : Type}

/-! ### Runs beside checks -/

/-- A run beside a check: results that are related, or the same rejection. -/
inductive Follows (R : α → β → Prop) : Run α → Except Rejection β → Prop
  | ok {x : α} {y : β} : R x y → Follows R (.ok x) (.ok y)
  | rejected (why : Rejection) : Follows R (.error (.rejected why)) (.error why)

namespace Follows

variable {R : α → β → Prop} {S : γ → δ → Prop} {run : Run α} {check : Except Rejection β}

theorem bind (h : Follows R run check) {next : α → Run γ} {more : β → Except Rejection δ}
    (hnext : ∀ x y, R x y → Follows S (next x) (more y)) :
    Follows S (run >>= next) (check >>= more) := by
  cases h with
  | ok hxy => exact hnext _ _ hxy
  | rejected why => exact .rejected why

theorem mono (h : Follows R run check) {Q : α → β → Prop} (hRQ : ∀ x y, R x y → Q x y) :
    Follows Q run check := by
  cases h with
  | ok hxy => exact .ok (hRQ _ _ hxy)
  | rejected why => exact .rejected why

/-- A last step that only puts the result together. -/
theorem finish (h : Follows R run check) {f : α → γ} {Q : γ → β → Prop}
    (hRQ : ∀ x y, R x y → Q (f x) y) : Follows Q (run >>= fun x => .ok (f x)) check := by
  cases h with
  | ok hxy => exact .ok (hRQ _ _ hxy)
  | rejected why => exact .rejected why

theorem finishCheck (h : Follows R run check) {g : β → δ} {Q : α → δ → Prop}
    (hRQ : ∀ x y, R x y → Q x (g y)) : Follows Q run (check >>= fun y => .ok (g y)) := by
  cases h with
  | ok hxy => exact .ok (hRQ _ _ hxy)
  | rejected why => exact .rejected why

theorem mapM {f : γ → Run α} {g : γ → Except Rejection β} {xs : List γ}
    (h : ∀ x ∈ xs, Follows R (f x) (g x)) : Follows (List.Forall₂ R) (xs.mapM f) (xs.mapM g) := by
  induction xs with
  | nil => exact .ok .nil
  | cons x xs ih =>
    obtain ⟨hx, hxs⟩ := List.forall_mem_cons.mp h
    rw [List.mapM_cons, List.mapM_cons]
    refine hx.bind fun y z hyz => (ih hxs).bind fun ys zs hyzs => ?_
    exact .ok (.cons hyz hyzs)

end Follows

/-! ### Names -/

/-- A block that is being filled holds these tables and joins. -/
structure Fills (b : Block) (select : List Token) (limit : Option (List Token))
    (refs : List TableRef) (joins : List Join) : Prop where
  select_eq : b.select = select
  limit_eq : b.limit = limit
  tables_eq : b.tables = refs.map (·.table)
  lookup_eq : ∀ name, b.aliases.lookup name = tableNamed? refs name
  joins_eq : b.joins = joins.map fun j => (j.ref.table, j.on_)

theorem fills_ofSelect (select : List Token) (limit : Option (List Token)) :
    Fills (Block.ofSelect select limit) select limit [] [] :=
  ⟨rfl, rfl, rfl, fun _ => rfl, rfl⟩

theorem lookup_cons_eq (name key table : String) (entries : List (String × String)) :
    ((key, table) :: entries).lookup name =
      if name = key then some table else entries.lookup name := by
  by_cases h : name = key
  · rw [if_pos h, h, List.lookup_cons_self]
  · rw [if_neg h, List.lookup_cons, beq_eq_false_iff_ne.mpr h]

/-- The block with one more name. -/
def Block.named (b : Block) (table name : String) : Block :=
  { b with aliases := (name, table) :: b.aliases }

theorem withNames_cons (b : Block) (table name : String) (names : List String) :
    b.withNames table (name :: names) =
      if (b.aliases.lookup name).any (· != table) then reject (.ambiguousAlias name)
      else (b.named table name).withNames table names := by
  rw [Block.withNames]
  cases b.aliases.lookup name with
  | none => rfl
  | some known => by_cases h : known = table <;> simp [h, Block.named]

theorem clashes_eq (seen : List TableRef) (table name : String) :
    clashes seen table name = (tableNamed? seen name).any (· != table) := by
  rw [clashes]
  cases tableNamed? seen name <;> rfl

theorem tableNamed?_concat (refs : List TableRef) (ref : TableRef) (name : String) :
    tableNamed? (refs ++ [ref]) name =
      (tableNamed? refs name).or (if ref.isNamed name then some ref.table else none) := by
  rw [tableNamed?, tableNamed?, List.find?_append]
  cases refs.find? fun r => r.isNamed name with
  | some known => rfl
  | none => cases h : ref.isNamed name <;> simp [List.find?, h]

theorem isNamed_iff (ref : TableRef) (name : String) :
    ref.isNamed name = true ↔ name = ref.aliasName.getD ref.table ∨ name = ref.table := by
  rcases ref with ⟨table, _ | other⟩
  · simp only [TableRef.isNamed, Bool.or_eq_true, beq_iff_eq, reduceCtorEq, or_false,
      Option.getD_none, or_self]
    exact eq_comm
  · simp only [TableRef.isNamed, Bool.or_eq_true, beq_iff_eq, Option.some.injEq, Option.getD_some]
    rw [or_comm, @eq_comm _ other, @eq_comm _ table]

/-- A name that clashes with nothing stands for the table from now on. -/
theorem tableNamed?_concat_of_isNamed {refs : List TableRef} {ref : TableRef} {name : String}
    (hname : ref.isNamed name = true) (hclash : clashes refs ref.table name = false) :
    tableNamed? (refs ++ [ref]) name = some ref.table := by
  rw [tableNamed?_concat, if_pos hname]
  rw [clashes_eq] at hclash
  cases h : tableNamed? refs name with
  | none => rfl
  | some known =>
    rw [h, Option.any_some, bne_eq_false_iff_eq] at hclash
    rw [hclash]
    rfl

section Names

variable {b : Block} {select : List Token} {limit : Option (List Token)} {refs : List TableRef}
  {joins : List Join}

/-- The block with a table and both its names. -/
theorem fills_withRef (h : Fills b select limit refs joins) (ref : TableRef)
    (htable : clashes refs ref.table ref.table = false)
    (hname : clashes refs ref.table (ref.aliasName.getD ref.table) = false) :
    Fills (((b.withTable ref.table).named ref.table ref.table).named ref.table
      (ref.aliasName.getD ref.table)) select limit (refs ++ [ref]) joins := by
  refine ⟨h.select_eq, h.limit_eq, ?_, fun name => ?_, h.joins_eq⟩
  · show b.tables ++ [ref.table] = _
    rw [h.tables_eq, List.map_append]
    rfl
  · show ((ref.aliasName.getD ref.table, ref.table) :: (ref.table, ref.table) ::
      b.aliases).lookup name = _
    rw [lookup_cons_eq, lookup_cons_eq, h.lookup_eq]
    by_cases hother : name = ref.aliasName.getD ref.table
    · rw [if_pos hother, tableNamed?_concat_of_isNamed ((isNamed_iff ref name).mpr (.inl hother))]
      rw [hother]
      exact hname
    · rw [if_neg hother]
      by_cases hown : name = ref.table
      · rw [if_pos hown, tableNamed?_concat_of_isNamed ((isNamed_iff ref name).mpr (.inr hown))]
        rw [hown]
        exact htable
      · have hno : ¬ref.isNamed name = true := fun hnamed =>
          ((isNamed_iff ref name).mp hnamed).elim hother hown
        rw [if_neg hown, tableNamed?_concat, if_neg hno, Option.or_none]

/-- Both names of a table are checked, its own first. -/
theorem withNames_follows (h : Fills b select limit refs joins) (ref : TableRef)
    (rest : List Token) :
    Follows (fun filled got => got = (ref, rest) ∧ Fills filled select limit (refs ++ [ref]) joins)
      ((b.withTable ref.table).withNames ref.table [ref.table, ref.aliasName.getD ref.table])
      (withRef refs ref rest) := by
  have hown : ((b.withTable ref.table).aliases.lookup ref.table).any (· != ref.table) =
      clashes refs ref.table ref.table := by
    rw [clashes_eq, ← h.lookup_eq]
    rfl
  rw [withNames_cons, hown, withRef]
  by_cases htable : clashes refs ref.table ref.table = true
  · rw [if_pos htable, if_pos htable]
    exact .rejected _
  · rw [if_neg htable, if_neg htable, withNames_cons]
    have hfree := Bool.eq_false_iff.mpr htable
    have hother : (((b.withTable ref.table).named ref.table ref.table).aliases.lookup
        (ref.aliasName.getD ref.table)).any (· != ref.table) =
          clashes refs ref.table (ref.aliasName.getD ref.table) := by
      show (List.lookup _ ((ref.table, ref.table) :: b.aliases)).any _ = _
      rw [lookup_cons_eq, h.lookup_eq, clashes_eq]
      split
      · rename_i heq
        rw [heq, ← clashes_eq, hfree, Option.any_some, bne_self_eq_false]
      · rfl
    rw [hother]
    by_cases hname : clashes refs ref.table (ref.aliasName.getD ref.table) = true
    · rw [if_pos hname]
      cases halias : ref.aliasName with
      | none =>
        rw [halias, Option.getD_none] at hname
        exact absurd hname htable
      | some name =>
        rw [halias, Option.getD_some] at hname
        simp only [if_pos hname]
        exact .rejected _
    · rw [if_neg hname]
      have hfills := fills_withRef h ref hfree (Bool.eq_false_iff.mpr hname)
      cases halias : ref.aliasName with
      | none =>
        rw [halias] at hfills
        exact .ok ⟨rfl, hfills⟩
      | some name =>
        rw [halias, Option.getD_some] at hname
        rw [halias] at hfills
        simp only [if_neg hname]
        exact .ok ⟨rfl, hfills⟩

end Names

/-! ### Tables -/

/-- The optional alias of a table and the tokens behind it. -/
def aliasOf (table : String) : List Token → Except Rejection (Option String × List Token)
  | [] => .ok (none, [])
  | t :: r =>
    if t.isKeyword .as_ then
      match r with
      | [] => .error (.missingAlias table)
      | n :: rest => if n.isIdentifier then .ok (some n.name, rest) else .error (.missingAlias table)
    else if t.isPlainIdentifier then .ok (some t.name, r)
    else .ok (none, t :: r)

theorem aliasFrom_eq (seen : List TableRef) (table : String) (us : List Token) :
    aliasFrom seen table us =
      (aliasOf table us >>= fun got => withRef seen ⟨table, got.1⟩ got.2) := by
  cases us with
  | nil => rfl
  | cons t r =>
    rw [aliasFrom.eq_def, aliasOf.eq_def]
    dsimp only
    by_cases has : t.isKeyword .as_ = true
    · rw [if_pos has, if_pos has]
      cases r with
      | nil => rfl
      | cons n rest => by_cases hn : n.isIdentifier = true <;> simp only [hn] <;> rfl
    · rw [if_neg has, if_neg has]
      by_cases hplain : t.isPlainIdentifier = true <;> simp only [hplain] <;> rfl

section Reading

variable {b : Block} {select : List Token} {limit : Option (List Token)} {refs : List TableRef}
  {joins : List Join} {ts us : List Token} {place : Nat}

theorem aliasAt_follows (table : String) (hdrop : ts.drop place = us) :
    Follows (fun p q => p.2 = q.1 ∧ ts.drop p.1 = q.2) (aliasAt ts place table)
      (aliasOf table us) := by
  cases us with
  | nil =>
    rw [aliasAt, itemIs_of_end hdrop, itemIs_of_end hdrop]
    exact .ok ⟨rfl, hdrop⟩
  | cons t r =>
    have hnext := drop_succ hdrop
    rw [aliasAt, itemIs_of_drop hdrop, ok_bind, aliasOf.eq_def]
    dsimp only
    by_cases has : t.isKeyword .as_ = true
    · rw [if_pos has, if_pos has]
      cases r with
      | nil =>
        rw [itemIs_of_end hnext]
        exact .rejected _
      | cons n rest =>
        rw [itemIs_of_drop hnext, ok_bind]
        by_cases hn : n.isIdentifier = true
        · rw [if_pos hn, item_of_drop hnext]
          simp only [if_pos hn]
          exact .ok ⟨rfl, drop_succ hnext⟩
        · rw [if_neg hn]
          simp only [if_neg hn]
          exact .rejected _
    · rw [if_neg has, if_neg has, itemIs_of_drop hdrop, ok_bind]
      by_cases hplain : t.isPlainIdentifier = true
      · rw [if_pos hplain, if_pos hplain, item_of_drop hdrop]
        exact .ok ⟨rfl, hnext⟩
      · rw [if_neg hplain, if_neg hplain]
        exact .ok ⟨rfl, hdrop⟩

theorem tableRefFrom_cons (seen : List TableRef) (t : Token) (r : List Token) :
    tableRefFrom seen (t :: r) =
      if t = .lparen then .error .derivedTable
      else if !t.isPlainIdentifier then .error (.notATable t)
      else if r.head?.any (· == .dot) then .error (.qualifiedTable ((t :: r).take 3))
      else aliasFrom seen t.name r := by
  rw [tableRefFrom.eq_def]
  dsimp only
  by_cases hopen : t = .lparen
  · rw [if_pos hopen, if_pos hopen]
  · rw [if_neg hopen, if_neg hopen]
    cases t.isPlainIdentifier with
    | false => rfl
    | true => rcases r with _ | ⟨_ | _ | _ | _ | _ | _ | _ | _ | _ | _, more⟩ <;> rfl

/-- Reading a table by place adds it, with both its names, to the block. -/
theorem tableRefAt_follows (h : Fills b select limit refs joins) (hdrop : ts.drop place = us) :
    Follows (fun p q => ts.drop p.1 = q.2 ∧ Fills p.2 select limit (refs ++ [q.1]) joins)
      (tableRefAt ts place b) (tableRefFrom refs us) := by
  cases us with
  | nil =>
    rw [tableRefAt, if_pos (List.drop_eq_nil_iff.mp hdrop)]
    exact .rejected _
  | cons t r =>
    have hnext := drop_succ hdrop
    rw [tableRefAt, if_neg (Nat.not_le_of_lt (lt_of_drop hdrop)), item_of_drop hdrop, ok_bind,
      tableRefFrom_cons, itemIs_eq, hnext, slice_of_drop hdrop]
    by_cases hopen : t = .lparen
    · rw [if_pos hopen, if_pos hopen]
      exact .rejected _
    · rw [if_neg hopen, if_neg hopen]
      by_cases hplain : (!t.isPlainIdentifier) = true
      · rw [if_pos hplain, if_pos hplain]
        exact .rejected _
      · rw [if_neg hplain, if_neg hplain, ok_bind]
        by_cases hdot : r.head?.any (· == .dot) = true
        · rw [if_pos hdot, if_pos hdot]
          exact .rejected _
        · rw [if_neg hdot, if_neg hdot, aliasFrom_eq]
          refine (aliasAt_follows t.name hnext).bind fun p q hpq => ?_
          obtain ⟨behind, name⟩ := p
          obtain ⟨rfl, hbehind⟩ := hpq
          refine (withNames_follows h ⟨t.name, q.1⟩ q.2).finish fun filled got hgot => ?_
          rw [hgot.1]
          exact ⟨hbehind, hgot.2⟩

theorem joinKeywordAt_follows (t : Token) : ts.drop place = us →
    Follows (fun stop rest => ts.drop stop = rest) (joinKeywordAt ts place t)
      (match us with
      | [] => .error (.unsupportedFrom t)
      | j :: more => if j.isKeyword .join then .ok more else .error (.unsupportedFrom j)) := by
  intro hdrop
  rw [joinKeywordAt, itemOr_of_drop hdrop]
  cases us with
  | nil =>
    rw [itemIs_of_end hdrop]
    exact .rejected _
  | cons j more =>
    rw [itemIs_of_drop hdrop, ok_bind]
    by_cases hjoin : j.isKeyword .join = true
    · simp only [if_pos hjoin]
      exact .ok (drop_succ hdrop)
    · simp only [if_neg hjoin]
      exact .rejected _

theorem joinWordsAt_follows {t : Token} {r : List Token} (hdrop : ts.drop place = t :: r) :
    Follows (fun stop rest => ts.drop stop = rest) (joinWordsAt ts place) (joinWords t r) := by
  have hnext := drop_succ hdrop
  rw [joinWordsAt, item_of_drop hdrop, ok_bind, joinWords.eq_def, itemIs_eq, guarded_ok, hnext]
  by_cases hcomma : t = .comma
  · rw [if_pos hcomma, if_pos hcomma]
    exact .rejected _
  · rw [if_neg hcomma, if_neg hcomma, ok_bind]
    apply joinKeywordAt_follows
    by_cases hinner : t.isKeyword .inner = true
    · rw [if_pos hinner, if_pos hinner, hnext]
    · rw [if_neg hinner, if_neg hinner]
      cases hside : t.isOneOf [.left, .right] with
      | false => exact hdrop
      | true =>
        cases r with
        | nil => exact hnext
        | cons o more =>
          rw [if_pos rfl, if_pos rfl, Bool.true_and, List.head?_cons, Option.any_some]
          show _ = if o.isKeyword .outer then more else o :: more
          cases houter : o.isKeyword .outer with
          | false => exact hnext
          | true => exact drop_succ hnext

/-! ### Joins -/

theorem take_takeWhile (p : α → Bool) (xs : List α) :
    xs.take (xs.takeWhile p).length = xs.takeWhile p := by
  have h := List.takeWhile_append_dropWhile (p := p) (l := xs)
  calc xs.take (xs.takeWhile p).length
      = (xs.takeWhile p ++ xs.dropWhile p).take (xs.takeWhile p).length := by rw [h]
    _ = xs.takeWhile p := List.take_left

theorem drop_takeWhile (p : α → Bool) (xs : List α) :
    xs.drop (xs.takeWhile p).length = xs.dropWhile p := by
  have h := List.takeWhile_append_dropWhile (p := p) (l := xs)
  calc xs.drop (xs.takeWhile p).length
      = (xs.takeWhile p ++ xs.dropWhile p).drop (xs.takeWhile p).length := by rw [h]
    _ = xs.dropWhile p := List.drop_left

/-- A condition goes on up to the word that announces the next join, and holds no comma. -/
theorem conditionEnd_eq (hdrop : ts.drop place = us) :
    conditionEnd ts place =
      if (us.takeWhile fun u => !startsJoin u).contains .comma then reject .commaJoin
      else .ok (place + (us.takeWhile fun u => !startsJoin u).length) := by
  induction us generalizing place with
  | nil =>
    have hle : ¬place < ts.length := Nat.not_lt.mpr (List.drop_eq_nil_iff.mp hdrop)
    rw [conditionEnd, if_neg hle]
    rfl
  | cons t r ih =>
    rw [conditionEnd, if_pos (lt_of_drop hdrop), item_of_drop hdrop, ok_bind]
    by_cases hstart : startsJoin t = true
    · have hstop : ¬(!startsJoin t) = true := by simp [hstart]
      rw [if_pos hstart, List.takeWhile_cons, if_neg hstop]
      rfl
    · have hgoes : (!startsJoin t) = true := by simp [hstart]
      rw [if_neg hstart, List.takeWhile_cons, if_pos hgoes, List.contains_cons]
      by_cases hcomma : t = .comma
      · rw [if_pos hcomma, hcomma, beq_self_eq_true, Bool.true_or, if_pos rfl]
      · have hother : (Token.comma == t) = false := beq_eq_false_iff_ne.mpr (Ne.symm hcomma)
        rw [if_neg hcomma, hother, Bool.false_or, ih (drop_succ hdrop), List.length_cons,
          Nat.add_assoc, Nat.add_comm 1]

/-- A join and the tokens behind its condition. -/
def joinFrom (seen : List TableRef) (t : Token) (r : List Token) :
    Except Rejection (Join × List Token) := do
  let named ← joinWords t r
  let (ref, behind) ← tableRefFrom seen named
  match behind with
  | [] => .error (.joinWithoutOn ref.table)
  | o :: rest =>
    if o.isKeyword .on_ then
      if (rest.takeWhile fun u => !startsJoin u).contains .comma then .error .commaJoin
      else .ok (⟨ref, rest.takeWhile fun u => !startsJoin u⟩, rest.dropWhile fun u => !startsJoin u)
    else .error (.joinWithoutOn ref.table)

theorem joinsFrom_eq (seen : List TableRef) (t : Token) (r : List Token) :
    joinsFrom seen (t :: r) = (do
      let (join, rest) ← joinFrom seen t r
      let more ← joinsFrom (seen ++ [join.ref]) rest
      .ok (join :: more)) := by
  rw [joinsFrom_cons, joinFrom]
  cases joinWords t r with
  | error e => rfl
  | ok named =>
    simp only [ok_bind]
    rcases tableRefFrom seen named with e | ⟨ref, _ | ⟨o, rest⟩⟩
    · rfl
    · rfl
    · simp only [ok_bind]
      split
      · split
        · rfl
        · rw [ok_bind]
          cases joinsFrom (seen ++ [ref]) (rest.dropWhile fun u => !startsJoin u) <;> rfl
      · rfl

/-- Reading a join by place adds its table and its condition to the block. -/
theorem joinAt_follows (h : Fills b select limit refs joins) {t : Token} {r : List Token}
    (hdrop : ts.drop place = t :: r) :
    Follows (fun p q => ts.drop p.1 = q.2 ∧
        Fills p.2 select limit (refs ++ [q.1.ref]) (joins ++ [q.1]))
      (joinAt ts place b) (joinFrom refs t r) := by
  refine (joinWordsAt_follows hdrop).bind fun named us hnamed => ?_
  refine (tableRefAt_follows h hnamed).bind ?_
  rintro ⟨behind, filled⟩ ⟨ref, rest⟩ ⟨hbehind, hfills⟩
  have hlast : item filled.tables (-1) = .ok ref.table := by
    rw [hfills.tables_eq, List.map_append, List.map_singleton]
    exact item_last _ _
  cases rest with
  | nil =>
    simp only [itemIs_of_end hbehind, ok_bind, hlast]
    exact .rejected _
  | cons o rest =>
    have hrest := drop_succ hbehind
    simp only [itemIs_of_drop hbehind, ok_bind, hlast]
    by_cases hon : o.isKeyword .on_ = true
    · rw [if_pos hon, if_pos hon, conditionEnd_eq hrest]
      by_cases hcomma : (rest.takeWhile fun u => !startsJoin u).contains .comma = true
      · rw [if_pos hcomma, if_pos hcomma]
        exact .rejected _
      · rw [if_neg hcomma, if_neg hcomma, ok_bind, slice_of_drop hrest]
        refine .ok ⟨?_, hfills.select_eq, hfills.limit_eq, hfills.tables_eq, hfills.lookup_eq, ?_⟩
        · rw [← List.drop_drop, hrest, drop_takeWhile]
        · rw [List.map_append, ← hfills.joins_eq, take_takeWhile]
          rfl
    · rw [if_neg hon, if_neg hon]
      exact .rejected _

/-- The joins are read one after another, until no token is left. -/
theorem joinsAt_follows (h : Fills b select limit refs joins) (place : Nat) :
    Follows (fun filled more =>
        Fills filled select limit (refs ++ more.map (·.ref)) (joins ++ more))
      (joinsAt ts place b) (joinsFrom refs (ts.drop place)) := by
  fun_induction joinsAt ts place b generalizing refs joins with
  | case1 place b hplace e herror =>
    obtain ⟨t, hdrop⟩ : ∃ t, ts.drop place = t :: ts.drop (place + 1) :=
      ⟨_, List.drop_eq_getElem_cons hplace⟩
    have hjoin := joinAt_follows h hdrop
    rw [herror] at hjoin
    rw [hdrop, joinsFrom_eq]
    generalize joinFrom refs t (ts.drop (place + 1)) = found at hjoin
    cases hjoin with
    | rejected why => exact .rejected why
  | case2 place b hplace behind filled hread ih =>
    obtain ⟨t, hdrop⟩ : ∃ t, ts.drop place = t :: ts.drop (place + 1) :=
      ⟨_, List.drop_eq_getElem_cons hplace⟩
    have hjoin := joinAt_follows h hdrop
    rw [hread] at hjoin
    rw [hdrop, joinsFrom_eq]
    generalize joinFrom refs t (ts.drop (place + 1)) = found at hjoin
    cases hjoin with
    | @ok _ got hgot =>
      obtain ⟨join, rest⟩ := got
      obtain ⟨hrest, hfills⟩ := hgot
      have hmore := ih hfills
      rw [hrest] at hmore
      refine hmore.finishCheck fun filled more hfilled => ?_
      simpa only [List.append_assoc, List.singleton_append, List.map_cons] using hfilled
  | case3 place b hplace =>
    rw [List.drop_eq_nil_of_le (Nat.le_of_not_lt hplace), joinsFrom]
    refine .ok ?_
    rw [List.map_nil, List.append_nil, List.append_nil]
    exact h

end Reading

theorem sourceOf_eq (ts : List Token) :
    sourceOf ts = (do
      let (first, rest) ← tableRefFrom [] ts
      let joins ← joinsFrom [first] rest
      .ok ⟨first, joins⟩) := by
  rw [sourceOf]
  rcases tableRefFrom [] ts with e | ⟨first, rest⟩
  · rfl
  · simp only [ok_bind]
    cases joinsFrom [first] rest <;> rfl

/-- Reading a `FROM` clause by place fills the block with its tables and joins. -/
theorem readFrom_follows (select : List Token) (limit : Option (List Token)) (ts : List Token) :
    Follows (fun filled source => Fills filled select limit source.refs source.joins)
      (readFrom ts (Block.ofSelect select limit)) (sourceOf ts) := by
  rw [readFrom, sourceOf_eq]
  refine (tableRefAt_follows (fills_ofSelect select limit) List.drop_zero).bind ?_
  rintro ⟨behind, filled⟩ ⟨first, rest⟩ ⟨hrest, hfills⟩
  have hjoins : Follows
      (fun b more => Fills b select limit ([first] ++ more.map (·.ref)) ([] ++ more))
      (joinsAt ts behind filled) (joinsFrom [first] (ts.drop behind)) :=
    joinsAt_follows hfills behind
  dsimp only at hrest
  rw [hrest] at hjoins
  exact hjoins.finishCheck fun _ _ hfilled => hfilled

end Indexed
end QueryGate
