import QueryGate.Guard.Rejection

/-!
# The tables of a query block

A `FROM` clause names a first table and joins others to it one by one, each with its condition.
Every table can have an alias, and no name may stand for two tables.
-/

namespace QueryGate
namespace Guard

open Sql

/-- A table with its alias. -/
structure TableRef where
  table : String
  aliasName : Option String
  deriving DecidableEq, Repr

/-- Whether a name stands for the table. -/
def TableRef.isNamed (ref : TableRef) (name : String) : Bool :=
  ref.table == name || ref.aliasName == some name

/-- A table that is joined to the ones before, and its condition. -/
structure Join where
  ref : TableRef
  on_ : List Token
  deriving DecidableEq, Repr

/-- The tables of a block. -/
structure Source where
  first : TableRef
  joins : List Join
  deriving DecidableEq, Repr

/-- The tables in the order in which they are named. -/
def Source.refs (s : Source) : List TableRef := s.first :: s.joins.map (·.ref)

/-- The table that a name stands for. -/
def tableNamed? (refs : List TableRef) (name : String) : Option String :=
  (refs.find? fun ref => ref.isNamed name).map (·.table)

/-- Whether a name already stands for another table. -/
def clashes (seen : List TableRef) (table name : String) : Bool :=
  match tableNamed? seen name with
  | some known => known != table
  | none => false

/-- Adds a table unless one of its names already stands for another one. -/
def withRef (seen : List TableRef) (ref : TableRef) (rest : List Token) :
    Except Rejection (TableRef × List Token) :=
  if clashes seen ref.table ref.table then .error (.ambiguousAlias ref.table)
  else
    match ref.aliasName with
    | none => .ok (ref, rest)
    | some name =>
      if clashes seen ref.table name then .error (.ambiguousAlias name) else .ok (ref, rest)

/-- Reads the optional alias of a table. -/
def aliasFrom (seen : List TableRef) (table : String) :
    List Token → Except Rejection (TableRef × List Token)
  | [] => withRef seen ⟨table, none⟩ []
  | t :: r =>
    if t.isKeyword .as_ then
      match r with
      | [] => .error (.missingAlias table)
      | n :: rest =>
        if n.isIdentifier then withRef seen ⟨table, some n.name⟩ rest
        else .error (.missingAlias table)
    else if t.isPlainIdentifier then withRef seen ⟨table, some t.name⟩ r
    else withRef seen ⟨table, none⟩ (t :: r)

/-- Reads a table with its alias and gives the tokens behind; `seen` are the tables before it. -/
def tableRefFrom (seen : List TableRef) : List Token → Except Rejection (TableRef × List Token)
  | [] => .error .missingTable
  | t :: r =>
    if t = .lparen then .error .derivedTable
    else if t.isPlainIdentifier then
      match r with
      | .dot :: more => .error (.qualifiedTable (t :: .dot :: more.take 1))
      | _ => aliasFrom seen t.name r
    else .error (.notATable t)

/-- Reads the words that announce a join, and gives the tokens behind them. -/
def joinWords (t : Token) (r : List Token) : Except Rejection (List Token) :=
  if t = .comma then .error .commaJoin
  else
    let rest :=
      if t.isKeyword .inner then r
      else if t.isOneOf [.left, .right] then
        match r with
        | o :: more => if o.isKeyword .outer then more else r
        | [] => []
      else t :: r
    match rest with
    | [] => .error (.unsupportedFrom t)
    | j :: more => if j.isKeyword .join then .ok more else .error (.unsupportedFrom j)

/-- Whether a token ends the condition of a join because the next join starts there. -/
def startsJoin (t : Token) : Bool := t.isOneOf [.join, .inner, .left, .right]

theorem withRef_rest {seen : List TableRef} {ref got : TableRef} {rest left : List Token}
    (h : withRef seen ref rest = .ok (got, left)) : left = rest := by
  unfold withRef at h
  split at h
  · cases h
  · split at h
    · cases h; rfl
    · split at h
      · cases h
      · cases h; rfl

theorem aliasFrom_length_le {seen : List TableRef} {table : String} {ts left : List Token}
    {got : TableRef} (h : aliasFrom seen table ts = .ok (got, left)) :
    left.length ≤ ts.length := by
  cases ts with
  | nil => exact Nat.le_of_eq (congrArg List.length (withRef_rest h))
  | cons t r =>
    simp only [aliasFrom] at h
    split at h
    · cases r with
      | nil => cases h
      | cons n rest =>
        simp only at h
        split at h
        · rw [withRef_rest h]; simp; omega
        · cases h
    · split at h
      · rw [withRef_rest h]; simp
      · exact Nat.le_of_eq (congrArg List.length (withRef_rest h))

theorem tableRefFrom_length_lt {seen : List TableRef} {ts left : List Token} {got : TableRef}
    (h : tableRefFrom seen ts = .ok (got, left)) : left.length < ts.length := by
  cases ts with
  | nil => cases h
  | cons t r =>
    simp only [tableRefFrom] at h
    split at h
    · cases h
    · split at h
      · split at h
        · cases h
        · have := aliasFrom_length_le h
          simp; omega
      · cases h

theorem joinWords_length_le {t : Token} {r left : List Token} (h : joinWords t r = .ok left) :
    left.length ≤ r.length := by
  unfold joinWords at h
  split at h
  · cases h
  · simp only at h
    split at h
    · cases h
    · rename_i j more hrest
      split at h
      · cases h
        split at hrest
        · rw [hrest]; simp
        · split at hrest
          · split at hrest
            · split at hrest
              · rw [hrest]; simp; omega
              · rw [hrest]; simp
            · cases hrest
          · cases hrest; exact Nat.le_refl _
      · cases h

/-- Reads the joins behind the first table; `seen` are the tables so far. -/
def joinsFrom (seen : List TableRef) : List Token → Except Rejection (List Join)
  | [] => .ok []
  | t :: r =>
    match _hj : joinWords t r with
    | .error e => .error e
    | .ok named =>
      match _hr : tableRefFrom seen named with
      | .error e => .error e
      | .ok (ref, []) => .error (.joinWithoutOn ref.table)
      | .ok (ref, o :: rest) =>
        if o.isKeyword .on_ then
          let on_ := rest.takeWhile fun u => !startsJoin u
          if on_.contains .comma then .error .commaJoin
          else
            match joinsFrom (seen ++ [ref]) (rest.dropWhile fun u => !startsJoin u) with
            | .error e => .error e
            | .ok more => .ok (⟨ref, on_⟩ :: more)
        else .error (.joinWithoutOn ref.table)
  termination_by ts => ts.length
  decreasing_by
    have h1 := joinWords_length_le _hj
    have h2 := tableRefFrom_length_lt _hr
    have h3 := (List.dropWhile_sublist (l := rest) fun u => !startsJoin u).length_le
    simp only [List.length_cons] at h2 ⊢
    omega

theorem joinsFrom_cons (seen : List TableRef) (t : Token) (r : List Token) :
    joinsFrom seen (t :: r) =
      match joinWords t r with
      | .error e => .error e
      | .ok named =>
        match tableRefFrom seen named with
        | .error e => .error e
        | .ok (ref, []) => .error (.joinWithoutOn ref.table)
        | .ok (ref, o :: rest) =>
          if o.isKeyword .on_ then
            if (rest.takeWhile fun u => !startsJoin u).contains .comma then .error .commaJoin
            else
              match joinsFrom (seen ++ [ref]) (rest.dropWhile fun u => !startsJoin u) with
              | .error e => .error e
              | .ok more => .ok (⟨ref, rest.takeWhile fun u => !startsJoin u⟩ :: more)
          else .error (.joinWithoutOn ref.table) := by
  rw [joinsFrom]
  cases joinWords t r with
  | error e => rfl
  | ok named =>
    dsimp only
    rcases tableRefFrom seen named with e | ⟨ref, _ | ⟨o, rest⟩⟩
    · rfl
    · rfl
    · rfl

/-- Reads the tokens of a `FROM` clause. -/
def sourceOf (ts : List Token) : Except Rejection Source :=
  match tableRefFrom [] ts with
  | .error e => .error e
  | .ok (first, rest) =>
    match joinsFrom [first] rest with
    | .error e => .error e
    | .ok joins => .ok ⟨first, joins⟩

theorem sourceOf_eq_ok {ts : List Token} {source : Source} (h : sourceOf ts = .ok source) :
    ∃ first rest joins, tableRefFrom [] ts = .ok (first, rest) ∧
      joinsFrom [first] rest = .ok joins ∧ source = ⟨first, joins⟩ := by
  unfold sourceOf at h
  split at h
  · cases h
  · rename_i first rest hfirst
    split at h
    · cases h
    · rename_i joins hjoins
      cases h
      exact ⟨first, rest, joins, hfirst, hjoins, rfl⟩

end Guard
end QueryGate
