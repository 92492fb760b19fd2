import QueryGate.Guard.Source
import QueryGate.Indexed.Structure

/-!
# Reading the tables of a block by place

A block is filled while its `FROM` clause is read: each table is added with the names that stand
for it, and each join with its condition.
-/

namespace QueryGate
namespace Indexed

open Sql Guard

/-- What has been read of a query block. -/
structure Block where
  select : List Token
  limit : Option (List Token)
  tables : List String
  /-- The table that each name stands for. -/
  aliases : List (String × String)
  /-- The joined tables with their conditions. -/
  joins : List (String × List Token)
  deriving DecidableEq

namespace Block

/-- A block of which no table has been read. -/
def ofSelect (select : List Token) (limit : Option (List Token)) : Block :=
  ⟨select, limit, [], [], []⟩

/-- Adds a table. -/
def withTable (b : Block) (table : String) : Block := { b with tables := b.tables ++ [table] }

/-- Adds the condition of a join. -/
def withJoin (b : Block) (table : String) (on_ : List Token) : Block :=
  { b with joins := b.joins ++ [(table, on_)] }

/-- Lets names stand for a table, unless one of them stands for another one. -/
def withNames (b : Block) (table : String) : List String → Run Block
  | [] => .ok b
  | name :: names =>
    let named := { b with aliases := (name, table) :: b.aliases }
    match b.aliases.lookup name with
    | none => named.withNames table names
    | some known =>
      if known = table then named.withNames table names else reject (.ambiguousAlias name)

end Block

/-- Reads the optional alias of a table and gives the place behind it. -/
def aliasAt (ts : List Token) (place : Nat) (table : String) : Run (Nat × Option String) := do
  let announced ← itemIs ts place (·.isKeyword .as_)
  if announced then
    let named ← itemIs ts (place + 1) (·.isIdentifier)
    if named then
      let name ← item ts (place + 1 : Nat)
      .ok (place + 2, some name.name)
    else reject (.missingAlias table)
  else
    let named ← itemIs ts place (·.isPlainIdentifier)
    if named then
      let name ← item ts place
      .ok (place + 1, some name.name)
    else .ok (place, none)

/-- Reads a table with its alias and gives the place behind it. -/
def tableRefAt (ts : List Token) (place : Nat) (b : Block) : Run (Nat × Block) :=
  if ts.length ≤ place then reject .missingTable
  else do
    let t ← item ts place
    if t = .lparen then reject .derivedTable
    else if !t.isPlainIdentifier then reject (.notATable t)
    else
      let qualifies ← itemIs ts (place + 1) (· == .dot)
      if qualifies then reject (.qualifiedTable (slice ts place (place + 3)))
      else
        let (behind, aliasName) ← aliasAt ts (place + 1) t.name
        let b ← (b.withTable t.name).withNames t.name [t.name, aliasName.getD t.name]
        .ok (behind, b)

/-- The place behind the `JOIN` at a place; `t` is the first of the words that announce it. -/
def joinKeywordAt (ts : List Token) (place : Nat) (t : Token) : Run Nat := do
  let joins ← itemIs ts place (·.isKeyword .join)
  if joins then .ok (place + 1)
  else
    let near ← itemOr ts place t
    reject (.unsupportedFrom near)

/-- The place behind the words that announce a join. -/
def joinWordsAt (ts : List Token) (place : Nat) : Run Nat := do
  let t ← item ts place
  if t = .comma then reject .commaJoin
  else
    let outer ← guarded (t.isOneOf [.left, .right]) (itemIs ts (place + 1) (·.isKeyword .outer))
    let next :=
      if t.isKeyword .inner then place + 1
      else if t.isOneOf [.left, .right] then if outer then place + 2 else place + 1
      else place
    joinKeywordAt ts next t

/-- The place where the condition of a join ends, from a place in it. -/
def conditionEnd (ts : List Token) (place : Nat) : Run Nat :=
  if place < ts.length then do
    let t ← item ts place
    if startsJoin t then .ok place
    else if t = .comma then reject .commaJoin
    else conditionEnd ts (place + 1)
  else .ok place
  termination_by ts.length - place

/-- Reads a join and gives the place behind its condition. -/
def joinAt (ts : List Token) (place : Nat) (b : Block) : Run (Nat × Block) := do
  let named ← joinWordsAt ts place
  let (behind, b) ← tableRefAt ts named b
  let conditioned ← itemIs ts behind (·.isKeyword .on_)
  if conditioned then
    let stop ← conditionEnd ts (behind + 1)
    let table ← item b.tables (-1)
    .ok (stop, b.withJoin table (slice ts (behind + 1) stop))
  else
    let table ← item b.tables (-1)
    reject (.joinWithoutOn table)

section Forward

variable {ts : List Token} {place behind : Nat} {b got : Block}

theorem le_of_aliasAt {table : String} {name : Option String}
    (h : aliasAt ts place table = .ok (behind, name)) : place ≤ behind := by
  simp only [aliasAt, bind_eq_ok] at h
  obtain ⟨announced, -, h⟩ := h
  split at h
  · obtain ⟨named, -, h⟩ := bind_eq_ok.mp h
    split at h
    · obtain ⟨t, -, h⟩ := bind_eq_ok.mp h
      cases h
      exact Nat.le_add_right place 2
    · cases h
  · obtain ⟨named, -, h⟩ := bind_eq_ok.mp h
    split at h
    · obtain ⟨t, -, h⟩ := bind_eq_ok.mp h
      cases h
      exact Nat.le_succ place
    · cases h
      exact Nat.le_refl place

theorem lt_of_tableRefAt (h : tableRefAt ts place b = .ok (behind, got)) : place < behind := by
  unfold tableRefAt at h
  split at h
  · cases h
  · obtain ⟨t, -, h⟩ := bind_eq_ok.mp h
    split at h
    · cases h
    · split at h
      · cases h
      · obtain ⟨qualifies, -, h⟩ := bind_eq_ok.mp h
        split at h
        · cases h
        · obtain ⟨⟨stop, name⟩, halias, h⟩ := bind_eq_ok.mp h
          obtain ⟨filled, -, h⟩ := bind_eq_ok.mp h
          cases h
          exact le_of_aliasAt halias

theorem lt_of_joinKeywordAt {t : Token} (h : joinKeywordAt ts place t = .ok behind) :
    place < behind := by
  obtain ⟨joins, -, h⟩ := bind_eq_ok.mp h
  split at h
  · cases h
    exact Nat.lt_succ_self place
  · obtain ⟨near, -, h⟩ := bind_eq_ok.mp h
    cases h

theorem lt_of_joinWordsAt (h : joinWordsAt ts place = .ok behind) : place < behind := by
  obtain ⟨t, -, h⟩ := bind_eq_ok.mp h
  split at h
  · cases h
  · obtain ⟨outer, -, h⟩ := bind_eq_ok.mp h
    refine Nat.lt_of_le_of_lt ?_ (lt_of_joinKeywordAt h)
    split
    · omega
    · split
      · split <;> omega
      · omega

theorem le_of_conditionEnd (h : conditionEnd ts place = .ok behind) : place ≤ behind := by
  fun_induction conditionEnd ts place with
  | case1 place hplace ih =>
    obtain ⟨t, -, h⟩ := bind_eq_ok.mp h
    split at h
    · cases h
      exact Nat.le_refl _
    · split at h
      · cases h
      · exact Nat.le_of_succ_le (ih h)
  | case2 => cases h; exact Nat.le_refl _

theorem lt_of_joinAt (h : joinAt ts place b = .ok (behind, got)) : place < behind := by
  obtain ⟨named, hwords, h⟩ := bind_eq_ok.mp h
  obtain ⟨⟨condition, filled⟩, htable, h⟩ := bind_eq_ok.mp h
  obtain ⟨conditioned, -, h⟩ := bind_eq_ok.mp h
  split at h
  · obtain ⟨stop, hstop, h⟩ := bind_eq_ok.mp h
    obtain ⟨table, -, h⟩ := bind_eq_ok.mp h
    cases h
    have hnamed := lt_of_joinWordsAt hwords
    have hcondition := lt_of_tableRefAt htable
    have hbehind := le_of_conditionEnd hstop
    omega
  · obtain ⟨table, -, h⟩ := bind_eq_ok.mp h
    cases h

end Forward

/-- Reads the joins from a place on. -/
def joinsAt (ts : List Token) (place : Nat) (b : Block) : Run Block :=
  if place < ts.length then
    match _h : joinAt ts place b with
    | .error e => .error e
    | .ok (behind, b) => joinsAt ts behind b
  else .ok b
  termination_by ts.length - place
  decreasing_by
    have := lt_of_joinAt _h
    omega

/-- Reads the tokens of a `FROM` clause into a block. -/
def readFrom (ts : List Token) (b : Block) : Run Block := do
  let (behind, b) ← tableRefAt ts 0 b
  joinsAt ts behind b

end Indexed
end QueryGate
