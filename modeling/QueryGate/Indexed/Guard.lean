import QueryGate.Guard.Check
import QueryGate.Indexed.Source

/-!
# The guard by place

The checks of the guard as they run: on lists that are read by place and names that are looked up.
A run that is rejected gives the answer of the guard; whatever else ends a run ends that of the
guard, too.
-/

namespace QueryGate
namespace Indexed

open Sql Guard

/-! ### Reading blocks -/

/-- The body of a clause that has to be there. -/
def bodyOf (clause : Clause) (sections : List Section) : Run (List Token) :=
  match body? clause sections with
  | some ts => .ok ts
  | none => .error .noEntry

/-- Reads a query block. -/
def blockOf (raw : List Token) : Run Block := do
  let selects ← itemHas raw 0 (·.isKeyword .select)
  if !selects then reject .notSelect
  else if (raw.drop 1).any (·.isKeyword .select) then reject .subquery
  else
    let sections ← rejecting (splitClauses raw)
    let select ← bodyOf .select sections
    let block := Block.ofSelect select (body? .limit sections)
    match body? .from_ sections with
    | some (t :: r) => readFrom (t :: r) block
    | _ => .ok block

/-- Reads the query blocks of a text. -/
def blocksOf (text : List Char) : Run (List Block) := do
  let raws ← rejecting (do
    let ts ← tokensOf text
    splitUnion ts)
  raws.mapM blockOf

section Checks

variable (a : AllowList)

/-! ### Tables -/

/-- Checks that every block reads tables and all of them are allowed. -/
def checkTables (blocks : List Block) : Run Unit :=
  if blocks.any fun b => b.tables.isEmpty then reject .noTables
  else
    match (blocks.flatMap (·.tables)).filter fun table => !a.hasTable table with
    | [] => .ok ()
    | unknown => reject (.unknownTables unknown)

/-! ### Select lists -/

/-- A select item without its alias. -/
def withoutAlias (xs : List Token) : Run (List Token) := do
  let announced ← guarded (3 ≤ xs.length) (itemHas xs (-2) (·.isKeyword .as_))
  if announced then
    let last ← item xs (-1)
    if isAlias last then .ok (xs.take (xs.length - 2)) else reject (.badAlias last)
  else
    let named ← guarded (2 ≤ xs.length) (itemHas xs (-1) (·.isPlainIdentifier))
    let ended ← guarded named (itemHas xs (-2) endsExpression)
    .ok (if ended then xs.take (xs.length - 1) else xs)

variable (b : Block)

/-- Whether a reference is an allowed column, with or without a qualifier. -/
def columnAllowed (ref : List Token) : Run Bool := do
  let bare ← guarded (ref.length = 1) (itemHas ref 0 (·.isIdentifier))
  if bare then
    let c ← item ref 0
    .ok (b.tables.any fun table => (a.columns table).contains c.name)
  else
    let qualified ← guarded (ref.length = 3)
      (itemsMeet ref 0 [(·.isIdentifier), (· == .dot), (·.isIdentifier)])
    if qualified then
      let name ← item ref 0
      let c ← item ref 2
      match b.aliases.lookup name.name with
      | some table => .ok ((a.columns table).contains c.name)
      | none => .ok false
    else .ok false

/-- Whether the rest of an expression on times reads allowed columns only and calls nothing. -/
def timeExpressionAllowed (ts : List Token) (place : Nat) : Run Bool :=
  if place < ts.length then do
    let t ← item ts place
    if t.isIdentifier then
      let calls ← itemIs ts (place + 1) (· == .lparen)
      if calls then .ok false
      else
        let qualifies ← guarded (place + 2 < ts.length) (itemHas ts (place + 1 : Nat) (· == .dot))
        if qualifies then
          let allowed ← columnAllowed a b (slice ts place (place + 3))
          if allowed then timeExpressionAllowed ts (place + 3) else .ok false
        else
          let allowed ← columnAllowed a b [t]
          if allowed then timeExpressionAllowed ts (place + 1) else .ok false
    else if t = .lparen ∨ t = .rparen ∨ t = .dot then .ok false
    else timeExpressionAllowed ts (place + 1)
  else .ok true
  termination_by ts.length - place

/-- Whether a token is a word. -/
def isWord : Token → Bool
  | .word _ => true
  | _ => false

/-- Whether an expression is one call as a whole. -/
def isCall (e : List Token) : Run Bool :=
  guarded (3 ≤ e.length) (do
    let opens ← itemsMeet e 0 [isWord, (· == .lparen)]
    guarded opens (do
      let closing ← matchingParen e 1
      .ok (closing == some (e.length - 1))))

/-- Whether the arguments of a function may be selected with it. -/
def argumentsAllowed (f : Token) (arguments : List Token) : Run Bool := do
  let counts ← guarded (f.upperName == "COUNT" && arguments.length = 1)
    (itemHas arguments 0 (· == .star))
  if counts then .ok true
  else if a.timeFunctions.contains f.upperName then
    guarded (!arguments.isEmpty) (timeExpressionAllowed a b arguments 0)
  else
    let distinct ← guarded (!arguments.isEmpty) (itemHas arguments 0 (·.isKeyword .distinct))
    columnAllowed a b (if distinct then arguments.drop 1 else arguments)

/-- Whether a select item may be selected. -/
def itemAllowed (xs : List Token) : Run Bool := do
  let e ← withoutAlias xs
  if e.isEmpty then .ok false
  else
    let calls ← isCall e
    if calls then
      let f ← item e 0
      argumentsAllowed a b f (slice e 2 (e.length - 1))
    else columnAllowed a b e

/-- The select items, without the `DISTINCT` or `ALL` in front of them. -/
def selectList (select : List Token) : Run (List Token) := do
  let modified ← guarded (!select.isEmpty) (itemHas select 0 (·.isOneOf [.distinct, .all]))
  .ok (if modified then select.drop 1 else select)

/-- Checks the select list of a block. -/
def checkProjection : Run Unit := do
  let select ← selectList b.select
  let everything ← guarded (select.length = 1) (itemHas select 0 (· == .star))
  if everything then .ok ()
  else
    let items ← splitTopLevel (· == .comma) select
    let checked ← items.mapM fun xs => do
      let allowed ← itemAllowed a b xs
      .ok (xs, allowed)
    match (checked.filter fun c => !c.2).map (·.1) with
    | [] => .ok ()
    | refused => reject (.unknownColumns refused)

/-! ### Joins -/

/-- The tests that the tokens of a join condition meet. -/
def conditionShape : List (Token → Bool) :=
  [(·.isIdentifier), (· == .dot), (·.isIdentifier), (· == .operator .eq), (·.isIdentifier),
    (· == .dot), (·.isIdentifier)]

/-- Checks the condition of a join. -/
def checkJoin (on_ : List Token) : Run Unit := do
  let shaped ← guarded (on_.length = 7) (itemsMeet on_ 0 conditionShape)
  if !shaped then reject (.joinCondition on_)
  else
    let leftName ← item on_ 0
    let leftColumn ← item on_ 2
    let rightName ← item on_ 4
    let rightColumn ← item on_ 6
    match b.aliases.lookup leftName.name, b.aliases.lookup rightName.name with
    | some leftTable, some rightTable =>
      if (a.findJoin leftTable leftColumn.name rightTable rightColumn.name).isSome then .ok ()
      else reject (.joinNotAllowed leftTable leftColumn.name rightTable rightColumn.name)
    | _, _ => reject (.joinQualifier leftName leftColumn rightName rightColumn)

/-- Checks the conditions of the joins of a block. -/
def checkJoins : Run Unit := b.joins.forM fun join => checkJoin a b join.2

/-! ### Limits -/

/-- Whether a token is a count of rows that is short enough to be read. -/
def isRowCount : Token → Bool
  | .number digits => Text.isDigits digits && digits.length ≤ 18
  | _ => false

/-- The number of rows that the token at a place writes. -/
def rowsAt (limit : List Token) (place : Nat) : Run Int := do
  let t ← item limit place
  wholeNumber t.written

/-- The number of rows of a limit: alone, behind the offset and a comma, or in front of `OFFSET`. -/
def limitRows (limit : List Token) : Run Int :=
  let counts := limit.filter isRowCount
  if limit.length = 1 ∧ counts.length = 1 then rowsAt limit 0
  else if limit.length = 3 ∧ counts.length = 2 then do
    let between ← item limit 1
    if between = .comma then rowsAt limit 2
    else if between.isKeyword .offset then rowsAt limit 0
    else reject .rowCount
  else reject .rowCount

/-- Rejects a number of rows.  The message shows the number and the bound. -/
def tooManyRows (rows : Int) : Run Unit := do
  let _ ← decimalText rows
  let _ ← decimalText a.maxLimit
  reject (.tooManyRows rows.toNat a.maxLimit)

/-- Checks the limit of a block that has one. -/
def checkRows : Run Unit :=
  match b.limit with
  | none => .ok ()
  | some limit => do
    let rows ← limitRows limit
    if a.maxLimit < rows then tooManyRows a rows else .ok ()

/-- Checks that the last block has a limit and that no limit is too large. -/
def checkLimit (blocks : List Block) : Run Unit := do
  let last ← item blocks (-1)
  match last.limit with
  | none => reject .missingLimit
  | some _ => blocks.forM (checkRows a)

/-! ### Statements -/

/-- Checks a statement. -/
def check (sql : List Char) : Run Unit := do
  let text := Text.squeeze sql
  ofCheck (checkShape text)
  ofCheck (checkKeywords a text)
  let blocks ← blocksOf text
  checkTables a blocks
  blocks.forM (checkProjection a)
  blocks.forM (checkJoins a)
  checkLimit a blocks

/-- The answer to a statement that was checked: a rejection is one, too. -/
def answered (checked : Run Unit) : Run Verdict :=
  match checked with
  | .ok _ => .ok .accepted
  | .error (.rejected why) => .ok (.rejected why)
  | .error e => .error e

/-- The guard's answer to any value; only a text can be a statement. -/
def validate : Value → Run Verdict
  | .text sql => answered (check a sql.toList)
  | _ => .ok (.rejected .empty)

end Checks

/-- The tables that a statement reads, in order; none when it is rejected. -/
def tablesOf (sql : List Char) : Run (List String) :=
  match blocksOf (Text.squeeze sql) with
  | .ok blocks => .ok (blocks.flatMap (·.tables))
  | .error (.rejected _) => .ok []
  | .error e => .error e

end Indexed
end QueryGate
