import QueryGate.Guard.Query
import QueryGate.Policy.AllowList

/-!
# What a query block may select

A select list is a star or a list of items, and every item is an allowed column or a call around
one, with or without an alias.  `COUNT(*)` is always allowed; a function on times may be called on
an expression over allowed columns.
-/

namespace QueryGate
namespace Guard

open Sql

variable (a : AllowList) (q : Query)

/-- Whether an identifier without a qualifier is a column of one of the tables. -/
def bareColumnAllowed (c : Token) : Bool :=
  c.isIdentifier && q.tables.any fun table => (a.columns table).contains c.name

/-- Whether a qualified identifier is a column of the table that the qualifier stands for. -/
def qualifiedColumnAllowed (name c : Token) : Bool :=
  name.isIdentifier && c.isIdentifier &&
    match q.tableNamed? name.name with
    | some table => (a.columns table).contains c.name
    | none => false

/-- Whether a reference is an allowed column, with or without a qualifier. -/
def columnAllowed : List Token → Bool
  | [c] => bareColumnAllowed a q c
  | [name, .dot, c] => qualifiedColumnAllowed a q name c
  | _ => false

/-- Whether an expression on times reads allowed columns only and calls nothing. -/
def timeExpressionAllowed : List Token → Bool
  | [] => true
  | t :: r =>
    if t.isIdentifier then
      match r with
      | .lparen :: _ => false
      | .dot :: c :: more => qualifiedColumnAllowed a q t c && timeExpressionAllowed more
      | rest => bareColumnAllowed a q t && timeExpressionAllowed rest
    else if t = .lparen ∨ t = .rparen ∨ t = .dot then false
    else timeExpressionAllowed r

section TimeExpression

variable {a q} {t : Token}

theorem timeExpressionAllowed_call (ht : t.isIdentifier = true) (more : List Token) :
    timeExpressionAllowed a q (t :: .lparen :: more) = false := by
  rw [timeExpressionAllowed, if_pos ht]

theorem timeExpressionAllowed_qualified (ht : t.isIdentifier = true) (c : Token)
    (more : List Token) :
    timeExpressionAllowed a q (t :: .dot :: c :: more) =
      (qualifiedColumnAllowed a q t c && timeExpressionAllowed a q more) := by
  rw [timeExpressionAllowed, if_pos ht]

theorem timeExpressionAllowed_bare (ht : t.isIdentifier = true) {r : List Token}
    (hcall : ∀ more, r ≠ .lparen :: more) (hqualified : ∀ c more, r ≠ .dot :: c :: more) :
    timeExpressionAllowed a q (t :: r) =
      (bareColumnAllowed a q t && timeExpressionAllowed a q r) := by
  rw [timeExpressionAllowed, if_pos ht]
  · exact hcall
  · exact hqualified

theorem timeExpressionAllowed_other (ht : ¬t.isIdentifier = true) (r : List Token) :
    timeExpressionAllowed a q (t :: r) =
      if t = .lparen ∨ t = .rparen ∨ t = .dot then false else timeExpressionAllowed a q r := by
  rw [timeExpressionAllowed.eq_def]
  simp only [if_neg ht]

/-- Of the allow-list and the block only the columns that they allow count. -/
theorem timeExpressionAllowed_mono {b : AllowList} {p : Query} {ts : List Token}
    (hbare : ∀ c, bareColumnAllowed a q c = true → bareColumnAllowed b p c = true)
    (hqualified : ∀ name c, qualifiedColumnAllowed a q name c = true →
      qualifiedColumnAllowed b p name c = true)
    (h : timeExpressionAllowed a q ts = true) : timeExpressionAllowed b p ts = true := by
  fun_induction timeExpressionAllowed a q ts with
  | case1 => rfl
  | case2 => exact nomatch h
  | case3 t ht c more ih =>
    rw [Bool.and_eq_true] at h
    rw [timeExpressionAllowed_qualified ht, Bool.and_eq_true]
    exact ⟨hqualified t c h.1, ih h.2⟩
  | case4 t ht r hcall hdot ih =>
    rw [Bool.and_eq_true] at h
    rw [timeExpressionAllowed_bare ht hcall hdot, Bool.and_eq_true]
    exact ⟨hbare t h.1, ih h.2⟩
  | case5 => exact nomatch h
  | case6 t r ht hmark ih =>
    rw [timeExpressionAllowed_other ht, if_neg hmark]
    exact ih h

end TimeExpression

/-- Whether an alias without `AS` can stand behind a token. -/
def endsExpression : Token → Bool
  | .rparen | .word _ | .quotedName _ => true
  | _ => false

/-- Whether a token can be an alias after `AS`. -/
def isAlias : Token → Bool
  | .literal _ _ => true
  | t => t.isIdentifier

/-- A select item without its alias. -/
def withoutAlias (item : List Token) : Except Rejection (List Token) :=
  match item.reverse with
  | last :: before :: e :: more =>
    if before.isKeyword .as_ then
      if isAlias last then .ok (e :: more).reverse else .error (.badAlias last)
    else if last.isPlainIdentifier && endsExpression before then .ok (before :: e :: more).reverse
    else .ok item
  | [last, before] =>
    if last.isPlainIdentifier && endsExpression before then .ok [before] else .ok item
  | _ => .ok item

/-- The function and the arguments of an expression that is one call as a whole. -/
def call? : List Token → Option (Token × List Token)
  | .word f :: .lparen :: r =>
    if closingFrom 1 0 r = some (r.length - 1) then some (.word f, r.dropLast) else none
  | _ => none

/-- An argument list without the `DISTINCT` in front. -/
def withoutDistinct : List Token → List Token
  | t :: r => if t.isKeyword .distinct then r else t :: r
  | [] => []

/-- Whether an expression may be selected. -/
def expressionAllowed (e : List Token) : Bool :=
  match call? e with
  | none => columnAllowed a q e
  | some (f, arguments) =>
    if f.upperName == "COUNT" && arguments == [.star] then true
    else if a.timeFunctions.contains f.upperName then
      !arguments.isEmpty && timeExpressionAllowed a q arguments
    else columnAllowed a q (withoutDistinct arguments)

/-- The select items, without the `DISTINCT` or `ALL` in front of them. -/
def selectList : List Token → List Token
  | t :: r => if t.isOneOf [.distinct, .all] then r else t :: r
  | [] => []

/-- The items of a select list that may not be selected. -/
def refusedItems (items : List (List Token)) : Except Rejection (List (List Token)) := do
  let checked ← items.mapM fun item => do
    let e ← withoutAlias item
    pure (item, expressionAllowed a q e)
  pure ((checked.filter fun c => !c.2).map (·.1))

/-- Checks the select list of a block. -/
def checkProjection : Except Rejection Unit :=
  let select := selectList q.select
  if select = [.star] then .ok ()
  else
    match refusedItems a q (splitTopLevel (· == .comma) select) with
    | .error e => .error e
    | .ok [] => .ok ()
    | .ok refused => .error (.unknownColumns refused)

end Guard
end QueryGate
