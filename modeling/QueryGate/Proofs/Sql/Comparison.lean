import QueryGate.Proofs.Sql.Condition
import QueryGate.Scope

/-!
# Comparisons of a row

What the condition of a query block says of one row, read off its tokens.  A condition is read as a
conjunction, if it has no `OR` in the open; its parts are comparisons of whole numbers, and two
comparisons in parentheses with `OR` between them.  A column without a value makes a comparison
unknown, and a row is selected only where the whole condition is true.  What reads in no such way is
left to the environment.
-/

namespace QueryGate
namespace Sql

/-- What a row and the database say: what the columns hold, the second at which a day begins, and
what any other part of a condition is worth. -/
structure Environment where
  column : Option String → String → Option Int
  dayStart : List Char → Option Int
  other : List Token → Option Int

/-- One side of a comparison. -/
inductive Operand where
  | number (n : Nat)
  | column (qualifier : Option String) (name : String)
  | dayStart (day : List Char)
  | coalesce (first second : Operand)

/-- Whether a token is a word with the given letters, in any letter case. -/
def Token.spells (t : Token) (letters : List Char) : Bool :=
  match t with
  | .word w => w.map Char.toUpper == letters
  | _ => false

namespace Operand

/-- The name of the function that turns a day into a second. -/
def dayStartName : List Char :=
  ['U', 'N', 'I', 'X', '_', 'T', 'I', 'M', 'E', 'S', 'T', 'A', 'M', 'P']

/-- The name of the function that replaces what is unknown. -/
def coalesceName : List Char := ['C', 'O', 'A', 'L', 'E', 'S', 'C', 'E']

/-- The number, column or start of a day that a list begins with, and what stands behind it. -/
def simple? : List Token → Option (Operand × List Token)
  | w :: .lparen :: .literal _ day :: .rparen :: rest =>
    if w.spells dayStartName then some (.dayStart day, rest) else none
  | q :: .dot :: c :: rest =>
    if q.isIdentifier && c.isIdentifier then some (.column (some q.name) c.name, rest) else none
  | t :: rest =>
    match numeral? t with
    | some n => some (.number n, rest)
    | none => if t.isIdentifier then some (.column none t.name, rest) else none
  | [] => none

/-- The operand that a list begins with, and what stands behind it. -/
def ofTokens? (ts : List Token) : Option (Operand × List Token) :=
  match ts with
  | w :: .lparen :: inner =>
    if w.spells coalesceName then
      match simple? inner with
      | some (first, .comma :: inner) =>
        match simple? inner with
        | some (second, .rparen :: rest) => some (.coalesce first second, rest)
        | _ => none
      | _ => none
    else simple? ts
  | ts => simple? ts

/-- The value of an operand. -/
def value (env : Environment) : Operand → Option Int
  | number n => some n
  | column qualifier name => env.column qualifier name
  | dayStart day => env.dayStart day
  | coalesce first second => (first.value env).or (second.value env)

end Operand

/-- What an operator tests, if it is one of a comparison. -/
def Operator.test? : Operator → Option (Int → Int → Bool)
  | eq => some fun x y => x == y
  | ltGt | notEq => some fun x y => x != y
  | lt => some fun x y => decide (x < y)
  | gt => some fun x y => decide (y < x)
  | le => some fun x y => decide (x ≤ y)
  | ge => some fun x y => decide (y ≤ x)
  | plus | minus | slash | percent => none

/-- A comparison. -/
structure Comparison where
  left : Operand
  test : Int → Int → Bool
  right : Operand

namespace Comparison

/-- The comparison that a list begins with, and what stands behind it. -/
def ofTokens? (ts : List Token) : Option (Comparison × List Token) :=
  match Operand.ofTokens? ts with
  | some (left, .operator op :: rest) =>
    op.test?.bind fun test =>
      (Operand.ofTokens? rest).map fun (right, rest) => (⟨left, test, right⟩, rest)
  | _ => none

/-- The two comparisons in parentheses with `OR` between them that a list is. -/
def disjunction? : List Token → Option (Comparison × Comparison)
  | .lparen :: inner =>
    match ofTokens? inner with
    | some (first, w :: inner) =>
      if w.isKeyword .or then
        match ofTokens? inner with
        | some (second, [.rparen]) => some (first, second)
        | _ => none
      else none
    | _ => none
  | _ => none

/-- Whether a comparison holds; it is unknown when one of its sides is. -/
def holds (env : Environment) (c : Comparison) : Option Bool :=
  (c.left.value env).bind fun x => (c.right.value env).map fun y => c.test x y

end Comparison

namespace Environment

variable (env : Environment)

/-- Whether a part of a conjunction holds. -/
def part (ts : List Token) : Option Bool :=
  match Comparison.disjunction? ts with
  | some (first, second) => either (first.holds env) (second.holds env)
  | none =>
    match Comparison.ofTokens? ts with
    | some (c, []) => c.holds env
    | _ => truth (env.other ts)

/-- The conjunction of several truths. -/
def conjoined (parts : List (Option Bool)) : Option Bool := parts.foldr both (some true)

/-- Whether a condition holds. -/
def condition (ts : List Token) : Option Bool :=
  match Scope.conjuncts ts with
  | some parts => conjoined (parts.map env.part)
  | none => truth (env.other ts)

/-- Whether the condition that a text writes holds. -/
def conditionText (text : String) : Option Bool :=
  match tokenize text.toList with
  | .ok ts => env.condition ts
  | .error _ => none

/-- A statement selects a row if the condition of the given one of its query blocks is true. -/
def Selects (block : Nat) (sql : List Char) : Prop :=
  ∃ ts blocks sections, Scope.blocksOf sql = .ok (ts, blocks) ∧ blocks[block]? = some sections ∧
    env.condition (body .where_ sections) = some true

theorem conjoined_eq_some_true {parts : List (Option Bool)} :
    conjoined parts = some true ↔ ∀ b ∈ parts, b = some true := by
  induction parts with
  | nil => simp [conjoined]
  | cons b parts ih =>
    rw [show conjoined (b :: parts) = both b (conjoined parts) from rfl, both_eq_some_true, ih,
      List.forall_mem_cons]

end Environment

theorem either_eq_some_true {a b : Option Bool} :
    either a b = some true ↔ a = some true ∨ b = some true := by
  rcases a with _ | _ | _ <;> rcases b with _ | _ | _ <;> simp [either, both, negated]

end Sql
end QueryGate
