import QueryGate.Proofs.Sql.Condition

/-!
# The tables of a block

The syntax of a `FROM` clause: a first table, and tables that are joined to it, each under a name
of its own if it has one.
-/

namespace QueryGate
namespace Sql

/-- A token that can name something. -/
abbrev Name := { t : Token // t.isIdentifier = true }

/-- A token that names something without being a reserved word. -/
abbrev PlainName := { t : Token // t.isPlainIdentifier = true }

/-- The name that a table goes by in a block. -/
inductive Naming where
  | own
  | plain (n : PlainName)
  | as_ (w : Word .as_) (n : Name)

/-- The tokens of a naming. -/
def Naming.tokens : Naming → List Token
  | own => []
  | plain n => [n.1]
  | as_ w n => [w.1, n.1]

/-- The alias that a naming gives. -/
def Naming.alias? : Naming → Option String
  | own => none
  | plain n | as_ _ n => some n.1.name

/-- A table of a block. -/
structure Entry where
  table : PlainName
  naming : Naming

namespace Entry

/-- The tokens of an entry. -/
def tokens (e : Entry) : List Token := e.table.1 :: e.naming.tokens

/-- The name of the table. -/
def tableName (e : Entry) : String := e.table.1.name

/-- The name that the table goes by. -/
def visibleName (e : Entry) : String := e.naming.alias?.getD e.tableName

end Entry

/-! ### Joined tables -/

/-- The words that announce a joined table. -/
inductive JoinWords where
  | plain (j : Word .join)
  | inner (w : Word .inner) (j : Word .join)
  | left (w : Word .left) (o : Option (Word .outer)) (j : Word .join)
  | right (w : Word .right) (o : Option (Word .outer)) (j : Word .join)

/-- The tokens of the words. -/
def JoinWords.tokens : JoinWords → List Token
  | plain j => [j.1]
  | inner w j => [w.1, j.1]
  | left w o j => w.1 :: (o.toList.map (·.1) ++ [j.1])
  | right w o j => w.1 :: (o.toList.map (·.1) ++ [j.1])

/-- Whether a token announces a joined table. -/
def announcesJoin (t : Token) : Bool := t.isOneOf [.join, .inner, .left, .right]

/-- A token that names something within the condition of a join. -/
abbrev InnerName := { t : Token // t.isIdentifier = true ∧ announcesJoin t = false }

/-- An equality between two columns, each with the name that its table goes by. -/
structure Equality where
  leftTable : InnerName
  leftColumn : InnerName
  rightTable : InnerName
  rightColumn : InnerName

/-- The tokens of an equality. -/
def Equality.tokens (e : Equality) : List Token :=
  [e.leftTable.1, .dot, e.leftColumn.1, .operator .eq, e.rightTable.1, .dot, e.rightColumn.1]

/-- A joined table with its condition. -/
structure Joined where
  words : JoinWords
  entry : Entry
  on_ : Word .on_
  condition : Equality

/-- The tokens of a joined table. -/
def Joined.tokens (j : Joined) : List Token :=
  j.words.tokens ++ (j.entry.tokens ++ j.on_.1 :: j.condition.tokens)

/-- The tables of a block: a first one and those joined to it. -/
structure Listing where
  first : Entry
  joins : List Joined

namespace Listing

/-- The tokens of a listing. -/
def tokens (l : Listing) : List Token := l.first.tokens ++ l.joins.flatMap Joined.tokens

/-- The tables of a listing. -/
def entries (l : Listing) : List Entry := l.first :: l.joins.map (·.entry)

end Listing

/-! ### The clauses of a block -/

theorem inBlock_of_isKeyword {t : Token} {k : Keyword} (h : t.isKeyword k = true)
    (hk : k ≠ .union) : inBlock t = true := by
  simp [inBlock, Token.isKeyword, keyword?_of_isKeyword h, hk]

theorem inBlock_of_staysInClause {t : Token} (h : staysInClause t = true) : inBlock t = true :=
  (Bool.and_eq_true _ _ ▸ h).1

theorem inClause_of_staysInClause {t : Token} (h : staysInClause t = true) : inClause t = true :=
  (Bool.and_eq_true _ _ ▸ h).2

theorem clause?_of_isKeyword {t : Token} {k : Keyword} (h : t.isKeyword k = true) :
    t.clause? = Clause.ofKeyword? k := by
  rw [Token.clause?, keyword?_of_isKeyword h]
  rfl

section Clauses

variable {items tables condition ending : List Token} (select : Word .select) (from_ : Word .from_)
  (where_ : Word .where_)

theorem passes_clauses (hitems : Passes staysInClause items)
    (htables : Passes staysInClause tables) (hcondition : Passes staysInClause condition)
    (hending : Passes inBlock ending) :
    Passes inBlock (select.1 :: (items ++ from_.1 :: (tables ++ where_.1 ::
      (condition ++ ending)))) := by
  have key {k : Keyword} (w : Word k) (hk : k ≠ .union) : Passes inBlock [w.1] :=
    passes_word w (inBlock_of_isKeyword w.2 hk)
  have within {u : List Token} (h : Passes staysInClause u) : Passes inBlock u :=
    h.mono fun t => inBlock_of_staysInClause
  refine (key select (by decide)).cons ((within hitems).append ?_)
  refine (key from_ (by decide)).cons ((within htables).append ?_)
  exact (key where_ (by decide)).cons ((within hcondition).append hending)

/-- A block splits into its select list, its tables, its condition and what comes behind. -/
theorem splitClauses_clauses {rest : List Section} (hitems : Passes staysInClause items)
    (htables : Passes staysInClause tables) (hcondition : Passes staysInClause condition)
    (hending : sectionsFrom .where_ 0 ending = .ok ([], rest)) :
    splitClauses (select.1 :: (items ++ from_.1 :: (tables ++ where_.1 ::
      (condition ++ ending)))) =
      .ok (⟨.select, items⟩ :: ⟨.from_, tables⟩ :: ⟨.where_, condition⟩ :: rest) := by
  have within {u : List Token} (h : Passes staysInClause u) : Passes inClause u :=
    h.mono fun t => inClause_of_staysInClause
  have hwhere : sectionsFrom .from_ 0 (where_.1 :: (condition ++ ending)) =
      .ok ([], ⟨.where_, condition ++ []⟩ :: rest) :=
    sectionsFrom_clause (clause?_of_isKeyword where_.2) (by decide) rfl
      (sectionsFrom_run (within hcondition).closed (within hcondition).shows hending)
  have hfrom : sectionsFrom .select 0 (from_.1 :: (tables ++ where_.1 :: (condition ++ ending))) =
      .ok ([], ⟨.from_, tables ++ []⟩ :: _) :=
    sectionsFrom_clause (clause?_of_isKeyword from_.2) (by decide) rfl
      (sectionsFrom_run (within htables).closed (within htables).shows hwhere)
  have hselect := sectionsFrom_run (within hitems).closed (within hitems).shows hfrom
  simp only [List.append_nil, Int.natCast_zero] at hselect
  rw [splitClauses, if_pos select.2, hselect]

end Clauses

end Sql
end QueryGate
