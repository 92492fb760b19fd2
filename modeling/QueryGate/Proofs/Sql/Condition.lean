import QueryGate.Proofs.Sql.Nesting
import QueryGate.Proofs.Sql.Spelling

/-!
# Conditions

The syntax of a condition as a tree, its tokens and its meaning.  Atoms are runs of tokens that
are left whole: comparisons, memberships, patterns, calls, columns and constants.  Above them stand
the connectives, `BETWEEN`, `CASE` and parentheses.  `tokens` writes a tree with parentheses where
the precedence asks for them, and `value` is what it says of a row, in a logic with an unknown
value.
-/

namespace QueryGate
namespace Sql

/-- A word that is the given keyword, in any letter case. -/
abbrev Word (k : Keyword) := { t : Token // t.isKeyword k = true }

/-- A keyword in upper case. -/
def Keyword.token (k : Keyword) : Word k :=
  ⟨.word k.letters, by simp [Token.isKeyword, Token.keyword?, Keyword.ofWord?_letters]⟩

/-- A word of a `CASE`. -/
inductive CaseWord where
  | case_ | when_ | then_ | else_ | end_
  deriving DecidableEq, Repr

/-- The letters of the upper-case spelling. -/
def CaseWord.letters : CaseWord → List Char
  | case_ => ['C', 'A', 'S', 'E']
  | when_ => ['W', 'H', 'E', 'N']
  | then_ => ['T', 'H', 'E', 'N']
  | else_ => ['E', 'L', 'S', 'E']
  | end_ => ['E', 'N', 'D']

/-- Whether a token is a word of a `CASE`. -/
def Token.isCaseWord (t : Token) (k : CaseWord) : Bool :=
  match t with
  | .word letters => k.letters == letters.map Char.toUpper
  | _ => false

/-- A token that is the given word of a `CASE`, in any letter case. -/
abbrev CaseToken (k : CaseWord) := { t : Token // t.isCaseWord k = true }

/-- A word of a `CASE` in upper case. -/
def CaseWord.token (k : CaseWord) : CaseToken k :=
  ⟨.word k.letters, by cases k <;> decide⟩

/-- Whether a token can be the first one of an expression. -/
def opensExpression (t : Token) : Bool :=
  t != .dot && t != .operator .eq && !t.isKeyword .in_

/-- Whether a token in the open belongs to an atom: it is no connective, no `BETWEEN`, and no word
that ends a clause or a block. -/
def isAtomic (t : Token) : Bool :=
  !t.isOneOf [.and, .or, .xor, .between, .union] && t.clause?.isNone

/-- A run of tokens that makes up an atom. -/
structure Run where
  tokens : List Token
  opens : (tokens.head?.map opensExpression).getD false = true
  atomic : Passes isAtomic tokens

/-- Whether a token in the open makes the run around it a comparison. -/
def compares : Token → Bool
  | .operator op => [.eq, .ltGt, .notEq, .lt, .gt, .le, .ge].contains op
  | t => t.isKeyword .is_

/-- Whether a token in the open makes the run around it a predicate. -/
def predicates (t : Token) : Bool :=
  t.isOneOf [.not, .in_, .like, .regexp, .rlike, .sounds, .member]

/-- How tightly a run binds: a comparison less than a predicate, a predicate less than an
operand. -/
def Run.level (r : Run) : Nat :=
  if !showsOnly (fun t => !compares t) 0 r.tokens then 4
  else if !showsOnly (fun t => !predicates t) 0 r.tokens then 5
  else 6

/-- The parts of a condition: conditions themselves, and the branches of a `CASE`. -/
inductive Form where
  | whole | branches

/-- The syntax of conditions. -/
inductive Phrase : Form → Type where
  | atom (run : Run) : Phrase .whole
  | group (c : Phrase .whole) : Phrase .whole
  | not (w : Word .not) (c : Phrase .whole) : Phrase .whole
  | and (l : Phrase .whole) (w : Word .and) (r : Phrase .whole) : Phrase .whole
  | xor (l : Phrase .whole) (w : Word .xor) (r : Phrase .whole) : Phrase .whole
  | or (l : Phrase .whole) (w : Word .or) (r : Phrase .whole) : Phrase .whole
  | between (x : Phrase .whole) (negation : Option (Word .not)) (w : Word .between)
      (low : Phrase .whole) (a : Word .and) (high : Phrase .whole) : Phrase .whole
  | choose (w : CaseToken .case_) (b : Phrase .branches) : Phrase .whole
  | when_ (w : CaseToken .when_) (c : Phrase .whole) (t : CaseToken .then_) (r : Phrase .whole)
      (more : Phrase .branches) : Phrase .branches
  | else_ (w : CaseToken .else_) (r : Phrase .whole) (e : CaseToken .end_) : Phrase .branches
  | end_ (e : CaseToken .end_) : Phrase .branches

/-- A condition. -/
abbrev Condition := Phrase .whole

namespace Phrase

variable {f : Form}

/-- How tightly the outermost construct of a condition binds. -/
def level : Phrase f → Nat
  | or .. => 0
  | xor .. => 1
  | and .. => 2
  | not .. => 3
  | atom run => run.level
  | between .. => 5
  | group _ | choose .. | when_ .. | else_ .. | end_ _ => 6

/-- Whether a part of a condition needs parentheses where the given level is asked for. -/
def shielded (wanted : Nat) (c : Phrase f) : Bool := decide (c.level < wanted)

/-- Tokens with parentheses around them where they are needed. -/
def enclose (needed : Bool) (ts : List Token) : List Token :=
  if needed then parenthesized ts else ts

/-- The tokens of a condition. -/
def tokens : {f : Form} → Phrase f → List Token
  | _, atom run => run.tokens
  | _, group c => parenthesized c.tokens
  | _, not w c => w.1 :: enclose (c.shielded 3) c.tokens
  | _, and l w r => enclose (l.shielded 2) l.tokens ++ w.1 :: enclose (r.shielded 3) r.tokens
  | _, xor l w r => enclose (l.shielded 1) l.tokens ++ w.1 :: enclose (r.shielded 2) r.tokens
  | _, or l w r => enclose (l.shielded 0) l.tokens ++ w.1 :: enclose (r.shielded 1) r.tokens
  | _, between x negation w low a high =>
    enclose (x.shielded 6) x.tokens ++ ((negation.toList.map (·.1) ++ [w.1])
      ++ (enclose (low.shielded 6) low.tokens ++ (a.1 :: enclose (high.shielded 5) high.tokens)))
  | _, choose w b => w.1 :: b.tokens
  | _, when_ w c t r more => w.1 :: (c.tokens ++ t.1 :: (r.tokens ++ more.tokens))
  | _, else_ w r e => w.1 :: (r.tokens ++ [e.1])
  | _, end_ e => [e.1]

/-- The tokens of a condition where the given level is asked for. -/
def tokensAt (wanted : Nat) (c : Phrase f) : List Token := enclose (c.shielded wanted) c.tokens

end Phrase

/-! ### The words `AND` in the open -/

namespace Phrase

variable {f : Form}

/-- Whether a condition is an atom. -/
def isAtom : Phrase f → Bool
  | atom _ => true
  | _ => false

/-- Whether a condition is a conjunction. -/
def isConjunction : Phrase f → Bool
  | and .. => true
  | _ => false

/-- The operands of the outermost conjunction, written out. -/
def conjuncts : {f : Form} → Phrase f → List (List Token)
  | _, and l _ r => (if l.shielded 2 then [l.tokensAt 2] else l.conjuncts) ++ [r.tokensAt 3]
  | _, c => [c.tokens]

/-- Whether a condition shows neither `AND` nor `BETWEEN`. -/
def quiet : {f : Form} → Phrase f → Bool
  | _, atom _ | _, group _ | _, end_ _ => true
  | _, and .. | _, or .. | _, xor .. | _, between .. => false
  | _, not _ c => c.shielded 3 || c.quiet
  | _, choose _ b => b.quiet
  | _, when_ _ c _ r more => c.quiet && (r.quiet && more.quiet)
  | _, else_ _ r _ => r.quiet

/-- Whether every `AND` that a condition shows is a conjunction of the whole or the next one behind
its own `BETWEEN`: no `CASE` shows a conjunction, and no lower bound of a `BETWEEN` shows either
word.  A disjunction is left out of account. -/
def separable : {f : Form} → Phrase f → Bool
  | _, atom _ | _, group _ | _, or .. | _, xor .. | _, end_ _ => true
  | _, not _ c => c.shielded 3 || c.separable
  | _, and l _ r => (l.shielded 2 || l.separable) && (r.shielded 3 || r.separable)
  | _, between x _ _ low _ high =>
    (x.shielded 6 || x.separable) && ((low.shielded 6 || low.quiet) &&
      (high.shielded 5 || high.separable))
  | _, choose _ b => b.separable
  | _, when_ _ c _ r more =>
    (c.separable && !c.isConjunction) && ((r.separable && !r.isConjunction) && more.separable)
  | _, else_ _ r _ => r.separable && !r.isConjunction

theorem conjuncts_of_not_isConjunction {c : Phrase f} (h : c.isConjunction = false) :
    c.conjuncts = [c.tokens] := by
  cases c <;> first | rfl | cases h

theorem conjuncts_ne_nil (c : Phrase f) : c.conjuncts ≠ [] := by
  cases c <;> simp [conjuncts]

theorem one_lt_length_conjuncts {c : Phrase f} (h : c.isConjunction = true) :
    1 < c.conjuncts.length := by
  cases c with
  | and l w r =>
    have hl := List.length_pos_iff.mpr l.conjuncts_ne_nil
    simp only [conjuncts, List.length_append, List.length_singleton]
    split
    · simp
    · omega
  | _ => cases h

/-- Where more is asked for than the level of a conjunction, there is none in the open. -/
theorem not_isConjunction_of_not_shielded {wanted : Nat} (hw : 3 ≤ wanted) {c : Phrase f}
    (h : c.shielded wanted = false) : c.isConjunction = false := by
  cases c with
  | and l w r =>
    have := of_decide_eq_false h
    simp only [level] at this
    omega
  | _ => rfl

end Phrase

/-! ### How conditions are written -/

theorem keyword?_of_isKeyword {t : Token} {k : Keyword} (h : t.isKeyword k = true) :
    t.keyword? = some k := by
  simpa [Token.isKeyword] using h

theorem flat_of_isKeyword {t : Token} {k : Keyword} (h : t.isKeyword k = true) :
    t ≠ .lparen ∧ t ≠ .rparen := by
  constructor <;> rintro rfl <;> cases keyword?_of_isKeyword h

theorem keyword?_of_isCaseWord {t : Token} {k : CaseWord} (h : t.isCaseWord k = true) :
    t.keyword? = none := by
  cases t with
  | word letters =>
    have hl : letters.map Char.toUpper = k.letters := (eq_of_beq h).symm
    cases k <;> simp only [Token.keyword?, Keyword.ofWord?_eq, hl] <;> decide
  | _ => rfl

theorem flat_of_isCaseWord {t : Token} {k : CaseWord} (h : t.isCaseWord k = true) :
    t ≠ .lparen ∧ t ≠ .rparen := by
  constructor <;> rintro rfl <;> cases h

/-- A keyword is as good as any other in whatever looks at keywords only. -/
theorem passes_word {p : Token → Bool} {k : Keyword} (w : Word k) (hp : p w.1 = true) :
    Passes p [w.1] :=
  .single (flat_of_isKeyword w.2).1 (flat_of_isKeyword w.2).2 hp

theorem passes_caseToken {p : Token → Bool} {k : CaseWord} (w : CaseToken k) (hp : p w.1 = true) :
    Passes p [w.1] :=
  .single (flat_of_isCaseWord w.2).1 (flat_of_isCaseWord w.2).2 hp

/-- Whether a token in the open belongs to the clause and the block that it stands in. -/
def staysInClause (t : Token) : Bool := inBlock t && inClause t

theorem staysInClause_of_isAtomic {t : Token} (h : isAtomic t = true) :
    staysInClause t = true := by
  simp only [isAtomic, Token.isOneOf, List.any_cons, List.any_nil, Bool.and_eq_true,
    Bool.not_eq_true', Bool.or_eq_false_iff] at h
  simp [staysInClause, inBlock, inClause, h]

theorem staysInClause_of_keyword? {t : Token} (h : t.keyword? = none) :
    staysInClause t = true := by
  simp [staysInClause, inBlock, inClause, Token.isKeyword, Token.clause?, h]

theorem staysInClause_of_isKeyword {t : Token} {k : Keyword} (h : t.isKeyword k = true)
    (hk : k ≠ .union := by decide) (hc : Clause.ofKeyword? k = none := by rfl) :
    staysInClause t = true := by
  simp [staysInClause, inBlock, inClause, Token.isKeyword, Token.clause?, keyword?_of_isKeyword h,
    hk, hc]

namespace Phrase

variable {f : Form}

theorem passes_enclose {p : Token → Bool} (hopen : p .lparen = true) (hclose : p .rparen = true)
    (b : Bool) {u : List Token} (h : Passes p u) : Passes p (enclose b u) := by
  cases b with
  | false => exact h
  | true => exact .parenthesized hopen hclose h.closed

/-- A condition stays within the clause that it stands in. -/
theorem passes_tokens (c : Phrase f) : Passes staysInClause c.tokens := by
  have key {k : Keyword} (w : Word k) (hk : k ≠ .union := by decide)
      (hc : Clause.ofKeyword? k = none := by rfl) : Passes staysInClause [w.1] :=
    passes_word w (staysInClause_of_isKeyword w.2 hk hc)
  have mark {k : CaseWord} (w : CaseToken k) : Passes staysInClause [w.1] :=
    passes_caseToken w (staysInClause_of_keyword? (keyword?_of_isCaseWord w.2))
  have shield {u : List Token} (b : Bool) (h : Passes staysInClause u) :
      Passes staysInClause (enclose b u) := passes_enclose rfl rfl b h
  induction c with
  | atom run => exact run.atomic.mono fun t => staysInClause_of_isAtomic
  | group c ih => exact .parenthesized rfl rfl ih.closed
  | not w c ih => exact (key w).cons (shield _ ih)
  | and l w r ihl ihr => exact (shield _ ihl).append ((key w).cons (shield _ ihr))
  | xor l w r ihl ihr => exact (shield _ ihl).append ((key w).cons (shield _ ihr))
  | or l w r ihl ihr => exact (shield _ ihl).append ((key w).cons (shield _ ihr))
  | between x negation w low a high ihx ihl ihh =>
    refine (shield _ ihx).append (.append ?_ ((shield _ ihl).append ((key a).cons (shield _ ihh))))
    cases negation with
    | none => exact key w
    | some n => exact (key n).cons (key w)
  | choose w b ih => exact (mark w).cons ih
  | when_ w c t r more ihc ihr ihm =>
    exact (mark w).cons (ihc.append ((mark t).cons (ihr.append ihm)))
  | else_ w r e ih => exact (mark w).cons (ih.append (mark e))
  | end_ e => exact mark e

theorem opensExpression_of_keyword {t : Token} {k : Keyword} (h : t.isKeyword k = true)
    (hk : k ≠ .in_ := by decide) : opensExpression t = true := by
  have ht := keyword?_of_isKeyword h
  cases t <;> simp_all [opensExpression, Token.isKeyword, Token.keyword?]

theorem opensExpression_of_isCaseWord {t : Token} {k : CaseWord} (h : t.isCaseWord k = true) :
    opensExpression t = true := by
  have ht := keyword?_of_isCaseWord h
  cases t <;> simp_all [opensExpression, Token.isKeyword, Token.isCaseWord]

theorem enclose_opens (b : Bool) {u : List Token}
    (h : ∃ t r, u = t :: r ∧ opensExpression t = true) (more : List Token) :
    ∃ t r, enclose b u ++ more = t :: r ∧ opensExpression t = true := by
  obtain ⟨t, r, rfl, ht⟩ := h
  cases b with
  | false => exact ⟨t, r ++ more, rfl, ht⟩
  | true => exact ⟨.lparen, _, rfl, rfl⟩

/-- A condition starts with a token that an expression can start with. -/
theorem tokens_opens (c : Phrase f) : ∃ t r, c.tokens = t :: r ∧ opensExpression t = true := by
  induction c with
  | atom run =>
    have ho := run.opens
    show ∃ t r, run.tokens = t :: r ∧ opensExpression t = true
    cases hr : run.tokens with
    | nil => simp [hr] at ho
    | cons t r => exact ⟨t, r, rfl, by simpa [hr] using ho⟩
  | group c => exact ⟨.lparen, _, rfl, rfl⟩
  | not w c => exact ⟨w.1, _, rfl, opensExpression_of_keyword w.2⟩
  | and l w r ihl => exact enclose_opens _ ihl _
  | xor l w r ihl => exact enclose_opens _ ihl _
  | or l w r ihl => exact enclose_opens _ ihl _
  | between x negation w low a high ihx => exact enclose_opens _ ihx _
  | choose w b => exact ⟨w.1, _, rfl, opensExpression_of_isCaseWord w.2⟩
  | when_ w c t r more => exact ⟨w.1, _, rfl, opensExpression_of_isCaseWord w.2⟩
  | else_ w r e => exact ⟨w.1, _, rfl, opensExpression_of_isCaseWord w.2⟩
  | end_ e => exact ⟨e.1, _, rfl, opensExpression_of_isCaseWord e.2⟩

end Phrase

/-! ### Meaning -/

/-- A test of a column: it is one of some numbers. -/
structure ColumnTest where
  qualifier : Option Token
  column : Token
  numbers : List Nat

/-- The number that a token writes, between quotes or not. -/
def numeral? : Token → Option Nat
  | .number digits | .literal _ digits =>
    if Text.isDigits digits then some (Text.digitsValue digits) else none
  | _ => none

/-- The numbers of a list that closes with the tokens. -/
def numerals? : List Token → Option (List Nat)
  | [t, .rparen] => (numeral? t).map fun n => [n]
  | t :: .comma :: rest => (numeral? t).bind fun n => (numerals? rest).map (n :: ·)
  | _ => none

/-- The numbers that a column has to be one of. -/
def oneOf? : List Token → Option (List Nat)
  | [.operator .eq, t] => (numeral? t).map fun n => [n]
  | w :: .lparen :: rest => if w.isKeyword .in_ then numerals? rest else none
  | _ => none

/-- The test of a column that a run of tokens is. -/
def columnTest? : List Token → Option ColumnTest
  | q :: .dot :: c :: rest =>
    if q.isIdentifier && c.isIdentifier then (oneOf? rest).map (ColumnTest.mk (some q) c) else none
  | c :: rest => if c.isIdentifier then (oneOf? rest).map (ColumnTest.mk none c) else none
  | [] => none

/-- What the columns and the other atoms of a condition are worth: a number, or nothing known. -/
structure Valuation where
  column : Option String → String → Option Int
  other : List Token → Option Int

namespace Valuation

/-- The value of a run of tokens.  A test of a column is worth what the column says. -/
def ofRun (v : Valuation) (ts : List Token) : Option Int :=
  match columnTest? ts with
  | some test =>
    (v.column (test.qualifier.map Token.name) test.column.name).map fun x =>
      if test.numbers.any fun n => x == (n : Int) then 1 else 0
  | none => v.other ts

end Valuation

/-- Whether a value counts as true, if that is known. -/
def truth (x : Option Int) : Option Bool := x.map (· != 0)

/-- The value of a truth. -/
def ofTruth (b : Option Bool) : Option Int := b.map fun b => if b then 1 else 0

/-- The negation; of what is unknown it is unknown. -/
def negated (a : Option Bool) : Option Bool := a.map Bool.not

/-- The conjunction: false as soon as one side is, and unknown if that could still come out. -/
def both (a b : Option Bool) : Option Bool :=
  match a, b with
  | some false, _ | _, some false => some false
  | some true, some true => some true
  | _, _ => none

/-- The disjunction. -/
def either (a b : Option Bool) : Option Bool := negated (both (negated a) (negated b))

/-- The exclusive disjunction. -/
def oneSided (a b : Option Bool) : Option Bool := a.bind fun a => b.map fun b => a != b

/-- Whether a value is at most another one. -/
def atMost (x y : Option Int) : Option Bool := x.bind fun x => y.map fun y => decide (x ≤ y)

theorem both_eq_some_true {a b : Option Bool} :
    both a b = some true ↔ a = some true ∧ b = some true := by
  rcases a with _ | _ | _ <;> rcases b with _ | _ | _ <;> simp [both]

@[simp] theorem truth_ofTruth (b : Option Bool) : truth (ofTruth b) = b := by
  rcases b with _ | _ | _ <;> rfl

namespace Phrase

/-- The value of a condition. -/
def value (v : Valuation) : {f : Form} → Phrase f → Option Int
  | _, atom run => v.ofRun run.tokens
  | _, group c => c.value v
  | _, not _ c => ofTruth (negated (truth (c.value v)))
  | _, and l _ r => ofTruth (both (truth (l.value v)) (truth (r.value v)))
  | _, xor l _ r => ofTruth (oneSided (truth (l.value v)) (truth (r.value v)))
  | _, or l _ r => ofTruth (either (truth (l.value v)) (truth (r.value v)))
  | _, between x negation _ low _ high =>
    let inside := both (atMost (low.value v) (x.value v)) (atMost (x.value v) (high.value v))
    ofTruth (if negation.isSome then negated inside else inside)
  | _, choose _ b => b.value v
  | _, when_ _ c _ r more => if truth (c.value v) = some true then r.value v else more.value v
  | _, else_ _ r _ => r.value v
  | _, end_ _ => none

/-- Whether a condition is true. -/
def isTrue (v : Valuation) {f : Form} (c : Phrase f) : Prop := truth (c.value v) = some true

instance (v : Valuation) {f : Form} (c : Phrase f) : Decidable (c.isTrue v) :=
  inferInstanceAs (Decidable (truth (c.value v) = some true))

theorem isTrue_and {v : Valuation} {l r : Condition} {w : Word .and} :
    (and l w r).isTrue v ↔ l.isTrue v ∧ r.isTrue v := by
  simp [isTrue, value, both_eq_some_true]

end Phrase

end Sql
end QueryGate
