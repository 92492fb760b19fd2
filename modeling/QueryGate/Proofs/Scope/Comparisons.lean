import QueryGate.Policy.Shipped
import QueryGate.Proofs.Scope.Uses

/-!
# Comparisons of the tenant column

The scan of a statement looks at the tokens beside the tenant column.  A comparison whose comparing
token is one of them has the column on its left, compares it by `=` or `IN`, and has the tenant at
the front of its other operand, which therefore is the tenant and nothing else if it is one token or
one pair of parentheses.  Parentheses around the column, further qualifiers, and what continues the
other operand are not looked at.
-/

namespace QueryGate

namespace Sql

/-! ### Operands -/

/-- Whether a token compares two operands or looks for one in a list. -/
def isRelation (t : Token) : Bool :=
  compares t || t.isOneOf [.in_, .like, .between, .regexp, .rlike, .sounds, .member]

/-- Whether a token that no parenthesis surrounds ends an operand: a connective, a comma, a closing
parenthesis, or the beginning of a clause or a block. -/
def endsOperand (t : Token) : Bool :=
  t == .comma || t == .rparen || t.isOneOf [.and, .or, .xor, .union] || t.clause?.isSome

/-- The operand at the front of some tokens, the first of which stands at the given depth. -/
def operandFrom (depth : Int) : List Token → List Token
  | [] => []
  | t :: r =>
    if depth = 0 ∧ endsOperand t then [] else t :: operandFrom (depthAfter depth t) r

/-- Whether tokens are one token, or one pair of parentheses with what they surround. -/
def isUndivided (ts : List Token) : Prop :=
  ts.length = 1 ∨ ∃ inner, ts = parenthesized inner ∧ depthThrough? 0 inner = some 0

/-- Inside a parenthesis that stays open nothing ends an operand. -/
theorem operandFrom_append {depth inner : Nat} {u : List Token} (w : List Token)
    (h : depthThrough? depth u = some inner) :
    operandFrom ((depth : Int) + 1) (u ++ w) = u ++ operandFrom ((inner : Int) + 1) w := by
  induction u generalizing depth with
  | nil =>
    cases h
    rfl
  | cons t u ih =>
    obtain ⟨next, hnext, h⟩ := Option.bind_eq_some_iff.mp h
    have hafter : depthAfter ((depth : Int) + 1) t = (next : Int) + 1 := by
      have := depthAfter_of_depthBehind? hnext
      unfold depthAfter at this ⊢
      omega
    have hopen : ¬ ((depth : Int) + 1 = 0 ∧ endsOperand t = true) := by omega
    rw [List.cons_append, operandFrom, if_neg hopen, hafter, ih h, List.cons_append]

theorem operandFrom_parenthesized {u : List Token} (w : List Token)
    (h : depthThrough? 0 u = some 0) :
    operandFrom 0 (parenthesized u ++ w) = parenthesized u ++ operandFrom 0 w := by
  have hinner := operandFrom_append (.rparen :: w) h
  simp only [Int.natCast_zero, Int.zero_add] at hinner
  simp [parenthesized, operandFrom, endsOperand, Token.isOneOf, Token.isKeyword, Token.keyword?,
    Token.clause?, depthAfter, Token.depthChange, hinner]

/-- Of tokens in parentheses the first parenthesis is closed by the last one only. -/
theorem eq_nil_of_parenthesized {u w inner : List Token} (hu : depthThrough? 0 u = some 0)
    (hinner : depthThrough? 0 inner = some 0)
    (h : parenthesized u ++ w = parenthesized inner) : w = [] := by
  rcases List.eq_nil_or_concat w with rfl | ⟨w, t, rfl⟩
  · rfl
  · exfalso
    have hinner' : inner = u ++ .rparen :: w := by
      rw [List.concat_eq_append, ← List.append_assoc] at h
      obtain ⟨hfront, _⟩ := List.append_inj' (h : _ = Token.lparen :: inner ++ [.rparen]) rfl
      simpa [parenthesized] using hfront.symm
    rw [hinner', depthThrough?_append, hu] at hinner
    cases hinner

/-! ### Comparisons -/

/-- A reference to a column: names in front of it with a dot behind each, and parentheses around
all of it. -/
structure Reference where
  wraps : Nat
  qualifiers : List Name
  column : Name

/-- The tokens of a reference. -/
def Reference.tokens (r : Reference) : List Token :=
  List.replicate r.wraps .lparen ++ ((r.qualifiers.flatMap fun q => [q.1, .dot])
    ++ r.column.1 :: List.replicate r.wraps .rparen)

/-- What may stand between a comparing token and an operand on its right: nothing, the lower bound
of a `BETWEEN`, or the front of a list. -/
inductive Leads (relation : Token) : List Token → Prop
  | directly : Leads relation []
  | upper {low : List Token} {w : Word .and} (hrelation : relation.isKeyword .between = true)
      (hlow : Passes (fun t => !endsOperand t) low) : Leads relation (low ++ [w.1])
  | element {items : List Token} (hrelation : relation.isKeyword .in_ = true)
      (hitems : depthThrough? 0 items = some 0) : Leads relation (.lparen :: items)

/-- A comparison in a statement that has a reference to a column as an operand. -/
inductive ColumnComparison where
  | onLeft (front : List Token) (r : Reference) (negation : Option (Word .not)) (relation : Token)
      (back : List Token)
  | onRight (front : List Token) (relation : Token) (lead : List Token) (r : Reference)
      (back : List Token)

namespace ColumnComparison

/-- The tokens of the statement around a comparison. -/
def tokens : ColumnComparison → List Token
  | onLeft front r negation relation back =>
    front ++ (r.tokens ++ (negation.toList.map (·.1) ++ relation :: back))
  | onRight front relation lead r back => front ++ relation :: (lead ++ (r.tokens ++ back))

/-- The reference that is compared. -/
def reference : ColumnComparison → Reference
  | onLeft _ r _ _ _ | onRight _ _ _ r _ => r

/-- Whether the parts of a comparison play their roles.  Behind a column there is no dot and no
opening parenthesis, else it were a qualifier or a call. -/
def isWellFormed : ColumnComparison → Prop
  | onLeft _ _ _ relation _ => isRelation relation = true
  | onRight _ relation lead r back =>
    isRelation relation = true ∧ Leads relation lead ∧
      (r.wraps = 0 → back.head? ≠ some .dot ∧ back.head? ≠ some .lparen)

/-- What a column on the left is compared by, without a negation, and the whole operand that it is
compared with. -/
def test? : ColumnComparison → Option (Token × List Token)
  | onLeft _ _ none relation back => some (relation, operandFrom 0 back)
  | _ => none

/-- Whether a token beside the column is the comparing one. -/
def isSeen : ColumnComparison → Prop
  | onLeft _ r _ _ _ => r.wraps = 0
  | onRight _ _ lead r _ => lead = [] ∧ r.wraps = 0 ∧ r.qualifiers.length ≤ 1

end ColumnComparison
end Sql

namespace Scope

open Sql

/-- The tokens between the parentheses of a list. -/
def listed (first : Token) (more : List Token) : List Token :=
  first :: more.flatMap fun t => [.comma, t]

/-- Whether tokens are the tenant, or a list of nothing else in parentheses. -/
inductive NamesTenant (tenant : Int) : List Token → Prop
  | single {t : Token} (h : isTenant tenant t = true) : NamesTenant tenant [t]
  | list {first : Token} {more : List Token} (h : ∀ t ∈ first :: more, isTenant tenant t = true) :
      NamesTenant tenant (parenthesized (listed first more))

/-- Whether tokens begin with the tenant or a list of it. -/
def startsWithTenant (tenant : Int) (ts : List Token) : Prop :=
  ∃ first rest, ts = first ++ rest ∧ NamesTenant tenant first

/-- Whether a comparison holds a column on its left to the tenant. -/
def isPinned (tenant : Int) (c : ColumnComparison) : Prop :=
  ∃ relation other, c.test? = some (relation, other) ∧
    (relation = .operator .eq ∨ relation.isKeyword .in_ = true) ∧ NamesTenant tenant other

variable {column : String} {tenant : Int}

/-! ### The tenant in an operand -/

theorem not_endsOperand_of_isTenant {t : Token} (h : isTenant tenant t = true) :
    t ≠ .lparen ∧ t ≠ .rparen ∧ endsOperand t = false := by
  cases t with
  | number digits => exact ⟨nofun, nofun, rfl⟩
  | literal quote body => exact ⟨nofun, nofun, rfl⟩
  | _ => cases h

theorem operandFrom_of_isTenant {t : Token} (h : isTenant tenant t = true) (r : List Token) :
    operandFrom 0 (t :: r) = t :: operandFrom 0 r := by
  obtain ⟨hopen, hclose, hends⟩ := not_endsOperand_of_isTenant h
  have hafter : depthAfter 0 t = 0 := by
    cases t <;> first | rfl | contradiction
  rw [operandFrom, hends, if_neg (by simp), hafter]

theorem depthThrough?_listed {first : Token} {more : List Token}
    (h : ∀ t ∈ first :: more, isTenant tenant t = true) :
    depthThrough? 0 (listed first more) = some 0 := by
  have hsingle (t : Token) (ht : isTenant tenant t = true) : Passes (fun _ => true) [t] :=
    Passes.single (not_endsOperand_of_isTenant ht).1 (not_endsOperand_of_isTenant ht).2.1 rfl
  have hlist : Passes (fun _ => true) (listed first more) := by
    induction more generalizing first with
    | nil => exact hsingle first (h first List.mem_cons_self)
    | cons t more ih =>
      obtain ⟨hfirst, hmore⟩ := List.forall_mem_cons.mp h
      have hcomma : Passes (fun _ => true) [.comma] := by decide
      exact (hsingle first hfirst).append (hcomma.append (ih hmore))
  exact hlist.closed

theorem tenantList?_eq_some {ts rest : List Token} (h : tenantList? tenant ts = some rest) :
    ∃ first more, ts = listed first more ++ .rparen :: rest ∧
      ∀ t ∈ first :: more, isTenant tenant t = true := by
  fun_induction tenantList? tenant ts with
  | case1 t rest' ht =>
    obtain rfl := Option.some.inj h
    exact ⟨t, [], rfl, by simpa using ht⟩
  | case3 t r ht ih =>
    obtain ⟨first, more, rfl, hall⟩ := ih h
    exact ⟨t, first :: more, rfl, List.forall_mem_cons.mpr ⟨ht, hall⟩⟩
  | _ => cases h

theorem isUndivided_of_namesTenant {ts : List Token} (h : NamesTenant tenant ts) :
    isUndivided ts := by
  cases h with
  | single h => exact Or.inl rfl
  | list h => exact Or.inr ⟨_, rfl, depthThrough?_listed h⟩

/-- Tokens that begin with the tenant, or a list of it, go on behind it unless they are undivided. -/
theorem namesTenant_append_iff {first : List Token} (h : NamesTenant tenant first)
    (rest : List Token) :
    NamesTenant tenant (first ++ rest) ↔ isUndivided (first ++ rest) := by
  refine ⟨isUndivided_of_namesTenant, fun hundivided => ?_⟩
  have hrest : rest = [] := by
    cases h with
    | single ht =>
      rcases hundivided with hlength | ⟨inner, hinner, _⟩
      · simpa using hlength
      · obtain ⟨rfl, _⟩ := List.cons.inj hinner
        cases ht
    | list hall =>
      rcases hundivided with hlength | ⟨inner, hinner, hclosed⟩
      · simp [parenthesized, listed] at hlength
      · exact eq_nil_of_parenthesized (depthThrough?_listed hall) hclosed hinner
  rwa [hrest, List.append_nil]

theorem startsWithTenant_of_isTenant {t : Token} (ht : isTenant tenant t = true) (r : List Token) :
    startsWithTenant tenant (operandFrom 0 (t :: r)) :=
  ⟨[t], operandFrom 0 r, operandFrom_of_isTenant ht r, .single ht⟩

theorem startsWithTenant_of_tenants? {r rest : List Token} (h : tenants? tenant r = some rest) :
    startsWithTenant tenant (operandFrom 0 r) := by
  unfold tenants? at h
  split at h
  · obtain ⟨first, more, rfl, hall⟩ := tenantList?_eq_some h
    refine ⟨parenthesized (listed first more), operandFrom 0 rest, ?_, .list hall⟩
    rw [← operandFrom_parenthesized rest (depthThrough?_listed hall)]
    simp [parenthesized]
  · cases h

/-! ### Seen comparisons -/

theorem keyword_of_isRelation {t : Token} (h : isRelation t = true) :
    (∃ op, t = .operator op) ∨
      ∃ k, t.keyword? = some k ∧ (k = .in_ ∨ k.startsPredicate = true) := by
  have hwords : ∀ k ∈ [Keyword.in_, .like, .between, .regexp, .rlike, .sounds, .member],
      k = .in_ ∨ k.startsPredicate = true := by decide
  rcases (Bool.or_eq_true _ _).mp h with hcompares | hword
  · cases t with
    | operator op => exact Or.inl ⟨op, rfl⟩
    | _ => exact Or.inr ⟨.is_, keyword?_of_isKeyword hcompares, Or.inr rfl⟩
  · obtain ⟨k, hk, hkey⟩ := List.any_eq_true.mp hword
    exact Or.inr ⟨k, keyword?_of_isKeyword hkey, hwords k hk⟩

theorem comparesBefore_of_isRelation {t : Token} (h : isRelation t = true) :
    comparesBefore t = true := by
  rcases keyword_of_isRelation h with ⟨op, rfl⟩ | ⟨k, hkey, hk⟩
  · rfl
  · cases t with
    | word letters =>
      rw [comparesBefore, hkey]
      · rcases hk with rfl | hk
        · rfl
        · simp [hk]
      · exact nofun
    | _ => cases hkey

theorem pinnedAfter_of_startsPredicate {t : Token} {k : Keyword} (hkey : t.keyword? = some k)
    (hk : k.startsPredicate = true) (r : List Token) : pinnedAfter tenant (t :: r) = false := by
  cases t with
  | word letters =>
    rw [pinnedAfter, hkey]
    · cases k <;> first | rfl | cases hk
    · rintro _ ⟨⟩
  | _ => cases hkey

/-- Behind the tenant column stands a comparing token only if it is `=` or `IN`, and behind that the
tenant or a list of it. -/
theorem pinned_of_pinnedAfter {relation : Token} {back : List Token}
    (hrelation : isRelation relation = true)
    (h : pinnedAfter tenant (relation :: back) = true) :
    (relation = .operator .eq ∨ relation.isKeyword .in_ = true) ∧
      startsWithTenant tenant (operandFrom 0 back) := by
  rcases keyword_of_isRelation hrelation with ⟨op, rfl⟩ | ⟨k, hkey, hk⟩
  · rw [pinnedAfter, Bool.and_eq_true, beq_iff_eq] at h
    obtain ⟨rfl, htenant⟩ := h
    cases back with
    | nil => cases htenant
    | cons t r => exact ⟨Or.inl rfl, startsWithTenant_of_isTenant htenant r⟩
  · rcases hk with rfl | hk
    · cases relation with
      | word letters =>
        rw [pinnedAfter, hkey] at h
        · obtain ⟨rest, hrest⟩ := Option.isSome_iff_exists.mp h
          exact ⟨Or.inr (by simp [Token.isKeyword, hkey]), startsWithTenant_of_tenants? hrest⟩
        · rintro _ ⟨⟩
      | _ => cases hkey
    · rw [pinnedAfter_of_startsPredicate hkey hk] at h
      cases h

theorem isColumn_of_flat {n : Name} {t : Token} (hname : n.1.name = column) (hdot : t ≠ .dot)
    (hopen : t ≠ .lparen) (r : List Token) : isColumn column n.1 (t :: r) = true := by
  simp [isColumn, n.2, hname, hdot, hopen]

theorem flat_of_isRelation {t : Token} (h : isRelation t = true) : t ≠ .dot ∧ t ≠ .lparen := by
  constructor <;> rintro rfl <;> cases h

/-- Across one qualifier the scan sees the token in front of a reference. -/
theorem leftNeighbour_of_qualifiers {t : Token} (ht : t ≠ .dot) {qs : List Name}
    (hqs : qs.length ≤ 1) (front : List Token) :
    leftNeighbour (front ++ t :: qs.flatMap fun q => [q.1, .dot]).reverse = some t := by
  match qs with
  | [] =>
    simp only [List.flatMap_nil, List.reverse_append, List.reverse_cons, List.reverse_nil,
      List.nil_append, List.singleton_append]
    cases t <;> first | rfl | contradiction
  | [q] => simp [leftNeighbour]

section Seen

variable {ts : List Token} (huses : usesPinned column tenant [] ts = true) {r : Reference}
  (hname : r.column.1.name = column) (hwraps : r.wraps = 0)
include huses hname hwraps

/-- Behind a tenant column without parentheses stands no comparing token but `=` and `IN`, and no
`NOT` in front of it. -/
theorem test_of_onLeft {front : List Token} {negation : Option (Word .not)} {relation : Token}
    {back : List Token} (hts : (ColumnComparison.onLeft front r negation relation back).tokens = ts)
    (hrelation : isRelation relation = true) :
    negation = none ∧ (relation = .operator .eq ∨ relation.isKeyword .in_ = true) ∧
      startsWithTenant tenant (operandFrom 0 back) := by
  have hplace : ts = (front ++ r.qualifiers.flatMap fun q => [q.1, .dot]) ++
      r.column.1 :: (negation.toList.map (·.1) ++ relation :: back) := by
    rw [← hts]
    simp [ColumnComparison.tokens, Reference.tokens, hwraps]
  have hneighbours := usesPinned_iff.mp huses _ _ _ hplace
  cases negation with
  | some w =>
    exfalso
    have hkey := keyword?_of_isKeyword w.2
    obtain ⟨hdot, hopen⟩ : w.1 ≠ .dot ∧ w.1 ≠ .lparen := by
      constructor <;> intro h <;> rw [h] at hkey <;> cases hkey
    have hpinned := (hneighbours (isColumn_of_flat hname hdot hopen _)).2
    simp only [Option.toList_some, List.map_cons, List.map_nil, List.cons_append,
      List.nil_append, pinnedAfter_of_startsPredicate hkey rfl] at hpinned
    cases hpinned
  | none =>
    obtain ⟨hdot, hopen⟩ := flat_of_isRelation hrelation
    exact ⟨rfl, pinned_of_pinnedAfter hrelation
      (hneighbours (isColumn_of_flat hname hdot hopen _)).2⟩

/-- In front of a tenant column without parentheses, and with one qualifier at most, stands no
comparing token. -/
theorem not_onRight {front : List Token} {relation : Token} {back : List Token}
    (hts : (ColumnComparison.onRight front relation [] r back).tokens = ts)
    (hrelation : isRelation relation = true) (hqualifiers : r.qualifiers.length ≤ 1)
    (hdot : back.head? ≠ some .dot) (hopen : back.head? ≠ some .lparen) : False := by
  have hplace : ts = (front ++ relation :: r.qualifiers.flatMap fun q => [q.1, .dot]) ++
      r.column.1 :: back := by
    rw [← hts]
    simp [ColumnComparison.tokens, Reference.tokens, hwraps]
  have hcolumn : isColumn column r.column.1 back = true := by
    simp [isColumn, r.column.2, hname, hdot, hopen]
  have hfront := (usesPinned_iff.mp huses _ _ _ hplace hcolumn).1
  rw [List.append_nil, leftNeighbour_of_qualifiers (flat_of_isRelation hrelation).1 hqualifiers,
    Option.map_some, Option.getD_some, comparesBefore_of_isRelation hrelation] at hfront
  cases hfront

end Seen

/-- The comparisons of the tenant column in a statement that is scoped to a tenant.  One that the
scan sees has the column on its left and compares it by `=` or `IN`, without a negation, with an
operand that begins with the tenant or a list of it.  It is pinned just when that operand is
undivided. -/
theorem comparisons_pinned {a : AllowList} {tenant : Int} {sql : List Char}
    (hscoped : holds a.tenantColumn tenant sql = true) :
    ∃ ts, tokenize sql = .ok ts ∧ ∀ c : ColumnComparison, c.tokens = ts → c.isWellFormed →
      c.reference.column.1.name = a.tenantColumn → c.isSeen →
        ∃ relation other, c.test? = some (relation, other) ∧
          (relation = .operator .eq ∨ relation.isKeyword .in_ = true) ∧
          startsWithTenant tenant other ∧ (isPinned tenant c ↔ isUndivided other) := by
  obtain ⟨ts, blocks, hblocks, huses, _⟩ := checkBlock_of_holds hscoped
  obtain ⟨_, htokens, _⟩ := blocksOf_eq_ok_iff.mp hblocks
  refine ⟨ts, htokens, fun c hts hwell hname hseen => ?_⟩
  cases c with
  | onLeft front r negation relation back =>
    obtain ⟨rfl, hrelation, hstarts⟩ := test_of_onLeft huses hname hseen hts hwell
    refine ⟨relation, operandFrom 0 back, rfl, hrelation, hstarts, ?_⟩
    have hnames : isPinned tenant (.onLeft front r none relation back) ↔
        NamesTenant tenant (operandFrom 0 back) := by
      constructor
      · rintro ⟨_, _, htest, _, hnames⟩
        cases htest
        exact hnames
      · exact fun hnames => ⟨relation, _, rfl, hrelation, hnames⟩
    obtain ⟨first, rest, hother, hfirst⟩ := hstarts
    rw [hnames, hother]
    exact namesTenant_append_iff hfirst rest
  | onRight front relation lead r back =>
    obtain ⟨rfl, hwraps, hqualifiers⟩ := hseen
    obtain ⟨hrelation, _, hback⟩ := hwell
    obtain ⟨hdot, hopen⟩ := hback hwraps
    exact (not_onRight huses hname hwraps hts hrelation hqualifiers hdot hopen).elim

/-- The column of restaurants under the given qualifiers, in the given number of parentheses. -/
def restaurantReference (wraps : Nat) (qualifiers : List Name) : Reference :=
  ⟨wraps, qualifiers, ⟨.word "restaurant_id".toList, rfl⟩⟩

/-- A statement that looks for the restaurant in a list of one restaurant, written in two ways. -/
def twiceListedText : List Char :=
  "SELECT c.id FROM daily_check c ".toList
    ++ "WHERE c.restaurant_id IN (74, '074') LIMIT 10".toList

/-- The comparison of such a statement. -/
def twiceListed : ColumnComparison :=
  .onLeft
    [Keyword.select.token.1, .word ['c'], .dot, .word ['i', 'd'], Keyword.from_.token.1,
      .word "daily_check".toList, .word ['c'], Keyword.where_.token.1]
    (restaurantReference 0 [⟨.word ['c'], rfl⟩]) none Keyword.in_.token.1
    [.lparen, .number ['7', '4'], .comma, .literal .single ['0', '7', '4'], .rparen,
      Keyword.limit.token.1, .number ['1', '0']]

theorem twiceListed_pinned :
    holds Policy.shipped.tenantColumn 74 twiceListedText = true ∧
      tokenize twiceListedText = .ok twiceListed.tokens ∧ isPinned 74 twiceListed := by
  have hscoped : holds Policy.shipped.tenantColumn 74 twiceListedText = true := by decide +kernel
  have htokens : tokenize twiceListedText = .ok twiceListed.tokens := by
    rw [tokenize_eq_ok_iff]
    decide +kernel
  refine ⟨hscoped, htokens, ?_⟩
  obtain ⟨ts, hts, hall⟩ := comparisons_pinned hscoped
  obtain rfl := Except.ok.inj (htokens.symm.trans hts)
  have hrelation : isRelation Keyword.in_.token.1 = true := by decide +kernel
  obtain ⟨relation, other, htest, _, _, hpinned⟩ :=
    hall twiceListed rfl hrelation (by decide +kernel) rfl
  have hother : twiceListed.test? = some (Keyword.in_.token.1,
      parenthesized [.number ['7', '4'], .comma, .literal .single ['0', '7', '4']]) := by
    decide +kernel
  rw [hother] at htest
  cases htest
  exact hpinned.mpr (Or.inr ⟨_, rfl, by decide⟩)

/-- A statement that compares the column of restaurants a second time, in parentheses. -/
def wrappedText : List Char :=
  "SELECT id FROM daily_check WHERE restaurant_id = 74 ".toList
    ++ "AND (restaurant_id) > 75 LIMIT 10".toList

/-- The second comparison of such a statement. -/
def wrappedComparison : ColumnComparison :=
  .onLeft
    [Keyword.select.token.1, .word ['i', 'd'], Keyword.from_.token.1, .word "daily_check".toList,
      Keyword.where_.token.1, .word "restaurant_id".toList, .operator .eq, .number ['7', '4'],
      Keyword.and.token.1]
    (restaurantReference 1 []) none (.operator .gt)
    [.number ['7', '5'], Keyword.limit.token.1, .number ['1', '0']]

/-- Beside a column in parentheses stand the parentheses, so the scan does not see what the column
is compared with. -/
theorem wrappedComparison_not_pinned :
    holds Policy.shipped.tenantColumn 74 wrappedText = true ∧
      tokenize wrappedText = .ok wrappedComparison.tokens ∧ wrappedComparison.isWellFormed ∧
      wrappedComparison.reference.column.1.name = Policy.shipped.tenantColumn ∧
      wrappedComparison.test? = some (.operator .gt, [.number ['7', '5']]) ∧
      ¬ isPinned 74 wrappedComparison := by
  have htokens : tokenize wrappedText = .ok wrappedComparison.tokens := by
    rw [tokenize_eq_ok_iff]
    decide +kernel
  have htest : wrappedComparison.test? = some (.operator .gt, [.number ['7', '5']]) := by
    decide +kernel
  refine ⟨by decide +kernel, htokens, rfl, by decide +kernel, htest, ?_⟩
  rintro ⟨relation, other, hpinned, hrelation, _⟩
  rw [htest] at hpinned
  cases hpinned
  rcases hrelation with hrelation | hrelation <;> cases hrelation

end Scope
end QueryGate
