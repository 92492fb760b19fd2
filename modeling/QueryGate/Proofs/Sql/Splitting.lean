import Mathlib.Data.List.Basic
import QueryGate.Proofs.Sql.LastClause

/-!
# Splitting loses nothing

A statement is its blocks with the unions between them, and a block is its clauses with their
keywords in front.  So a token that is in no block is one of a union, and a token that is in no
clause is one of the keywords that open them.
-/

namespace QueryGate
namespace Sql

/-! ### Unions between blocks -/

/-- The word at the front of tokens that says what happens to duplicates, if it is there. -/
def modifier (ts : List Token) : List Token := (ts.take 1).filter (·.isOneOf [.all, .distinct])

/-- The unions in the open, each with the word right behind it that says what happens to duplicates,
when the first token stands at the given depth. -/
def jointsFrom (depth : Int) : List Token → List (List Token)
  | [] => []
  | t :: r =>
    let more := jointsFrom (depthAfter depth t) r
    if depthAt depth t = 0 ∧ t.isKeyword .union then (t :: modifier r) :: more else more

/-- The unions of a statement that no parenthesis surrounds, each with the word right behind it that
says what happens to duplicates. -/
def joints (ts : List Token) : List (List Token) := jointsFrom 0 ts

/-- The number of unions that no parenthesis surrounds. -/
def unionCount (ts : List Token) : Nat :=
  (ts.zip (depths ts)).countP fun c => c.1.isKeyword .union && c.2 == 0

theorem length_jointsFrom (depth : Int) (ts : List Token) :
    (jointsFrom depth ts).length =
      (ts.zip (depthsFrom depth ts)).countP fun c => c.1.isKeyword .union && c.2 == 0 := by
  induction ts generalizing depth with
  | nil => rfl
  | cons t r ih =>
    rw [jointsFrom, depthsFrom, List.zip_cons_cons, List.countP_cons, ← ih]
    by_cases hunion : depthAt depth t = 0 ∧ t.isKeyword .union = true
    · simp [hunion]
    · rw [if_neg hunion, if_neg]
      · rfl
      · simpa [and_comm] using hunion

theorem not_union_of_modifier {t : Token} (h : t.isOneOf [.all, .distinct] = true) (depth : Int) :
    ¬(depthAt depth t = 0 ∧ t.isKeyword .union = true) := by
  rintro ⟨_, hunion⟩
  simp [Token.isOneOf, Token.isKeyword, keyword?_of_isKeyword hunion] at h

/-- What the splitting leaves out at the front of tokens. -/
def leftOut (afterUnion : Bool) (ts : List Token) : List Token :=
  if afterUnion then modifier ts else []

theorem modifier_cons (t : Token) (r : List Token) :
    modifier (t :: r) = if t.isOneOf [.all, .distinct] then [t] else [] := by
  simp [modifier, List.filter_cons]

theorem leftOut_cons_of_not {afterUnion : Bool} {t : Token} (r : List Token)
    (h : ¬(afterUnion && t.isOneOf [.all, .distinct]) = true) :
    leftOut afterUnion (t :: r) = [] := by
  cases afterUnion with
  | false => rfl
  | true => simpa [leftOut, modifier_cons] using h

/-- Parts with what comes behind each of them. -/
def interleaved (parts ends : List (List Token)) : List Token :=
  (List.zipWith (· ++ ·) parts ends).flatten

theorem interleaved_cons (part last : List Token) (parts ends : List (List Token)) :
    interleaved (part :: parts) (last :: ends) = part ++ (last ++ interleaved parts ends) := by
  simp [interleaved]

theorem interleaved_consFirst (t : Token) {parts ends : List (List Token)} (hparts : parts ≠ [])
    (hends : ends ≠ []) : interleaved (consFirst t parts) ends = t :: interleaved parts ends := by
  obtain ⟨part, parts, rfl⟩ := List.exists_cons_of_ne_nil hparts
  obtain ⟨last, ends, rfl⟩ := List.exists_cons_of_ne_nil hends
  rfl

theorem length_consFirst (t : Token) {parts : List (List Token)} (h : parts ≠ []) :
    (consFirst t parts).length = parts.length := by
  obtain ⟨part, parts, rfl⟩ := List.exists_cons_of_ne_nil h
  rfl

/-- There is one block more than unions in the open. -/
theorem length_blocksFrom (afterUnion : Bool) (depth : Int) (ts : List Token) :
    (blocksFrom afterUnion depth ts).length = (jointsFrom depth ts).length + 1 := by
  induction ts generalizing afterUnion depth with
  | nil => rfl
  | cons t r ih =>
    rw [blocksFrom, jointsFrom]
    split
    · rename_i hskip
      rw [Bool.and_eq_true] at hskip
      rw [ih, if_neg (not_union_of_modifier hskip.2 depth)]
    split
    · rw [List.length_cons, List.length_cons, ih]
    · rw [length_consFirst t (blocksFrom_ne_nil _ _ _), ih]

/-- The blocks with the unions between them are the tokens, less what is left out at the front. -/
theorem interleaved_blocksFrom (afterUnion : Bool) (depth : Int) (ts : List Token) :
    leftOut afterUnion ts ++
      interleaved (blocksFrom afterUnion depth ts) (jointsFrom depth ts ++ [[]]) = ts := by
  induction ts generalizing afterUnion depth with
  | nil => cases afterUnion <;> rfl
  | cons t r ih =>
    rw [blocksFrom, jointsFrom]
    split
    · rename_i hskip
      rw [Bool.and_eq_true] at hskip
      have hmore := ih false (depthAfter depth t)
      rw [leftOut, if_neg Bool.false_ne_true, List.nil_append] at hmore
      rw [if_neg (not_union_of_modifier hskip.2 depth), hmore, leftOut, if_pos hskip.1,
        modifier_cons, if_pos hskip.2]
      rfl
    rename_i hskip
    rw [leftOut_cons_of_not r hskip, List.nil_append]
    split
    · have hmore := ih true (depthAfter depth t)
      rw [leftOut, if_pos rfl] at hmore
      rw [List.cons_append, interleaved_cons, List.nil_append, List.cons_append, hmore]
    · have hmore := ih false (depthAfter depth t)
      rw [leftOut, if_neg Bool.false_ne_true, List.nil_append] at hmore
      rw [interleaved_consFirst t (blocksFrom_ne_nil _ _ _) (by simp), hmore]

/-- Closed tokens are split into blocks that are closed and show no union; the first one starts
inside the parentheses that the tokens start in. -/
theorem passes_blocksFrom (afterUnion : Bool) {depth : Nat} {ts : List Token}
    (hclosed : depthThrough? depth ts = some 0) :
    ∃ first more, blocksFrom afterUnion depth ts = first :: more ∧
      depthThrough? depth first = some 0 ∧ showsOnly inBlock depth first = true ∧
      ∀ b ∈ more, Passes inBlock b := by
  induction ts generalizing afterUnion depth with
  | nil =>
    cases hclosed
    exact ⟨[], [], rfl, rfl, rfl, List.forall_mem_nil _⟩
  | cons t r ih =>
    obtain ⟨inner, hinner, hrest⟩ := Option.bind_eq_some_iff.mp hclosed
    rw [blocksFrom, depthAfter_of_depthBehind? hinner]
    split
    · rename_i hskip
      rw [Bool.and_eq_true] at hskip
      obtain ⟨k, _, hk⟩ := exists_keyword_of_isOneOf hskip.2
      rw [depthBehind?_of_keyword depth hk] at hinner
      cases hinner
      exact ih false hrest
    split
    · rename_i hunion
      obtain ⟨hdepth, hunion⟩ := hunion
      have hk := keyword?_of_isKeyword hunion
      rw [(depths_of_keyword depth hk).1] at hdepth
      obtain rfl : depth = 0 := Int.natCast_eq_zero.mp hdepth
      rw [depthBehind?_of_keyword 0 hk] at hinner
      cases hinner
      obtain ⟨first, more, hblocks, hthrough, hshows, hmore⟩ := ih true hrest
      refine ⟨[], first :: more, by rw [hblocks], rfl, rfl, ?_⟩
      exact List.forall_mem_cons.mpr ⟨⟨hthrough, hshows⟩, hmore⟩
    · rename_i hunion
      obtain ⟨first, more, hblocks, hthrough, hshows, hmore⟩ := ih false hrest
      refine ⟨t :: first, more, by rw [hblocks]; rfl, ?_, ?_, hmore⟩
      · rw [depthThrough?, hinner]
        exact hthrough
      · rw [showsOnly, depthAfter_of_depthBehind? hinner, hshows, Bool.and_true, Bool.or_eq_true]
        by_cases hdepth : depthAt depth t = 0
        · right
          have hkeyword : t.isKeyword .union = false := by simpa [hdepth] using hunion
          rw [inBlock, hkeyword]
          rfl
        · left
          exact bne_iff_ne.mpr hdepth

/-! ### Keywords in front of clauses -/

/-- The keywords in front of what a clause holds. -/
def Clause.words (c : Clause) : List Keyword := c.keyword :: if c.needsBy then [.by_] else []

/-- Whether tokens are the keywords in front of the clauses, for one clause after the other. -/
def areOpenings (openings : List (List Token)) (sections : List Section) : Prop :=
  openings.map (·.map Token.keyword?) = sections.map fun s => s.clause.words.map some

theorem areOpenings_cons {opening : List Token} {openings : List (List Token)} {s : Section}
    {more : List Section} (h : opening.map Token.keyword? = s.clause.words.map some)
    (hmore : areOpenings openings more) : areOpenings (opening :: openings) (s :: more) := by
  rw [areOpenings, List.map_cons, List.map_cons, h, hmore]

theorem keyword?_of_clause? {t : Token} {c : Clause} (h : t.clause? = some c) :
    t.keyword? = some c.keyword := by
  obtain ⟨k, hk, hclause⟩ := Option.bind_eq_some_iff.mp h
  rw [hk]
  cases k <;> cases hclause <;> rfl

/-- How tokens are read as the rest of the clause under way and the clauses after it. -/
inductive ReadsClauses : Clause → Int → List Token → List Token → List Section → Prop where
  | nil (current : Clause) (depth : Int) : ReadsClauses current depth [] [] []
  | stays {current : Clause} {depth : Int} {t : Token} {r body : List Token} {more : List Section}
      (hc : depthAt depth t = 0 → t.clause? = none)
      (hr : ReadsClauses current (depthAfter depth t) r body more) :
      ReadsClauses current depth (t :: r) (t :: body) more
  | opens {current next : Clause} {opening r body : List Token} {more : List Section}
      (hopening : opening.map Token.keyword? = next.words.map some)
      (hrank : current.rank < next.rank) (hr : ReadsClauses next 0 r body more) :
      ReadsClauses current 0 (opening ++ r) [] (⟨next, body⟩ :: more)

/-- A keyword opens a clause at depth zero only. -/
theorem clause_in_open {depth : Int} {t : Token} {next : Clause}
    (h : (if depthAt depth t = 0 then t.clause? else none) = some next) :
    depth = 0 ∧ t.clause? = some next := by
  obtain ⟨hdepth, hclause⟩ := Option.ite_none_right_eq_some.mp h
  rw [(depths_of_clause depth hclause).1] at hdepth
  exact ⟨hdepth, hclause⟩

theorem readsClauses_of_sectionsFrom {current : Clause} {depth : Int} {ts body : List Token}
    {more : List Section} (h : sectionsFrom current depth ts = .ok (body, more)) :
    ReadsClauses current depth ts body more := by
  fun_induction sectionsFrom current depth ts generalizing body more with
  | case1 =>
    cases h
    exact .nil _ _
  | case3 current depth t r hc found after hr ih =>
    cases h
    refine .stays ?_ (ih hr)
    intro hdepth
    rwa [if_pos hdepth] at hc
  | case7 current depth t next hc hrank hby b r hb found after hr ih =>
    cases h
    obtain ⟨rfl, hclause⟩ := clause_in_open hc
    have hopening : [t, b].map Token.keyword? = next.words.map some := by
      simp [Clause.words, hby, keyword?_of_clause? hclause, keyword?_of_isKeyword hb]
    exact .opens hopening (Nat.lt_of_not_le hrank) (ih hr)
  | case10 current depth t r next hc hrank hby found after hr ih =>
    cases h
    obtain ⟨rfl, hclause⟩ := clause_in_open hc
    have hopening : [t].map Token.keyword? = next.words.map some := by
      simp [Clause.words, hby, keyword?_of_clause? hclause]
    exact .opens hopening (Nat.lt_of_not_le hrank) (ih hr)
  | _ => cases h

theorem depthThrough?_keywords {opening : List Token} {ks : List Keyword}
    (h : opening.map Token.keyword? = ks.map some) (depth : Nat) (r : List Token) :
    depthThrough? depth (opening ++ r) = depthThrough? depth r := by
  induction opening generalizing ks with
  | nil => rfl
  | cons t opening ih =>
    cases ks with
    | nil => cases h
    | cons k ks =>
      obtain ⟨hk, hks⟩ := List.cons.inj h
      rw [List.cons_append, depthThrough?_keyword depth hk, ih hks]

namespace ReadsClauses

variable {current : Clause} {depth : Int} {ts body : List Token} {more : List Section}
  (h : ReadsClauses current depth ts body more)
include h

/-- The tokens are those of the clause under way and the later clauses with their keywords. -/
theorem joined : ∃ openings, areOpenings openings more ∧
    body ++ interleaved openings (more.map Section.body) = ts := by
  induction h with
  | nil => exact ⟨[], rfl, rfl⟩
  | @stays _ _ t _ _ _ _ _ ih =>
    obtain ⟨openings, hopenings, hjoined⟩ := ih
    exact ⟨openings, hopenings, congrArg (t :: ·) hjoined⟩
  | @opens _ _ opening _ _ _ hopening _ _ ih =>
    obtain ⟨openings, hopenings, hjoined⟩ := ih
    refine ⟨opening :: openings, areOpenings_cons hopening hopenings, ?_⟩
    rw [List.map_cons, interleaved_cons, hjoined]
    rfl

/-- The later clauses come in order, each of them once. -/
theorem ordered : (∀ s ∈ more, current.rank < s.clause.rank) ∧
    more.Pairwise fun s u => s.clause.rank < u.clause.rank := by
  induction h with
  | nil => exact ⟨List.forall_mem_nil _, .nil⟩
  | stays _ _ ih => exact ih
  | opens _ hrank _ ih =>
    refine ⟨List.forall_mem_cons.mpr ⟨hrank, ?_⟩, List.pairwise_cons.mpr ih⟩
    intro s hs
    exact Nat.lt_trans hrank (ih.1 s hs)

/-- Closed tokens are split into clauses that are closed and show no keyword of a clause; the one
under way starts inside the parentheses that the tokens start in. -/
theorem passes {d : Nat} (hd : depth = d) (hclosed : depthThrough? d ts = some 0) :
    depthThrough? d body = some 0 ∧ showsOnly inClause d body = true ∧
      ∀ s ∈ more, Passes inClause s.body := by
  induction h generalizing d with
  | nil => exact ⟨hclosed, rfl, List.forall_mem_nil _⟩
  | @stays _ _ t _ _ _ hc _ ih =>
    subst hd
    obtain ⟨inner, hinner, hrest⟩ := Option.bind_eq_some_iff.mp hclosed
    obtain ⟨hthrough, hshows, hmore⟩ := ih (depthAfter_of_depthBehind? hinner) hrest
    refine ⟨?_, ?_, hmore⟩
    · rw [depthThrough?, hinner]
      exact hthrough
    · rw [showsOnly, depthAfter_of_depthBehind? hinner, hshows, Bool.and_true, Bool.or_eq_true]
      by_cases hdepth : depthAt (d : Int) t = 0
      · right
        rw [inClause, hc hdepth]
        rfl
      · left
        exact bne_iff_ne.mpr hdepth
  | opens hopening _ _ ih =>
    obtain rfl : d = 0 := Int.natCast_eq_zero.mp hd.symm
    rw [depthThrough?_keywords hopening] at hclosed
    obtain ⟨hthrough, hshows, hmore⟩ := ih rfl hclosed
    exact ⟨rfl, rfl, List.forall_mem_cons.mpr ⟨⟨hthrough, hshows⟩, hmore⟩⟩

end ReadsClauses

/-! ### Statements and blocks -/

/-- What the blocks of a statement say about its tokens. -/
structure SplitsAtUnions (ts : List Token) (blocks : List (List Token)) : Prop where
  /-- The blocks with the unions between them are the statement. -/
  joined : interleaved blocks (joints ts ++ [[]]) = ts
  /-- Every union in the open stands between two blocks. -/
  count : blocks.length = unionCount ts + 1 ∧ (joints ts).length = unionCount ts
  /-- A block is not empty, closes its parentheses and shows no union. -/
  blocks : ∀ b ∈ blocks, b ≠ [] ∧ Passes inBlock b

/-- What the clauses of a block say about its tokens. -/
structure SplitsAtClauses (block : List Token) (sections : List Section) : Prop where
  /-- The clauses with their keywords in front are the block. -/
  joined : ∃ openings, areOpenings openings sections ∧
    interleaved openings (sections.map Section.body) = block
  /-- The clauses come in order, each of them at most once. -/
  ordered : sections.Pairwise fun s u => s.clause.rank < u.clause.rank
  /-- A clause closes its parentheses and shows no keyword of a clause. -/
  bodies : ∀ s ∈ sections, Passes inClause s.body

theorem splitsAtUnions {ts : List Token} {blocks : List (List Token)}
    (hclosed : depthThrough? 0 ts = some 0) (h : splitUnion ts = .ok blocks) :
    SplitsAtUnions ts blocks := by
  obtain ⟨rfl, hnil⟩ := splitUnion_eq_ok_iff.mp h
  have hcount : (joints ts).length = unionCount ts := length_jointsFrom 0 ts
  refine ⟨interleaved_blocksFrom false 0 ts, ⟨?_, hcount⟩, ?_⟩
  · rw [← hcount]
    exact length_blocksFrom false 0 ts
  · intro b hb
    refine ⟨ne_of_mem_of_not_mem hb hnil, ?_⟩
    obtain ⟨first, more, hblocks, hthrough, hshows, hmore⟩ :=
      passes_blocksFrom false hclosed
    rw [Int.natCast_zero] at hblocks
    rw [hblocks] at hb
    rcases List.mem_cons.mp hb with rfl | hb
    · exact ⟨hthrough, hshows⟩
    · exact hmore b hb

theorem splitsAtClauses {block : List Token} {sections : List Section}
    (hclosed : depthThrough? 0 block = some 0) (h : splitClauses block = .ok sections) :
    SplitsAtClauses block sections := by
  obtain ⟨t, r, items, more, rfl, hselect, hread, rfl⟩ := splitClauses_eq_ok h
  have hkeyword := keyword?_of_isKeyword hselect
  rw [depthThrough?_keyword 0 hkeyword] at hclosed
  have hreads := readsClauses_of_sectionsFrom hread
  obtain ⟨openings, hopenings, hjoined⟩ := hreads.joined
  obtain ⟨hfirst, hpairwise⟩ := hreads.ordered
  obtain ⟨hthrough, hshows, hmore⟩ := hreads.passes rfl hclosed
  refine ⟨⟨[t] :: openings, ?_, ?_⟩, ?_, ?_⟩
  · refine areOpenings_cons ?_ hopenings
    simp [Clause.words, Clause.needsBy, Clause.keyword, hkeyword]
  · rw [List.map_cons, interleaved_cons, hjoined]
    rfl
  · exact List.pairwise_cons.mpr ⟨hfirst, hpairwise⟩
  · exact List.forall_mem_cons.mpr ⟨⟨hthrough, hshows⟩, hmore⟩

/-- Splitting a statement into blocks loses nothing but the unions between them, and splitting a
block into clauses nothing but the keywords in front of them. -/
theorem splitting_loses_nothing :
    (∀ cs ts blocks, tokenize cs = .ok ts → splitUnion ts = .ok blocks →
      SplitsAtUnions ts blocks) ∧
    ∀ block sections, depthThrough? 0 block = some 0 → splitClauses block = .ok sections →
      SplitsAtClauses block sections := by
  refine ⟨?_, ?_⟩
  · intro cs ts blocks hts
    exact splitsAtUnions (depthThrough?_of_tokensFrom (tokenize_eq_ok_iff.mp hts))
  · intro block sections hclosed
    exact splitsAtClauses hclosed

/-- A statement of two blocks with every kind of word that is in none of them. -/
def unitedText : List Char := "select a Union ALL select f(b, 2) order by c".toList

/-- The second block of `unitedText`. -/
def secondBlock : List Token :=
  [.word "select".toList, .word "f".toList, .lparen, .word "b".toList, .comma, .number "2".toList,
    .rparen, .word "order".toList, .word "by".toList, .word "c".toList]

/-- The blocks of `unitedText`. -/
def unitedBlocks : List (List Token) := [[.word "select".toList, .word "a".toList], secondBlock]

/-- The tokens of `unitedText`. -/
def unitedTokens : List Token :=
  interleaved unitedBlocks [[.word "Union".toList, .word "ALL".toList], []]

/-- The clauses of `secondBlock`. -/
def secondSections : List Section :=
  [⟨.select, [.word "f".toList, .lparen, .word "b".toList, .comma, .number "2".toList, .rparen]⟩,
    ⟨.order, [.word "c".toList]⟩]

theorem splitting_loses_nothing_of_unitedText :
    tokenize unitedText = .ok unitedTokens ∧ splitUnion unitedTokens = .ok unitedBlocks ∧
      depthThrough? 0 secondBlock = some 0 ∧ splitClauses secondBlock = .ok secondSections ∧
      SplitsAtUnions unitedTokens unitedBlocks ∧ SplitsAtClauses secondBlock secondSections := by
  have hruns : tokenize unitedText = .ok unitedTokens ∧ splitUnion unitedTokens = .ok unitedBlocks ∧
      depthThrough? 0 secondBlock = some 0 ∧ splitClauses secondBlock = .ok secondSections := by
    unfold unitedText
    rewrite [String.toList_ofList]
    decide +kernel
  obtain ⟨htokens, hblocks, hclosed, hsections⟩ := hruns
  obtain ⟨hunions, hclauses⟩ := splitting_loses_nothing
  exact ⟨htokens, hblocks, hclosed, hsections, hunions _ _ _ htokens hblocks,
    hclauses _ _ hclosed hsections⟩

end Sql
end QueryGate
