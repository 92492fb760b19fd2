import QueryGate.Proofs.Guard.Keywords
import QueryGate.Proofs.Scope.SameStatement

/-!
# Query expressions in parentheses

The guard finds a second `SELECT` of a block wherever it stands.  Query expressions can start with
other words as well; those it finds only if the allow-list forbids the words.
-/

namespace QueryGate

namespace Text

theorem sameLetter_toUpper (c : Char) : sameLetter c.toUpper c = true := by
  by_cases hc : c.toNat < 128
  · exact forall_ascii (p := fun c => sameLetter c.toUpper c = true) (by decide +kernel) hc
  · have hupper : c.toUpper = c := by
      unfold Char.toUpper
      split
      · rename_i hlower
        have := UInt32.le_iff_toNat_le.mp hlower.2
        exact absurd (Nat.lt_of_le_of_lt this (by decide)) hc
      · rfl
    rw [hupper, sameLetter, beq_self_eq_true]

theorem sameWord_map_toUpper (w : List Char) : sameWord sameLetter (w.map Char.toUpper) w = true := by
  induction w with
  | nil => rfl
  | cons c w ih => rw [List.map_cons, sameWord, sameLetter_toUpper, ih, Bool.true_and]

end Text

namespace Sql

/-- The words that a query expression can start with. -/
def queryOpenings : List String := ["SELECT", "WITH", "TABLE", "VALUES"]

theorem infix_consFirst {b : List Token} {parts : List (List Token)} (t : Token) (h : b ∈ parts) :
    ∃ part ∈ consFirst t parts, b <:+: part := by
  cases parts with
  | nil => cases h
  | cons first more =>
    rcases List.mem_cons.mp h with rfl | h
    · exact ⟨t :: b, List.mem_cons_self, (List.suffix_cons t b).isInfix⟩
    · exact ⟨b, List.mem_cons_of_mem _ h, List.infix_rfl⟩

/-- A token behind an opening parenthesis is in the block of the parenthesis. -/
theorem block_of_pair {w : Token} (hw : w.isKeyword .union = false) (afterUnion : Bool)
    (depth : Int) (u v : List Token) :
    ∃ b ∈ blocksFrom afterUnion depth (u ++ .lparen :: w :: v), [.lparen, w] <:+: b := by
  induction u generalizing afterUnion depth with
  | nil =>
    obtain ⟨first, more, hv, _⟩ := blocksFrom_isInfix false (depthAfter (depthAfter depth .lparen) w) v
    have hopen : Token.lparen.isOneOf [.all, .distinct] = false := rfl
    have hunion : Token.lparen.isKeyword .union = false := rfl
    rw [List.nil_append, blocksFrom, hopen, Bool.and_false, if_neg (by simp), hunion,
      if_neg (by simp), blocksFrom, Bool.false_and, if_neg (by simp), hw, if_neg (by simp), hv]
    exact ⟨.lparen :: w :: first, List.mem_cons_self, (List.prefix_append [.lparen, w] first).isInfix⟩
  | cons t u ih =>
    rw [List.cons_append, blocksFrom]
    split
    · exact ih _ _
    split
    · obtain ⟨b, hb, hpair⟩ := ih true (depthAfter depth t)
      exact ⟨b, List.mem_cons_of_mem _ hb, hpair⟩
    · obtain ⟨b, hb, hpair⟩ := ih false (depthAfter depth t)
      obtain ⟨part, hpart, hwithin⟩ := infix_consFirst t hb
      exact ⟨part, hpart, hpair.trans hwithin⟩

end Sql

namespace Guard

open Sql

theorem not_select_of_pair {block : List Token} {q : Query} (h : Query.ofBlock block = .ok q)
    {w : Token} (hpair : [.lparen, w] <:+: block) : w.isKeyword .select = false := by
  obtain ⟨hnested, sections, hsplit, _⟩ := ofBlock_eq_ok h
  obtain ⟨t, r, _, _, rfl, hselect, _, _⟩ := splitClauses_eq_ok hsplit
  rcases List.infix_cons_iff.mp hpair with hfront | hlater
  · obtain ⟨rest, heq⟩ := hfront
    rw [← (List.cons.inj heq).1] at hselect
    cases hselect
  · have hmem : w ∈ r := hlater.subset (by simp)
    rw [List.tail_cons, List.any_eq_false] at hnested
    simpa using hnested w hmem

theorem isKeyword_of_map_toUpper {letters : List Char} {k : Keyword}
    (h : letters.map Char.toUpper = k.letters) : (Token.word letters).isKeyword k = true := by
  have hself : k.letters.map Char.toUpper = k.letters := by cases k <;> decide
  have hword : Keyword.ofWord? letters = some k := by
    rw [Keyword.ofWord?_eq, h, ← hself, ← Keyword.ofWord?_eq, Keyword.ofWord?_letters]
  simp [Token.isKeyword, Token.keyword?, hword]

/-- No `SELECT` stands behind an opening parenthesis of an accepted statement. -/
theorem not_select_of_accepts {a : AllowList} {sql : List Char} (haccepted : accepts a sql = true)
    {u v : List Token} {letters : List Char}
    (hts : tokenize sql = .ok (u ++ .lparen :: .word letters :: v)) :
    letters.map Char.toUpper ≠ Keyword.select.letters := by
  intro hselect
  have hkey := isKeyword_of_map_toUpper hselect
  have hunion : (Token.word letters).isKeyword .union = false :=
    not_isKeyword_of_isKeyword hkey (by decide)
  obtain ⟨_, _, queries, hqueries, _⟩ := checks_of_accepts haccepted
  obtain ⟨us, parts, hus, hparts, hmap⟩ := queriesOf_eq_ok hqueries
  obtain ⟨ts, hts', rfl⟩ := exists_tokens_of_squeeze hus
  rw [hts] at hts'
  cases hts'
  have hguarded := blocksFrom_of_splitUnion hparts
  rw [List.map_append, List.map_cons, List.map_cons] at hguarded
  obtain ⟨part, hpart, hpair⟩ :=
    block_of_pair hunion false 0 (u.map Token.collapsed) (v.map Token.collapsed)
  have hpart : part ∈ parts := by
    rw [← hguarded]
    exact hpart
  obtain ⟨q, _, hblock⟩ := (mem_of_mapM hmap).1 part hpart
  rw [not_select_of_pair hblock hpair] at hkey
  cases hkey

/-- No forbidden word stands behind an opening parenthesis of an accepted statement. -/
theorem not_forbidden_of_accepts {a : AllowList} {sql : List Char} (haccepted : accepts a sql = true)
    {u v : List Token} {letters : List Char}
    (hts : tokenize sql = .ok (u ++ .lparen :: .word letters :: v)) {keyword : String}
    (hword : isPlainWord keyword.toList) (hsame : letters.map Char.toUpper = keyword.toList) :
    keyword ∉ a.forbiddenKeywords := by
  intro hkeyword
  obtain ⟨placed, hscan, hplaced⟩ := scan_of_tokenize hts
  obtain ⟨front, back, rfl, _, hback⟩ := List.map_eq_append_iff.mp hplaced
  obtain ⟨opening, back, rfl, hopening, hback⟩ := List.map_eq_cons_iff.mp hback
  obtain ⟨p, after, rfl, hp, _⟩ := List.map_eq_cons_iff.mp hback
  have hscan' : scan sql = .ok ((front ++ [opening]) ++ p :: after) := by simpa using hscan
  have htouches : touchesNumber (front ++ [opening]) p := by
    apply touchesNumber_of_accepts haccepted hkeyword hword hscan'
    · rw [hp]
      rfl
    · rw [hp, ← hsame]
      exact Text.sameWord_map_toUpper letters
  obtain ⟨_, n, digits, _, hlast, hnumber, _⟩ := htouches
  rw [List.getLast?_concat, Option.some.injEq] at hlast
  rw [← hlast, hopening] at hnumber
  cases hnumber

theorem isPlainWord_of_mem_queryOpenings {opening : String} (h : opening ∈ queryOpenings) :
    isPlainWord opening.toList := by
  have hall : ∀ o ∈ queryOpenings, o.toList ≠ [] ∧
      (o.toList.all fun k => k.toNat < 128 && Text.isWordChar k) = true := by decide +kernel
  obtain ⟨hne, hletters⟩ := hall opening h
  exact ⟨hne, by simpa using hletters⟩

/-- Behind a parenthesis an accepted statement shows none of the words that a query expression
starts with, except for words other than `SELECT` that the allow-list does not forbid.  So if the
allow-list forbids the other three, every table that the statement reads is one of the tables of its
blocks, all of which are allowed. -/
theorem nested_queries_of_accepted {a : AllowList} {sql : List Char}
    (haccepted : accepts a sql = true) :
    ∃ ts blocks, Scope.blocksOf sql = .ok (ts, blocks) ∧
      (∀ u letters v, ts = u ++ .lparen :: .word letters :: v →
        ∀ opening ∈ queryOpenings, letters.map Char.toUpper = opening.toList →
          opening ≠ "SELECT" ∧ opening ∉ a.forbiddenKeywords) ∧
      ∀ sections ∈ blocks, ∃ l : Listing, body .from_ sections = l.tokens ∧
        ∀ e ∈ l.entries, a.hasTable e.collapsed.tableName = true := by
  obtain ⟨ts, blocks, hts, hblocks⟩ := Scope.exists_blocksOf haccepted
  refine ⟨ts, blocks, hblocks, ?_, ?_⟩
  · rintro u letters v rfl opening hopening hsame
    constructor
    · rintro rfl
      exact not_select_of_accepts haccepted hts hsame
    · exact not_forbidden_of_accepts haccepted hts (isPlainWord_of_mem_queryOpenings hopening) hsame
  · intro sections hsections
    obtain ⟨l, hl⟩ := exists_listing haccepted hblocks hsections
    obtain ⟨_, _, _, hallowed, _⟩ := read_of_accepts haccepted hblocks hsections hl
    exact ⟨l, hl, hallowed⟩

/-- A statement that reads a table which no allow-list of checks names. -/
def tableInParentheses : List Char :=
  "SELECT id FROM daily_check WHERE qid IN (TABLE users) LIMIT 1".toList

theorem accepts_tableInParentheses : accepts Policy.shipped tableInParentheses = true := by
  apply accepts_of_isQuietQuery
  unfold tableInParentheses
  rewrite [String.toList_ofList]
  decide +kernel

theorem nested_queries_of_tableInParentheses :
    accepts Policy.shipped tableInParentheses = true ∧
      ∃ ts blocks, Scope.blocksOf tableInParentheses = .ok (ts, blocks) ∧
        (∀ u letters v, ts = u ++ .lparen :: .word letters :: v →
          ∀ opening ∈ queryOpenings, letters.map Char.toUpper = opening.toList →
            opening ≠ "SELECT" ∧ opening ∉ Policy.shipped.forbiddenKeywords) ∧
        ∀ sections ∈ blocks, ∃ l : Listing, body .from_ sections = l.tokens ∧
          ∀ e ∈ l.entries, Policy.shipped.hasTable e.collapsed.tableName = true :=
  ⟨accepts_tableInParentheses, nested_queries_of_accepted accepts_tableInParentheses⟩

/-- The guard lets a query expression pass that does not start with `SELECT`. -/
theorem accepted_statement_nests_table :
    accepts Policy.shipped tableInParentheses = true ∧ "TABLE" ∈ queryOpenings ∧
      Policy.shipped.hasTable "users" = false ∧
      ∃ u v, tokenize tableInParentheses =
        .ok (u ++ .lparen :: .word "TABLE".toList :: .word "users".toList :: v) := by
  refine ⟨accepts_tableInParentheses, by decide, by decide +kernel, ?_⟩
  refine ⟨[.word "SELECT".toList, .word "id".toList, .word "FROM".toList,
    .word "daily_check".toList, .word "WHERE".toList, .word "qid".toList, .word "IN".toList],
    [.rparen, .word "LIMIT".toList, .number "1".toList], ?_⟩
  rw [tokenize_eq_ok_iff]
  decide +kernel

end Guard
end QueryGate
