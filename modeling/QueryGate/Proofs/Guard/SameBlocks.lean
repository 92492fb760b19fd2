import QueryGate.Proofs.Scope.Soundness
import QueryGate.Proofs.Sql.Collapsing
import QueryGate.Guard.Check
import QueryGate.Run

/-!
# The blocks that both checks read

The guard reads a statement with its blanks collapsed and trimmed, the scope check reads it as it
is.  Of a statement that both can read they find the same blocks and the same clauses, up to the
blanks inside quotes.
-/

namespace QueryGate

namespace Sql

open Text

theorem tokensFrom_blanks {front : List Char} (h : ∀ c ∈ front, isBlank c = true) (depth : Nat)
    (r : List Char) : tokensFrom depth (front ++ r) = tokensFrom depth r := by
  induction front with
  | nil => rfl
  | cons c front ih =>
    rw [List.cons_append, tokensFrom_blank (h c (by simp))]
    exact ih fun d hd => h d (by simp [hd])

theorem literalBody?_of_not_mem {q : Char} {cs : List Char} (h : q ∉ cs) :
    literalBody? q cs = none := by
  rw [Option.eq_none_iff_forall_ne_some]
  intro body hbody
  obtain ⟨rest, rfl⟩ := literalBody?_eq hbody
  simp at h

theorem literalBody?_append_of_not_mem {q : Char} {back : List Char} (h : q ∉ back)
    (r : List Char) : literalBody? q (r ++ back) = literalBody? q r := by
  have hclosed : back.head? ≠ some q := fun hq => h (List.mem_of_head? hq)
  fun_induction literalBody? q r with
  | case1 => exact literalBody?_of_not_mem h
  | case2 => exact literalBody?_closed hclosed
  | case3 c hc => rw [List.singleton_append, literalBody?_of_ne hc, literalBody?_of_not_mem h]; rfl
  | case4 r ih => rw [List.cons_append, List.cons_append, literalBody?_doubled, ih]
  | case5 d r hd => rw [List.cons_append, literalBody?_closed (by simpa using hd)]
  | case6 c d r hc ih => rw [List.cons_append, literalBody?_of_ne hc, ih]

theorem quotedName?_append_of_not_mem {back : List Char} (h : Token.nameQuote ∉ back)
    (r : List Char) : quotedName? (r ++ back) = quotedName? r := by
  by_cases hr : Token.nameQuote ∈ r
  · obtain ⟨name, rest, rfl, hname⟩ := append_cons_of_mem hr
    rw [List.append_assoc, List.cons_append, quotedName?_append_cons hname,
      quotedName?_append_cons hname]
  · rw [quotedName?_of_not_mem hr, quotedName?_of_not_mem (by simp [hr, h])]

/-- Text that does not reach into what is in front of it: it is empty or starts with a blank, and
no quote of it can close one that was opened before. -/
structure StandsApart (back : List Char) : Prop where
  breaksOff : breaksOff back = true
  name : Token.nameQuote ∉ back
  single : '\'' ∉ back
  double : '"' ∉ back

section Back

variable {back : List Char} (hback : StandsApart back)
include hback

theorem firstToken?_append_apart (c : Char) (r : List Char) :
    firstToken? c (r ++ back) = firstToken? c r := by
  unfold firstToken? symbol?
  rw [quotedName?_append_of_not_mem hback.name, literalBody?_append_of_not_mem hback.single,
    literalBody?_append_of_not_mem hback.double, operatorAt?_append hback.breaksOff,
    takeWhile_append_of_breaksOff (fun c => not_isWordPart_of_isBlank) hback.breaksOff,
    ← List.cons_append, numberAt_append hback.breaksOff]

/-- Tokens that only the outermost depth admits at the end of a text.  A quote or a parenthesis that
is still open there stays open. -/
theorem tokensFrom_append_apart {us : List Token}
    (hread : ∀ depth, tokensFrom depth back = if depth = 0 then some us else none) (depth : Nat)
    (cs : List Char) :
    tokensFrom depth (cs ++ back) = (tokensFrom depth cs).map (· ++ us) := by
  fun_induction tokensFrom depth cs with
  | case1 => rw [List.nil_append, hread, if_pos rfl, Option.map_some, List.nil_append]
  | case2 depth hdepth => rw [List.nil_append, hread, if_neg hdepth, Option.map_none]
  | case3 depth c r hc ih => rw [List.cons_append, tokensFrom_blank hc, ih]
  | case4 depth c r hc ht =>
    rw [List.cons_append, tokensFrom_token (by simpa using hc), firstToken?_append_apart hback, ht]
    rfl
  | case5 depth c r hc t ht hclosed =>
    rw [List.cons_append, tokensFrom_token (by simpa using hc), firstToken?_append_apart hback, ht,
      Option.bind_some, hclosed]
    rfl
  | case6 depth c r hc t ht inner hinner ih =>
    have hfirst := (firstToken?_append_apart hback c r).trans ht
    rw [List.cons_append, tokensFrom_step hfirst (behind_append ht) (by simpa using hc) hinner, ih,
      Option.map_map, Option.map_map]
    rfl

end Back

/-- Blanks at the end hold no token, and end one that a quote has opened just as little as the end
of the text does. -/
theorem tokensFrom_append_blanks {back : List Char} (hback : ∀ c ∈ back, isBlank c = true)
    (depth : Nat) (cs : List Char) : tokensFrom depth (cs ++ back) = tokensFrom depth cs := by
  have absent {d : Char} (hd : isBlank d = false) : d ∉ back := by
    intro hmem
    rw [hback d hmem] at hd
    cases hd
  have hbreak : breaksOff back = true := by
    cases back with
    | nil => rfl
    | cons c r => simpa [breaksOff, startsBlank] using hback c List.mem_cons_self
  have hapart : StandsApart back :=
    ⟨hbreak, absent (by decide), absent (by decide), absent (by decide)⟩
  have hread (depth : Nat) : tokensFrom depth back = if depth = 0 then some [] else none := by
    have hempty := tokensFrom_blanks hback depth []
    rwa [List.append_nil, tokensFrom_nil] at hempty
  simp [tokensFrom_append_apart hapart hread]

/-- Blanks at the ends of a text hold no tokens. -/
theorem tokensFrom_trim (depth : Nat) (cs : List Char) :
    tokensFrom depth (trim cs) = tokensFrom depth cs := by
  obtain ⟨front, hfront, hblank⟩ := trimLeft_eq cs
  obtain ⟨back, hback, hblanks⟩ := trimRight_eq (trimLeft cs)
  have hwhole := tokensFrom_append_blanks hblanks depth (trim cs)
  rw [← tokensFrom_blanks hblank] at hwhole
  rw [← hwhole]
  unfold trim
  rw [← hback, ← hfront]

/-- The guard reads the tokens that the scope check reads, up to the blanks inside quotes, and it
can read them just when the scope check can. -/
theorem tokenize_squeeze (sql : List Char) :
    (tokenize (squeeze sql)).toOption =
      (tokenize sql).toOption.map (·.map Token.collapsed) := by
  have htokens : tokensFrom 0 (squeeze sql) = (tokensFrom 0 sql).map (·.map Token.collapsed) := by
    rw [squeeze, tokensFrom_trim, tokensFrom_collapse]
  have hoption (cs : List Char) : (tokenize cs).toOption = tokensFrom 0 cs := by
    rw [← scanFrom_toOption 0 0 cs]
    unfold tokenize scan
    cases scanFrom 0 0 cs <;> rfl
  rw [hoption, hoption, htokens]

theorem exists_tokens_of_squeeze {sql : List Char} {us : List Token}
    (h : tokenize (squeeze sql) = .ok us) :
    ∃ ts, tokenize sql = .ok ts ∧ ts.map Token.collapsed = us := by
  have heq := tokenize_squeeze sql
  rw [h] at heq
  cases hts : tokenize sql with
  | error fault =>
    rw [hts] at heq
    cases heq
  | ok ts =>
    rw [hts] at heq
    exact ⟨ts, rfl, (Option.some.inj heq).symm⟩

/-! ### What is read of tokens only -/

/-- A change of tokens that neither the nesting nor the keywords show. -/
structure Keeps (f : Token → Token) : Prop where
  keyword : ∀ t, (f t).keyword? = t.keyword?
  opens : ∀ t, f t = .lparen ↔ t = .lparen
  closes : ∀ t, f t = .rparen ↔ t = .rparen

theorem keeps_collapsed : Keeps Token.collapsed where
  keyword t := by cases t <;> rfl
  opens t := by cases t <;> simp [Token.collapsed]
  closes t := by cases t <;> simp [Token.collapsed]

section Keeps

variable {f : Token → Token} (hf : Keeps f)
include hf

theorem isKeyword_map (t : Token) (k : Keyword) : (f t).isKeyword k = t.isKeyword k := by
  rw [Token.isKeyword, Token.isKeyword, hf.keyword]

theorem isOneOf_map (t : Token) (ks : List Keyword) : (f t).isOneOf ks = t.isOneOf ks := by
  rw [Token.isOneOf, Token.isOneOf, funext (isKeyword_map hf t)]

theorem depthAt_map (depth : Int) (t : Token) : depthAt depth (f t) = depthAt depth t := by
  simp only [depthAt, hf.closes]

theorem depthChange_map (t : Token) : (f t).depthChange = t.depthChange := by
  have hopens := hf.opens t
  have hcloses := hf.closes t
  unfold Token.depthChange
  split <;> split <;> simp_all

theorem depthAfter_map (depth : Int) (t : Token) : depthAfter depth (f t) = depthAfter depth t := by
  rw [depthAfter, depthAfter, depthChange_map hf]

theorem blocksFrom_map (afterUnion : Bool) (depth : Int) (ts : List Token) :
    blocksFrom afterUnion depth (ts.map f) = (blocksFrom afterUnion depth ts).map (·.map f) := by
  induction ts generalizing afterUnion depth with
  | nil => rfl
  | cons t r ih =>
    simp only [List.map_cons, blocksFrom, isOneOf_map hf, isKeyword_map hf, depthAt_map hf,
      depthAfter_map hf, ih]
    split
    · rfl
    split
    · rfl
    · cases blocksFrom false (depthAfter depth t) r <;> rfl

theorem splitUnion_map (ts : List Token) :
    splitUnion (ts.map f) = (splitUnion ts).map (·.map (·.map f)) := by
  have hempty : ((blocksFrom false 0 ts).map (·.map f)).any List.isEmpty =
      (blocksFrom false 0 ts).any List.isEmpty := by
    simp [List.any_map, Function.comp_def]
  simp only [splitUnion, blocksFrom_map hf, hempty]
  split <;> rfl

/-- A section with its tokens changed. -/
def Section.map (f : Token → Token) (s : Section) : Section := ⟨s.clause, s.body.map f⟩

theorem clause?_map (t : Token) : (f t).clause? = t.clause? := by
  rw [Token.clause?, Token.clause?, hf.keyword]

theorem sectionsFrom_map (current : Clause) (depth : Int) (ts : List Token) :
    sectionsFrom current depth (ts.map f) =
      (sectionsFrom current depth ts).map fun p => (p.1.map f, p.2.map (Section.map f)) := by
  have opened {depth : Int} {t : Token} {c? : Option Clause}
      (hc : (if depthAt depth t = 0 then t.clause? else none) = c?) :
      (if depthAt depth (f t) = 0 then (f t).clause? else none) = c? := by
    rw [depthAt_map hf, clause?_map hf, hc]
  fun_induction sectionsFrom current depth ts with
  | case1 => rfl
  | case2 current depth t r hc fault hr ih =>
    rw [List.map_cons, sectionsFrom, opened hc, depthAfter_map hf]
    simp only [ih, hr, Except.map]
  | case3 current depth t r hc rest after hr ih =>
    rw [List.map_cons, sectionsFrom, opened hc, depthAfter_map hf]
    simp only [ih, hr, Except.map, List.map_cons]
  | case4 current depth t r next hc hrank =>
    simp only [List.map_cons, sectionsFrom, opened hc, if_pos hrank, Except.map]
  | case5 current depth t next hc hrank hby =>
    simp only [List.map_cons, List.map_nil, sectionsFrom, opened hc, if_neg hrank, if_pos hby,
      Except.map]
  | case6 current depth t next hc hrank hby b r hb fault hr ih =>
    simp only [List.map_cons, sectionsFrom, opened hc, if_neg hrank, if_pos hby,
      isKeyword_map hf, if_pos hb, ih, hr, Except.map]
  | case7 current depth t next hc hrank hby b r hb rest after hr ih =>
    simp only [List.map_cons, sectionsFrom, opened hc, if_neg hrank, if_pos hby,
      isKeyword_map hf, if_pos hb, ih, hr, Except.map]
    rfl
  | case8 current depth t next hc hrank hby b r hb =>
    simp only [List.map_cons, sectionsFrom, opened hc, if_neg hrank, if_pos hby,
      isKeyword_map hf, if_neg hb, Except.map]
  | case9 current depth t r next hc hrank hby fault hr ih =>
    simp only [List.map_cons, sectionsFrom, opened hc, if_neg hrank, if_neg hby, ih, hr,
      Except.map]
  | case10 current depth t r next hc hrank hby rest after hr ih =>
    simp only [List.map_cons, sectionsFrom, opened hc, if_neg hrank, if_neg hby, ih, hr,
      Except.map]
    rfl

theorem splitClauses_map (ts : List Token) :
    splitClauses (ts.map f) = (splitClauses ts).map (·.map (Section.map f)) := by
  cases ts with
  | nil => rfl
  | cons t r =>
    rw [List.map_cons, splitClauses, splitClauses, isKeyword_map hf, sectionsFrom_map hf]
    split
    · cases sectionsFrom .select 0 r <;> rfl
    · rfl

omit hf in
theorem body?_map (clause : Clause) (sections : List Section) :
    body? clause (sections.map (Section.map f)) = (body? clause sections).map (·.map f) := by
  rw [body?, body?, List.find?_map, Option.map_map, Option.map_map]
  rfl

omit hf in
theorem body_map (clause : Clause) (sections : List Section) :
    body clause (sections.map (Section.map f)) = (body clause sections).map f := by
  rw [body, body, body?_map]
  cases body? clause sections <;> rfl

end Keeps

end Sql

/-! ### Readings without a fault -/

namespace Scope

open Sql

theorem blocksOf_eq_ok_iff {sql : List Char} {ts : List Token} {blocks : List (List Section)} :
    blocksOf sql = .ok (ts, blocks) ↔ ∃ parts, tokenize sql = .ok ts ∧
      splitUnion ts = .ok parts ∧ parts.mapM splitClauses = .ok blocks := by
  constructor
  · intro h
    obtain ⟨us, hus, h⟩ := bind_eq_ok.mp h
    obtain ⟨parts, hparts, h⟩ := bind_eq_ok.mp h
    obtain ⟨clauses, hclauses, h⟩ := bind_eq_ok.mp h
    cases h
    exact ⟨parts, hus, hparts, hclauses⟩
  · rintro ⟨parts, hts, hparts, hclauses⟩
    simp only [blocksOf, hts, hparts, hclauses, bind, Except.bind, pure, Except.pure]

end Scope

namespace Guard

open Sql

theorem queriesOf_eq_ok {text : List Char} {queries : List Query}
    (h : queriesOf text = .ok queries) :
    ∃ us blocks, tokenize text = .ok us ∧ splitUnion us = .ok blocks ∧
      blocks.mapM Query.ofBlock = .ok queries := by
  unfold queriesOf at h
  split at h
  · cases h
  · split at h
    · cases h
    · exact ⟨_, _, by assumption, by assumption, h⟩

/-- What the guard has checked of a statement that it accepts. -/
theorem checks_of_accepts {a : AllowList} {sql : List Char} (h : accepts a sql = true) :
    checkShape (Text.squeeze sql) = .ok () ∧ checkKeywords a (Text.squeeze sql) = .ok () ∧
      ∃ queries, queriesOf (Text.squeeze sql) = .ok queries ∧ checkQueries a queries = .ok () := by
  unfold accepts at h
  split at h
  · rename_i hcheck
    obtain ⟨_, hshape, hcheck⟩ := bind_eq_ok.mp hcheck
    obtain ⟨_, hkeywords, hcheck⟩ := bind_eq_ok.mp hcheck
    obtain ⟨queries, hqueries, hchecked⟩ := bind_eq_ok.mp hcheck
    exact ⟨hshape, hkeywords, queries, hqueries, hchecked⟩
  · cases h

theorem tables_of_checkTables {a : AllowList} {queries : List Query}
    (h : checkTables a queries = .ok ()) {q : Query} (hq : q ∈ queries) :
    q.tables ≠ [] ∧ ∀ table ∈ q.tables, a.hasTable table = true := by
  unfold checkTables at h
  split at h
  · cases h
  · rename_i hany
    split at h
    · rename_i hallowed
      refine ⟨?_, ?_⟩
      · intro hnil
        exact hany (List.any_eq_true.mpr ⟨q, hq, by rw [hnil]; rfl⟩)
      · intro table htable
        have hmem : table ∈ queries.flatMap Query.tables := List.mem_flatMap.mpr ⟨q, hq, htable⟩
        simpa using List.filter_eq_nil_iff.mp hallowed table hmem
    · cases h

/-- What the guard has checked of the tables of a block. -/
theorem checked_tables {a : AllowList} {queries : List Query} (h : checkQueries a queries = .ok ())
    {q : Query} (hq : q ∈ queries) :
    q.tables ≠ [] ∧ (∀ table ∈ q.tables, a.hasTable table = true) ∧ checkJoins a q = .ok () := by
  obtain ⟨_, htables, h⟩ := bind_eq_ok.mp h
  obtain ⟨_, _, h⟩ := bind_eq_ok.mp h
  obtain ⟨_, hjoins, _⟩ := bind_eq_ok.mp h
  obtain ⟨hne, hallowed⟩ := tables_of_checkTables htables hq
  exact ⟨hne, hallowed, forM_eq_ok_iff.mp hjoins q hq⟩

theorem ofBlock_eq_ok {block : List Token} {q : Query} (h : Query.ofBlock block = .ok q) :
    (block.tail.any fun u => u.isKeyword .select) = false ∧
      ∃ sections, splitClauses block = .ok sections ∧ q.select = body .select sections ∧
        q.limit = body? .limit sections ∧
        ((q.source = none ∧ body .from_ sections = []) ∨
          ∃ source, q.source = some source ∧ sourceOf (body .from_ sections) = .ok source) := by
  unfold Query.ofBlock at h
  split at h
  · cases h
  · split at h
    · cases h
    split at h
    · cases h
    rename_i hnested
    split at h
    · cases h
    · rename_i sections hsections
      refine ⟨by simpa using hnested, sections, hsections, ?_⟩
      dsimp only at h
      split at h
      · cases h
        exact ⟨rfl, rfl, Or.inl ⟨rfl, by assumption⟩⟩
      · split at h
        · cases h
        · cases h
          exact ⟨rfl, rfl, Or.inr ⟨_, rfl, by assumption⟩⟩

/-- Of every block that the scope check reads in a statement that the guard accepts, the guard has
read the tables: they are allowed, and so are the conditions of their joins. -/
theorem source_of_accepts {a : AllowList} {sql : List Char} (haccepted : accepts a sql = true)
    {ts : List Token} {blocks : List (List Section)} (hblocks : Scope.blocksOf sql = .ok (ts, blocks))
    {sections : List Section} (hsections : sections ∈ blocks) :
    ∃ (q : Query) (source : Source), q.source = some source ∧
      sourceOf ((body .from_ sections).map Token.collapsed) = .ok source ∧
      (∀ ref ∈ source.refs, a.hasTable ref.table = true) ∧
      ∀ join ∈ source.joins, checkJoin a q join = .ok () := by
  obtain ⟨_, _, queries, hqueries, hchecked⟩ := checks_of_accepts haccepted
  obtain ⟨us, guarded, hus, hguarded, hqueries⟩ := queriesOf_eq_ok hqueries
  obtain ⟨parts, hts, hparts, hclauses⟩ := Scope.blocksOf_eq_ok_iff.mp hblocks
  obtain ⟨part, hpart, hsplit⟩ := (mem_of_mapM hclauses).2 sections hsections
  obtain ⟨ts', hts', rfl⟩ := exists_tokens_of_squeeze hus
  rw [hts] at hts'
  cases hts'
  rw [splitUnion_map keeps_collapsed, hparts] at hguarded
  cases hguarded
  obtain ⟨q, hq, hblock⟩ := (mem_of_mapM hqueries).1 _ (List.mem_map_of_mem hpart)
  obtain ⟨hne, hallowed, hjoins⟩ := checked_tables hchecked hq
  obtain ⟨_, mapped, hmapped, _, _, hsource⟩ := ofBlock_eq_ok hblock
  rw [splitClauses_map keeps_collapsed, hsplit] at hmapped
  cases hmapped
  rw [body_map] at hsource
  rcases hsource with ⟨hnone, _⟩ | ⟨source, hsource, hread⟩
  · exact absurd (by simp [Query.tables, Query.refs, hnone]) hne
  · refine ⟨q, source, hsource, hread, ?_, ?_⟩
    · intro ref href
      refine hallowed ref.table ?_
      simp only [Query.tables, Query.refs, hsource, Option.map_some, Option.getD_some]
      exact List.mem_map_of_mem href
    · intro join hjoin
      refine forM_eq_ok_iff.mp hjoins join ?_
      simpa [Query.joins, hsource] using hjoin

end Guard
end QueryGate
