import Mathlib.Data.List.Forall2
import QueryGate.Policy.Shipped
import QueryGate.Proofs.Guard.Acceptance
import QueryGate.Proofs.Guard.Listing
import QueryGate.Proofs.Scope.Uses
import QueryGate.Proofs.Text.Case

/-!
# Both checks read one statement

A statement that the guard accepts can be read as it is, with the blocks and the clauses that the
guard has found.  The names under which the scope check knows the first table of a block stand for
that table in the guard's reading as well.
-/

namespace QueryGate

namespace Sql

open Text

/-! ### Names in the collapsed text -/

def collapsedText (s : String) : String := String.ofList (collapse s.toList)

theorem inner_collapsed {c : Char} {r : List Char} {t : Token} (h : firstToken? c r = some t) :
    t.collapsed.inner = collapse t.inner := by
  have hwritten := collapse_written h []
  rw [collapse_nil, List.append_nil, List.append_nil] at hwritten
  cases t with
  | quotedName name => rfl
  | _ => exact hwritten.symm

theorem name_of_collapsed {c : Char} {r : List Char} {t : Token} (h : firstToken? c r = some t) :
    t.collapsed.name = collapsedText t.name := by
  rw [Token.name, Token.name, collapsedText, inner_collapsed h, lower_collapse,
    String.toList_ofList]

/-- Every name of a text is collapsed with the text. -/
theorem name_of_tokenize {cs : List Char} {ts : List Token} (h : tokenize cs = .ok ts) {t : Token}
    (ht : t ∈ ts) : t.collapsed.name = collapsedText t.name := by
  obtain ⟨c, r, hfirst⟩ := firstToken?_of_mem (tokenize_eq_ok_iff.mp h) ht
  exact name_of_collapsed hfirst

end Sql

/-! ### Runs over two lists -/

section Runs

variable {ε α β γ : Type} {f : α → Except ε β}

theorem forall₂_of_mapM {xs : List α} {ys : List β} (h : xs.mapM f = .ok ys) :
    List.Forall₂ (fun x y => f x = .ok y) xs ys := by
  induction xs generalizing ys with
  | nil =>
    cases h
    exact .nil
  | cons x xs ih =>
    rw [List.mapM_cons] at h
    obtain ⟨y, hx, h⟩ := bind_eq_ok.mp h
    obtain ⟨more, hxs, h⟩ := bind_eq_ok.mp h
    cases h
    exact .cons hx (ih hxs)

theorem exists_of_forall₂ {R : α → β → Prop} {xs : List α} {ys : List β}
    (h : List.Forall₂ R xs ys) {x : α} (hx : x ∈ xs) : ∃ y ∈ ys, R x y := by
  induction h with
  | nil => cases hx
  | cons hxy _ ih =>
    rcases List.mem_cons.mp hx with rfl | hx
    · exact ⟨_, List.mem_cons_self, hxy⟩
    · obtain ⟨y, hy, hR⟩ := ih hx
      exact ⟨y, List.mem_cons_of_mem _ hy, hR⟩

theorem mapM_of_forall₂ {R : β → γ → Prop} {xs : List α} {zs : List γ}
    (h : List.Forall₂ (fun x z => ∃ y, f x = .ok y ∧ R y z) xs zs) :
    ∃ ys, xs.mapM f = .ok ys ∧ List.Forall₂ R ys zs := by
  induction h with
  | nil => exact ⟨[], rfl, .nil⟩
  | cons hx _ ih =>
    obtain ⟨y, hx, hR⟩ := hx
    obtain ⟨ys, hxs, hRs⟩ := ih
    refine ⟨y :: ys, ?_, .cons hR hRs⟩
    rw [List.mapM_cons, hx, hxs]
    rfl

end Runs

namespace Scope

open Sql Guard

/-! ### The first table of a block -/

/-- The names that the scope check gives to the first table are names that it is listed under. -/
theorem mem_firstNames {l : Listing} {n : String} (h : n ∈ firstNames l.tokens) :
    n = l.first.tableName ∨ l.first.naming.alias? = some n := by
  obtain ⟨⟨table, naming⟩, joins⟩ := l
  have htable := isIdentifier_of_plain table
  have hends := endsTable_joins joins
  simp only [Listing.tokens, Entry.tokens] at h
  cases naming with
  | own =>
    left
    cases hjoins : joins.flatMap Joined.tokens with
    | nil => simpa [Naming.tokens, hjoins, firstNames, htable, Entry.tableName] using h
    | cons w rest =>
      obtain ⟨hreserved, has⟩ := hends w rest hjoins
      simpa [Naming.tokens, hjoins, firstNames, htable, has, Token.isPlainIdentifier, hreserved,
        Entry.tableName] using h
  | plain m =>
    have has : m.1.isKeyword .as_ = false := not_isKeyword_of_plain m rfl
    simpa [Naming.tokens, firstNames, htable, has, m.2, Entry.tableName, Naming.alias?, eq_comm]
      using h
  | as_ w m =>
    simp only [Naming.tokens, List.cons_append, List.nil_append, firstNames, htable, w.2,
      ↓reduceIte] at h
    split at h
    · simpa [Entry.tableName, Naming.alias?, eq_comm] using h
    · exact Or.inl (List.mem_singleton.mp h)

theorem tableNamed?_first {q : Query} {source : Source} (hq : q.source = some source) {n : String}
    (hn : source.first.isNamed n = true) : q.tableNamed? n = some source.first.table := by
  simp [Query.tableNamed?, Query.refs, hq, Source.refs, tableNamed?, hn]

/-- In the collapsed text the names of a table are collapsed as well. -/
theorem isNamed_collapsed {e : Entry} (h : ∀ t ∈ e.tokens, t.collapsed.name = collapsedText t.name)
    {n : String} (hn : n = e.tableName ∨ e.naming.alias? = some n) :
    e.collapsed.ref.isNamed (collapsedText n) = true := by
  obtain ⟨table, naming⟩ := e
  have htable := h table.1 List.mem_cons_self
  simp only [TableRef.isNamed, Bool.or_eq_true, beq_iff_eq]
  rcases hn with rfl | hn
  · exact Or.inl htable
  · right
    cases naming with
    | own => cases hn
    | plain m =>
      cases hn
      exact congrArg some (h m.1 (by simp [Entry.tokens, Naming.tokens]))
    | as_ w m =>
      cases hn
      exact congrArg some (h m.1 (by simp [Entry.tokens, Naming.tokens]))

/-! ### The statement as a whole -/

/-- What the guard has read of a block of which the scope check reads the given clauses. -/
structure ReadsAlike (sections : List Section) (q : Query) : Prop where
  select : q.select = (body .select sections).map Token.collapsed
  limit : q.limit = (body? .limit sections).map (·.map Token.collapsed)
  source : ∃ source, q.source = some source ∧
    sourceOf ((body .from_ sections).map Token.collapsed) = .ok source ∧
    ∀ n ∈ firstNames (body .from_ sections),
      q.tableNamed? (collapsedText n) = some source.first.table

theorem readsAlike_of_ofBlock {a : AllowList} {part : List Token} {q : Query}
    (hnames : ∀ t ∈ part, t.collapsed.name = collapsedText t.name)
    (hblock : Query.ofBlock (part.map Token.collapsed) = .ok q) (htables : q.tables ≠ [])
    (hjoins : checkJoins a q = .ok ()) :
    ∃ sections, splitClauses part = .ok sections ∧ ReadsAlike sections q := by
  obtain ⟨_, mapped, hmapped, hselect, hlimit, hfrom⟩ := ofBlock_eq_ok hblock
  rw [splitClauses_map keeps_collapsed] at hmapped
  cases hsplit : splitClauses part with
  | error fault =>
    rw [hsplit] at hmapped
    cases hmapped
  | ok sections =>
    rw [hsplit] at hmapped
    cases hmapped
    rw [body_map] at hselect hfrom
    rw [body?_map] at hlimit
    refine ⟨sections, rfl, hselect, hlimit, ?_⟩
    rcases hfrom with ⟨hnone, _⟩ | ⟨source, hsource, hread⟩
    · exact absurd (by simp [Query.tables, Query.refs, hnone]) htables
    · have hchecked : ∀ join ∈ source.joins, checkJoin a q join = .ok () := by
        intro join hjoin
        apply forM_eq_ok_iff.mp hjoins
        simpa [Query.joins, hsource] using hjoin
      obtain ⟨l, hl⟩ := listing_of_sourceOf keepsNames_collapsed hread hchecked
      refine ⟨source, hsource, hread, ?_⟩
      intro n hn
      apply tableNamed?_first hsource
      rw [hl, ← tokens_collapsed] at hread
      rw [sourceOf_listing hread]
      rw [hl] at hn
      apply isNamed_collapsed _ (mem_firstNames hn)
      intro t ht
      have hfrom : body .from_ sections <:+: part := body_isInfix hsplit
      apply hnames
      apply hfrom.subset
      rw [hl, Listing.tokens]
      exact List.mem_append_left _ ht

/-- A statement that the guard accepts can be read as it is, and block by block the guard has read
the same. -/
theorem blocks_of_accepts {a : AllowList} {sql : List Char} (haccepted : accepts a sql = true) :
    ∃ ts parts blocks queries, tokenize sql = .ok ts ∧ splitUnion ts = .ok parts ∧
      parts.mapM splitClauses = .ok blocks ∧ queriesOf (Text.squeeze sql) = .ok queries ∧
      List.Forall₂ ReadsAlike blocks queries ∧
      (queries.getLast?.bind Query.limit).isSome = true ∧ ∀ q ∈ queries, IsAllowed a q := by
  obtain ⟨_, _, queries, hqueries, hchecked⟩ := checks_of_accepts haccepted
  obtain ⟨us, guarded, hus, hguarded, hblocks⟩ := queriesOf_eq_ok hqueries
  obtain ⟨ts, hts, rfl⟩ := exists_tokens_of_squeeze hus
  rw [splitUnion_map keeps_collapsed] at hguarded
  cases hparts : splitUnion ts with
  | error fault =>
    rw [hparts] at hguarded
    cases hguarded
  | ok parts =>
    rw [hparts] at hguarded
    cases hguarded
    have hpairs := List.forall₂_iff_zip.mp
      (List.forall₂_map_left_iff.mp (forall₂_of_mapM hblocks))
    have hread : List.Forall₂ (fun part q => ∃ sections, splitClauses part = .ok sections ∧
        ReadsAlike sections q) parts queries := by
      refine List.forall₂_iff_zip.mpr ⟨hpairs.1, ?_⟩
      intro part q hpair
      obtain ⟨hpart, hq⟩ := List.of_mem_zip hpair
      obtain ⟨htables, _, hjoins⟩ := checked_tables hchecked hq
      refine readsAlike_of_ofBlock ?_ (hpairs.2 hpair) htables hjoins
      intro t ht
      exact name_of_tokenize hts ((isInfix_of_splitUnion hparts hpart).subset ht)
    obtain ⟨blocks, hsplit, halike⟩ := mapM_of_forall₂ hread
    exact ⟨ts, parts, blocks, queries, hts, hparts, hsplit, hqueries, halike,
      checkQueries_eq_ok_iff.mp hchecked⟩

theorem exists_blocksOf {a : AllowList} {sql : List Char} (haccepted : accepts a sql = true) :
    ∃ ts blocks, tokenize sql = .ok ts ∧ blocksOf sql = .ok (ts, blocks) := by
  obtain ⟨ts, parts, blocks, _, hts, hparts, hsplit, _⟩ := blocks_of_accepts haccepted
  exact ⟨ts, blocks, hts, blocksOf_eq_ok_iff.mpr ⟨parts, hts, hparts, hsplit⟩⟩

/-- The guard can read a statement just when the scope check can, and it finds the same tokens up to
the blanks inside quotes.  Of a statement that it accepts, both find the same blocks and clauses,
and every name under which the scope check knows the first table of a block is one that stands for
this table in the guard's reading. -/
theorem reads_same_statement (a : AllowList) (sql : List Char) :
    (tokenize (Text.squeeze sql)).toOption =
        (tokenize sql).toOption.map (·.map Token.collapsed) ∧
      (accepts a sql = true → ∃ ts parts blocks queries,
        tokenize sql = .ok ts ∧ splitUnion ts = .ok parts ∧
        parts.mapM splitClauses = .ok blocks ∧
        splitUnion (ts.map Token.collapsed) = .ok (parts.map (·.map Token.collapsed)) ∧
        (parts.map (·.map Token.collapsed)).mapM splitClauses =
          .ok (blocks.map (·.map (Section.map Token.collapsed))) ∧
        queriesOf (Text.squeeze sql) = .ok queries ∧
        List.Forall₂ ReadsAlike blocks queries) := by
  refine ⟨tokenize_squeeze sql, ?_⟩
  intro haccepted
  obtain ⟨ts, parts, blocks, queries, hts, hparts, hsplit, hqueries, halike, _⟩ :=
    blocks_of_accepts haccepted
  refine ⟨ts, parts, blocks, queries, hts, hparts, hsplit, ?_, ?_, hqueries, halike⟩
  · rw [splitUnion_map keeps_collapsed, hparts]
    rfl
  · rw [mapM_map (splitClauses_map keeps_collapsed), hsplit]
    rfl

/-- A statement with runs of blanks, between words and in a quoted name. -/
def wideAliasText : List Char :=
  "SELECT  id FROM\ndaily_check AS \x60Open  Check\x60  LIMIT 5 ".toList

theorem reads_same_wide_alias :
    accepts Policy.shipped wideAliasText = true ∧ ∃ ts parts blocks queries,
      tokenize wideAliasText = .ok ts ∧ splitUnion ts = .ok parts ∧
      parts.mapM splitClauses = .ok blocks ∧
      queriesOf (Text.squeeze wideAliasText) = .ok queries ∧
      List.Forall₂ ReadsAlike blocks queries := by
  have haccepted : accepts Policy.shipped wideAliasText = true := by decide +kernel
  obtain ⟨ts, parts, blocks, queries, hts, hparts, hsplit, _, _, hqueries, halike⟩ :=
    (reads_same_statement Policy.shipped wideAliasText).2 haccepted
  exact ⟨haccepted, ts, parts, blocks, queries, hts, hparts, hsplit, hqueries, halike⟩

end Scope
end QueryGate
