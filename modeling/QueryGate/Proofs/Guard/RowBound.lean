import QueryGate.Proofs.Guard.Acceptance
import QueryGate.Proofs.Guard.Fragment
import QueryGate.Proofs.Scope.SameStatement
import QueryGate.Proofs.Sql.LastClause

/-!
# The bound on the number of rows

The last block of an accepted statement ends in a limit, and every limit of the statement is within
the bound.  Of a limit that consists of digits only their number and their value count: no other
check of the guard looks at them.
-/

namespace QueryGate

section Related

variable {α β : Type} {R : α → β → Prop}

theorem concat_of_forall₂ {xs : List α} {ys : List β} {y : β}
    (h : List.Forall₂ R xs (ys ++ [y])) : ∃ front x, xs = front ++ [x] ∧ R x y := by
  have hreversed := List.forall₂_reverse_iff.mpr h
  rw [List.reverse_concat] at hreversed
  obtain ⟨x, front, hxy, _, hx⟩ := List.forall₂_cons_right_iff.mp hreversed
  refine ⟨front.reverse, x, ?_, hxy⟩
  rw [← List.reverse_reverse xs, hx, List.reverse_cons]

end Related

namespace Sql

/-- Digits of a number. -/
abbrev Numeral := { ds : List Char // Text.isDigits ds = true }

/-- The number that a numeral writes. -/
def Numeral.value (n : Numeral) : Nat := Text.digitsValue n.1

/-- What a limit holds: a number of rows, alone, behind an offset, or in front of one. -/
inductive RowLimit where
  | rows (n : Numeral)
  | offsetComma (offset n : Numeral)
  | offsetWord (n : Numeral) (w : Word .offset) (offset : Numeral)

namespace RowLimit

/-- The tokens of a limit. -/
def tokens : RowLimit → List Token
  | rows n => [.number n.1]
  | offsetComma offset n => [.number offset.1, .comma, .number n.1]
  | offsetWord n w offset => [.number n.1, w.1, .number offset.1]

/-- The largest number of rows. -/
def count : RowLimit → Nat
  | rows n | offsetComma _ n | offsetWord n _ _ => n.value

end RowLimit
end Sql

namespace Guard

open Sql Text

/-! ### Limits of accepted statements -/

theorem numeral_of_rowCount? {t : Token} {n : Nat} (h : rowCount? t = some n) :
    ∃ d : Numeral, t = .number d.1 ∧ d.value = n := by
  cases t with
  | number digits =>
    rw [rowCount?] at h
    split at h
    · rename_i hdigits
      rw [Bool.and_eq_true] at hdigits
      exact ⟨⟨digits, hdigits.1⟩, rfl, Option.some.inj h⟩
    · cases h
  | _ => cases h

theorem rowLimit_of_limitRows? {limit : List Token} {n : Nat} (h : limitRows? limit = some n) :
    ∃ r : RowLimit, limit = r.tokens ∧ r.count = n := by
  unfold limitRows? at h
  split at h
  · obtain ⟨d, rfl, hd⟩ := numeral_of_rowCount? h
    exact ⟨.rows d, rfl, hd⟩
  · split at h
    · rename_i first second hfirst hsecond
      obtain ⟨m, rfl, hm⟩ := numeral_of_rowCount? hfirst
      obtain ⟨n, rfl, hn⟩ := numeral_of_rowCount? hsecond
      split at h
      · rename_i hcomma
        cases h
        exact ⟨.offsetComma m n, by rw [hcomma]; rfl, hn⟩
      · split at h
        · rename_i hoffset
          cases h
          exact ⟨.offsetWord m ⟨_, hoffset⟩ n, rfl, hm⟩
        · cases h
    · cases h
  · cases h

theorem rowCount?_collapsed (t : Token) : rowCount? t.collapsed = rowCount? t := by
  cases t <;> rfl

theorem limitRows?_collapsed (limit : List Token) :
    limitRows? (limit.map Token.collapsed) = limitRows? limit := by
  have hcomma (t : Token) : t.collapsed = .comma ↔ t = .comma := by
    cases t <;> simp [Token.collapsed]
  rcases limit with _ | ⟨m, _ | ⟨between, _ | ⟨n, _ | ⟨u, more⟩⟩⟩⟩
  · rfl
  · exact rowCount?_collapsed m
  · rfl
  · simp only [List.map_cons, List.map_nil, limitRows?, rowCount?_collapsed, hcomma,
      isKeyword_collapsed]
  · rfl

/-- Whether a limit can be read and is within the bound. -/
def isBounded (a : AllowList) (limit : List Token) : Prop :=
  ∃ r : RowLimit, limit = r.tokens ∧ (r.count : Int) ≤ a.maxLimit

theorem isBounded_of_limitRows? {a : AllowList} {limit : List Token} {n : Nat}
    (h : limitRows? limit = some n) (hn : (n : Int) ≤ a.maxLimit) : isBounded a limit := by
  obtain ⟨r, hr, rfl⟩ := rowLimit_of_limitRows? h
  exact ⟨r, hr, hn⟩

/-- Of every block of an accepted statement the limit is bounded, if it has one, and the last block
has one: the statement ends in it. -/
theorem limits_of_accepts {a : AllowList} {sql : List Char} (haccepted : accepts a sql = true) :
    ∃ ts blocks, Scope.blocksOf sql = .ok (ts, blocks) ∧
      (∀ sections ∈ blocks, ∀ limit, body? .limit sections = some limit → isBounded a limit) ∧
      ∃ (front : List Token) (l : Word .limit) (limit : List Token),
        ts = front ++ l.1 :: limit ∧ depthThrough? 0 front = some 0 ∧ isBounded a limit := by
  obtain ⟨ts, parts, blocks, queries, hts, hparts, hsplit, _, halike, hlast, hallowed⟩ :=
    Scope.blocks_of_accepts haccepted
  have hbounded {sections : List Section} {q : Query} (hq : q ∈ queries)
      (hsections : Scope.ReadsAlike sections q) {limit : List Token}
      (hlimit : body? .limit sections = some limit) : isBounded a limit := by
    have hcollapsed : q.limit = some (limit.map Token.collapsed) := by
      rw [hsections.limit, hlimit]
      rfl
    obtain ⟨n, hn, hle⟩ := (hallowed q hq).rows _ hcollapsed
    rw [limitRows?_collapsed] at hn
    exact isBounded_of_limitRows? hn hle
  refine ⟨ts, blocks, Scope.blocksOf_eq_ok_iff.mpr ⟨parts, hts, hparts, hsplit⟩, ?_, ?_⟩
  · intro sections hsections limit hlimit
    obtain ⟨q, hq, hsame⟩ := exists_of_forall₂ halike hsections
    exact hbounded hq hsame hlimit
  · obtain ⟨q, hq⟩ : ∃ q, queries.getLast? = some q := by
      cases hq : queries.getLast? with
      | none =>
        rw [hq] at hlast
        cases hlast
      | some q => exact ⟨q, rfl⟩
    obtain ⟨earlier, rfl⟩ := List.getLast?_eq_some_iff.mp hq
    obtain ⟨front, sections, rfl, hsame⟩ := concat_of_forall₂ halike
    obtain ⟨init, last, rfl, hlastSplit⟩ := concat_of_forall₂ (forall₂_of_mapM hsplit)
    obtain ⟨limit, hlimit⟩ : ∃ limit, body? .limit sections = some limit := by
      cases hlimit : body? .limit sections with
      | none =>
        rw [hq, Option.bind_some, hsame.limit, hlimit] at hlast
        cases hlast
      | some limit => exact ⟨limit, rfl⟩
    have hclosed := depthThrough?_of_tokensFrom (tokenize_eq_ok_iff.mp hts)
    obtain ⟨before, rfl, hbefore, hlastClosed⟩ :=
      last_closed (splitUnion_eq_ok_iff.mp hparts).1 hclosed
    obtain ⟨inside, l, rfl, hinside⟩ :=
      limit_of_splitClauses hlastSplit (by rw [hlastClosed]; rfl) hlimit
    refine ⟨before ++ inside, l, limit, (List.append_assoc _ _ _).symm, ?_, ?_⟩
    · rw [depthThrough?_append, hbefore]
      exact hinside
    · exact hbounded (by simp) hsame hlimit

/-! ### A limit behind a statement -/

section Append

variable (l : Word .limit) (digits : List Char)

theorem body?_append_limit {sections : List Section} (h : hasClause .limit sections = false)
    (rows : List Token) (c : Clause) :
    body? c (sections ++ [⟨.limit, rows⟩]) =
      if c = .limit then some rows else body? c sections := by
  have hnone : body? .limit sections = none := by
    rwa [← isSome_body?, Option.isSome_eq_false_iff, Option.isNone_iff_eq_none] at h
  rw [body?, List.find?_append, Option.map_or]
  by_cases hc : c = .limit
  · subst hc
    rw [if_pos rfl, ← body?, hnone]
    rfl
  · have hne : (Clause.limit == c) = false := beq_false_of_ne (Ne.symm hc)
    rw [if_neg hc]
    simp [body?, hne]

/-- A limit behind a block is the limit of the block, which had none. -/
theorem ofBlock_append_limit {block : List Token} (hclosed : depthThrough? 0 block = some 0)
    {q : Query} :
    Query.ofBlock (block ++ [l.1, .number digits]) = .ok q ↔
      ∃ p, Query.ofBlock block = .ok p ∧ p.limit = none ∧
        q = { p with limit := some [.number digits] } := by
  have hrows : sectionsFrom .limit 0 [.number digits] = .ok ([.number digits], []) := rfl
  have hnested : ((block ++ [l.1, .number digits]).tail.any fun u => u.isKeyword .select) =
      block.tail.any fun u => u.isKeyword .select := by
    have hl : l.1.isKeyword .select = false := by
      simp [Token.isKeyword, keyword?_of_isKeyword l.2]
    cases block with
    | nil => rfl
    | cons t r =>
      have hnumber : (Token.number digits).isKeyword .select = false := rfl
      simp [hl, hnumber]
  have hsplit := splitClauses_append_limit l hrows hclosed
  constructor
  · intro h
    obtain ⟨hselects, sections, hsections, hselect, hlimit, hfrom⟩ := ofBlock_eq_ok_iff.mp h
    rw [hnested] at hselects
    rw [hsplit] at hsections
    split at hsections
    · cases hsections
    rename_i sections hread
    split at hsections
    · cases hsections
    rename_i hnone
    rw [Bool.not_eq_true] at hnone
    cases hsections
    have hput := body?_append_limit hnone [.number digits]
    simp only [body, hput, reduceCtorEq, ↓reduceIte] at hselect hlimit hfrom
    have hbefore : body? .limit sections = none := by
      rwa [← isSome_body?, Option.isSome_eq_false_iff, Option.isNone_iff_eq_none] at hnone
    refine ⟨{ q with limit := none }, ofBlock_eq_ok_iff.mpr ?_, rfl, by rw [← hlimit]⟩
    exact ⟨hselects, sections, hread, hselect, hbefore.symm, hfrom⟩
  · rintro ⟨p, hp, hnone, rfl⟩
    obtain ⟨hselects, sections, hsections, hselect, hlimit, hfrom⟩ := ofBlock_eq_ok_iff.mp hp
    have hwithout : hasClause .limit sections = false := by
      rw [← isSome_body?, ← hlimit, hnone]
      rfl
    have hput := body?_append_limit hwithout [.number digits]
    refine ofBlock_eq_ok_iff.mpr ⟨hnested.trans hselects,
      sections ++ [⟨.limit, [.number digits]⟩], ?_, ?_, ?_, ?_⟩
    · rw [hsplit, hsections]
      simp [hwithout]
    · simpa [body, hput] using hselect
    · simp [hput]
    · simpa [body, hput] using hfrom

/-- A limit behind a statement is the limit of the last block, which had none. -/
theorem readsAs_append_limit {ts : List Token} (hclosed : depthThrough? 0 ts = some 0)
    {queries : List Query} :
    readsAs (ts ++ [l.1, .number digits]) queries ↔
      ∃ init p, readsAs ts (init ++ [p]) ∧ p.limit = none ∧
        queries = init ++ [{ p with limit := some [.number digits] }] := by
  obtain ⟨front, last, hblocks⟩ : ∃ front last, blocksFrom false 0 ts = front ++ [last] :=
    ⟨_, _, (List.dropLast_concat_getLast (blocksFrom_ne_nil false 0 ts)).symm⟩
  have happend : blocksFrom false 0 (ts ++ [l.1, .number digits]) =
      front ++ [last ++ [l.1, .number digits]] := by
    have hkey := keyword?_of_isKeyword l.2
    have hlimit : inBlock l.1 = true := inBlock_of_isKeyword l.2 (by decide)
    have hnumber : inBlock (.number digits) = true := rfl
    have hback : [l.1, .number digits].all inBlock = true := by
      rw [List.all_cons, List.all_cons, hlimit, hnumber]
      rfl
    refine blocksFrom_append hback ?_ hblocks
    intro t ht
    obtain rfl : l.1 = t := Option.some.inj ht
    simp [Token.isOneOf, Token.isKeyword, hkey]
  obtain ⟨_, _, _, hlast⟩ := last_closed hblocks hclosed
  have hput {q : Query} := ofBlock_append_limit l digits hlast (q := q)
  constructor
  · rintro ⟨parts, hparts, hqueries⟩
    obtain ⟨rfl, hne⟩ := splitUnion_eq_ok_iff.mp hparts
    rw [happend] at hqueries hne
    obtain ⟨init, q, hinit, hq, rfl⟩ := mapM_concat_eq_ok_iff.mp hqueries
    obtain ⟨p, hp, hnone, rfl⟩ := hput.mp hq
    have hlastNe : last ≠ [] := by
      rintro rfl
      cases hp
    refine ⟨init, p, ⟨front ++ [last], splitUnion_eq_ok_iff.mpr ⟨hblocks, ?_⟩, ?_⟩, hnone, rfl⟩
    · simp only [List.mem_append, List.mem_singleton, not_or] at hne ⊢
      exact ⟨hne.1, Ne.symm hlastNe⟩
    · exact mapM_concat_eq_ok_iff.mpr ⟨init, p, hinit, hp, rfl⟩
  · rintro ⟨init, p, ⟨parts, hparts, hqueries⟩, hnone, rfl⟩
    obtain ⟨rfl, hne⟩ := splitUnion_eq_ok_iff.mp hparts
    rw [hblocks] at hqueries hne
    obtain ⟨zs, z, hzs, hz, hconcat⟩ := mapM_concat_eq_ok_iff.mp hqueries
    obtain ⟨rfl, hpz⟩ := List.append_inj' hconcat rfl
    obtain rfl : p = z := by simpa using hpz
    refine ⟨front ++ [last ++ [l.1, .number digits]],
      splitUnion_eq_ok_iff.mpr ⟨happend, ?_⟩, ?_⟩
    · simp only [List.mem_append, not_or] at hne ⊢
      exact ⟨hne.1, by simp⟩
    · exact mapM_concat_eq_ok_iff.mpr ⟨init, _, hzs, hput.mpr ⟨p, hz, hnone, rfl⟩, rfl⟩

end Append

/-! ### Digits behind a statement -/

/-- A statement with its blanks collapsed, and the word `LIMIT` behind it. -/
def opening (s : List Char) : List Char :=
  trimLeft (collapse (s ++ [' '])) ++ ['L', 'I', 'M', 'I', 'T', ' ']

theorem limitText_eq (s ds : List Char) :
    s ++ " LIMIT ".toList ++ ds = (s ++ [' ']) ++ 'L' :: (['I', 'M', 'I', 'T'] ++ ' ' :: ds) := by
  simp

section Digits

variable {ds : List Char} (hds : ∀ c ∈ ds, isAsciiDigit c = true) (hne : ds ≠ [])
include hds hne

theorem squeeze_limit (s : List Char) : squeeze (s ++ " LIMIT ".toList ++ ds) = opening s ++ ds := by
  have hblank : ∀ c ∈ ds, isBlank c = false := fun c hc => not_isBlank_of_isAsciiDigit (hds c hc)
  have hstart : startsBlank ds = false := by
    obtain ⟨d, r, rfl⟩ := List.exists_cons_of_ne_nil hne
    exact hblank d List.mem_cons_self
  have hword : ∀ c ∈ ['I', 'M', 'I', 'T'], isBlank c = false := eq_false_of_all (by decide)
  have htail : collapse (['I', 'M', 'I', 'T'] ++ ' ' :: ds) = ['I', 'M', 'I', 'T'] ++ ' ' :: ds := by
    rw [collapse_append hword, collapse_of_isBlank (by decide), hstart, collapse_of_no_blank hblank]
    rfl
  obtain ⟨front, last, rfl⟩ : ∃ front last, ds = front ++ [last] :=
    ⟨_, _, (List.dropLast_concat_getLast hne).symm⟩
  have hlast : isBlank last = false := hblank last (by simp)
  rw [squeeze, trim, limitText_eq, collapse_append_cons (by decide), htail,
    trimLeft_append_cons (by decide)]
  have hend (a : List Char) : trimRight (a ++ front ++ [last]) = a ++ front ++ [last] :=
    trimRight_concat hlast (a ++ front)
  have hwhole := hend (opening s)
  simpa [opening] using hwhole

/-- Digits belong to nothing that is searched for. -/
theorem containsText_append_digits {part : List Char} (hpart : part ≠ [])
    (hnone : ∀ k ∈ part, isAsciiDigit k = false) (cs : List Char) :
    containsText part (cs ++ ds) = containsText part cs := by
  obtain ⟨k, more, rfl⟩ := List.exists_cons_of_ne_nil hpart
  obtain ⟨d, r, rfl⟩ := List.exists_cons_of_ne_nil hne
  have absent {c : Char} (hc : c ∈ d :: r) : c ∉ k :: more := by
    intro hmem
    have hdigit := hds c hc
    rw [hnone c hmem] at hdigit
    cases hdigit
  have hrest : containsText (k :: more) r = false :=
    containsText_of_not_mem List.mem_cons_self fun hk =>
      absent (List.mem_cons_of_mem d hk) List.mem_cons_self
  rw [containsText_append_cons (absent List.mem_cons_self) hpart, hrest, Bool.or_false]

theorem isPrefixOf_upper_append_digits {part : List Char}
    (hnone : ∀ k ∈ part, isAsciiDigit k = false) (cs : List Char) :
    part.isPrefixOf (upper (cs ++ ds)) = part.isPrefixOf (upper cs) := by
  obtain ⟨d, r, rfl⟩ := List.exists_cons_of_ne_nil hne
  have hd : isAsciiDigit d = true := hds d List.mem_cons_self
  have hsmall : d.toNat < 128 := by
    have := (isAsciiDigit_iff d).mp hd
    omega
  have hupper : d.toUpper = d :=
    forall_ascii (p := fun c => isAsciiDigit c = true → c.toUpper = c) (by decide) hsmall hd
  have hsplit : upper (cs ++ d :: r) = upper cs ++ d :: upper r := by
    rw [upper, List.flatMap_append, List.flatMap_cons, upperChar, if_pos hsmall, hupper]
    rfl
  rw [hsplit]
  apply isPrefixOf_append_cons
  intro hmem
  rw [hnone d hmem] at hd
  cases hd

theorem checkShape_append_digits {cs : List Char} :
    checkShape (cs ++ ds) = .ok () ↔ "SELECT ".toList.isPrefixOf (upper cs) = true ∧
      ∀ part ∈ terminators, containsText part.toList cs = false := by
  have hselect : ∀ k ∈ "SELECT ".toList, isAsciiDigit k = false := eq_false_of_all (by decide)
  have hparts : ∀ part ∈ terminators,
      part.toList ≠ [] ∧ part.toList.all (!isAsciiDigit ·) = true := by
    decide
  have hnonempty : cs ++ ds ≠ [] := by simp [hne]
  rw [checkShape_eq_ok_iff, isPrefixOf_upper_append_digits hds hne hselect,
    and_iff_right hnonempty]
  refine and_congr_right fun _ => forall₂_congr fun part hpart => ?_
  rw [containsText_append_digits hds hne (hparts part hpart).1
    (eq_false_of_all (hparts part hpart).2)]

omit hne in
theorem not_containsWord_digits {word : String} (hword : word ∈ Policy.shippedKeywords) :
    containsWordFrom sameLetter word.toList none ds = false := by
  obtain ⟨hwordNe, hletters⟩ := isWordChar_of_forbidden hword
  have hnone : ∀ w ∈ Policy.shippedKeywords, w.toList.all (!isAsciiDigit ·) = true := by decide
  have habsent : ∀ c ∈ ds, ∀ k ∈ word.toList, sameLetter k c = false := fun c hc k hk =>
    not_sameLetter_of_isAsciiDigit (hletters k hk).1 (eq_false_of_all (hnone word hword) k hk)
      (hds c hc)
  exact not_containsWordFrom_of_absent hwordNe habsent none

omit hne in
theorem containsWord_limit {word : String} (hword : word ∈ Policy.shippedKeywords)
    (s : List Char) :
    containsWord word.toList (opening s ++ ds) = containsWord word.toList (opening s) := by
  obtain ⟨hwordNe, hletters⟩ := isWordChar_of_forbidden hword
  have hspace : Separates sameLetter word.toList ' ' :=
    ⟨by decide, fun k hk => not_sameLetter_of_isBlank (hletters k hk).1 (hletters k hk).2 (by decide)⟩
  have hsplit (r : List Char) : opening s ++ r =
      (trimLeft (collapse (s ++ [' '])) ++ ['L', 'I', 'M', 'I', 'T']) ++ ' ' :: r := by
    simp [opening]
  have hnil := hsplit []
  rw [List.append_nil] at hnil
  rw [hsplit, hnil, containsWord, containsWord, containsWordFrom_append_cons hspace hwordNe,
    containsWordFrom_append_cons hspace hwordNe, not_containsWord_digits hds hword,
    not_containsWordFrom_nil hwordNe]

/-- The tokens of a limit of digits, which no open parenthesis admits. -/
theorem tokensFrom_limit (depth : Nat) :
    tokensFrom depth (" LIMIT ".toList ++ ds) =
      if depth = 0 then some [Keyword.limit.token.1, .number ds] else none := by
  have htext : " LIMIT ".toList ++ ds = ' ' :: 'L' :: (['I', 'M', 'I', 'T'] ++ ' ' :: ds) := by simp
  have hfirst : firstToken? 'L' (['I', 'M', 'I', 'T'] ++ ' ' :: ds) =
      some Keyword.limit.token.1 := rfl
  have hbehind : behind Keyword.limit.token.1 (['I', 'M', 'I', 'T'] ++ ' ' :: ds) = ' ' :: ds := rfl
  have hdepth := depthBehind?_of_keyword depth (keyword?_of_isKeyword Keyword.limit.token.2)
  rw [htext, tokensFrom_blank (by decide), tokensFrom_step hfirst hbehind (by decide) hdepth,
    tokensFrom_blank (by decide), tokensFrom_digits hds hne]
  split <;> rfl

omit hne in
theorem standsApart_limit : StandsApart (" LIMIT ".toList ++ ds) := by
  have absent {q : Char} (hdigit : isAsciiDigit q = false) (hlimit : q ∉ " LIMIT ".toList) :
      q ∉ " LIMIT ".toList ++ ds := by
    intro hmem
    rcases List.mem_append.mp hmem with hmem | hmem
    · exact hlimit hmem
    · rw [hds q hmem] at hdigit
      cases hdigit
  exact ⟨rfl, absent (by decide) (by decide), absent (by decide) (by decide),
    absent (by decide) (by decide)⟩

theorem tokenize_limit {s : List Char} {us : List Token} :
    tokenize (opening s ++ ds) = .ok us ↔ ∃ ts, tokensFrom 0 s = some ts ∧
      us = ts.map Token.collapsed ++ [Keyword.limit.token.1, .number ds] := by
  rw [← squeeze_limit hds hne, tokenize_eq_ok_iff, squeeze, tokensFrom_trim, tokensFrom_collapse,
    List.append_assoc, tokensFrom_append_apart (standsApart_limit hds) (tokensFrom_limit hds hne),
    Option.map_map, Option.map_eq_some_iff]
  refine exists_congr fun ts => and_congr_right fun _ => ?_
  rw [Function.comp_apply, List.map_append, eq_comm]
  rfl

/-- Digits behind the limit of a statement are read as the limit of its last block. -/
theorem queriesOf_limit {s : List Char} {queries : List Query} :
    queriesOf (opening s ++ ds) = .ok queries ↔ ∃ ts init p, tokensFrom 0 s = some ts ∧
      readsAs (ts.map Token.collapsed) (init ++ [p]) ∧ p.limit = none ∧
        queries = init ++ [{ p with limit := some [.number ds] }] := by
  have hclosed {ts : List Token} (h : tokensFrom 0 s = some ts) :
      depthThrough? 0 (ts.map Token.collapsed) = some 0 := by
    apply depthThrough?_of_tokensFrom
    rw [tokensFrom_collapse, h]
    rfl
  rw [queriesOf_eq_ok_iff]
  constructor
  · rintro ⟨us, hus, hread⟩
    obtain ⟨ts, hts, rfl⟩ := (tokenize_limit hds hne).mp hus
    obtain ⟨init, p, hinit, hnone, rfl⟩ := (readsAs_append_limit _ _ (hclosed hts)).mp hread
    exact ⟨ts, init, p, hts, hinit, hnone, rfl⟩
  · rintro ⟨ts, init, p, hts, hinit, hnone, rfl⟩
    exact ⟨_, (tokenize_limit hds hne).mpr ⟨ts, hts, rfl⟩,
      (readsAs_append_limit _ _ (hclosed hts)).mpr ⟨init, p, hinit, hnone, rfl⟩⟩

end Digits

/-- What a statement needs so that it can be accepted with a limit behind it. -/
structure TakesLimit (s : List Char) : Prop where
  opens : "SELECT ".toList.isPrefixOf (upper (opening s)) = true
  unended : ∀ part ∈ terminators, containsText part.toList (opening s) = false
  words : ∀ word ∈ Policy.shippedKeywords, containsWord word.toList (opening s) = false
  blocks : ∃ ts init p, tokensFrom 0 s = some ts ∧ readsAs (ts.map Token.collapsed) (init ++ [p]) ∧
    p.limit = none ∧ ∀ q ∈ init ++ [p], IsAllowed Policy.shipped q

theorem limitRows?_digits {ds : List Char} (hds : isDigits ds = true) {n : Nat} :
    limitRows? [.number ds] = some n ↔ ds.length ≤ 18 ∧ digitsValue ds = n := by
  simp only [limitRows?, rowCount?, hds, Bool.true_and, decide_eq_true_eq]
  split
  · rename_i hlength
    rw [Option.some.injEq, and_iff_right hlength]
  · rename_i hlength
    exact ⟨nofun, fun h => absurd h.1 hlength⟩

/-- Of digits in a limit only their number and their value count. -/
theorem accepts_limit_iff {ds : List Char} (hds : isDigits ds = true) (s : List Char) :
    accepts Policy.shipped (s ++ " LIMIT ".toList ++ ds) = true ↔
      TakesLimit s ∧ ds.length ≤ 18 ∧ (digitsValue ds : Int) ≤ Policy.shipped.maxLimit := by
  obtain ⟨hne, hdigits⟩ : ds ≠ [] ∧ ∀ c ∈ ds, isAsciiDigit c = true := by
    simpa [isDigits] using hds
  have hbound : (∃ rows, limitRows? [.number ds] = some rows ∧
      (rows : Int) ≤ Policy.shipped.maxLimit) ↔
      ds.length ≤ 18 ∧ (digitsValue ds : Int) ≤ Policy.shipped.maxLimit := by
    simp only [limitRows?_digits hds]
    constructor
    · rintro ⟨_, ⟨hlength, rfl⟩, hle⟩
      exact ⟨hlength, hle⟩
    · rintro ⟨hlength, hle⟩
      exact ⟨_, ⟨hlength, rfl⟩, hle⟩
  have hkeywords : (∀ word ∈ Policy.shipped.forbiddenKeywords,
      containsWord word.toList (opening s ++ ds) = false) ↔
      ∀ word ∈ Policy.shippedKeywords, containsWord word.toList (opening s) = false :=
    forall₂_congr fun word hword => by rw [containsWord_limit hdigits hword]
  rw [accepts_iff, squeeze_limit hdigits hne, checkShape_append_digits hdigits hne, hkeywords]
  constructor
  · rintro ⟨⟨hopens, hunended⟩, hwords, queries, hqueries, _, hallowed⟩
    obtain ⟨ts, init, p, hts, hread, hnone, rfl⟩ := (queriesOf_limit hdigits hne).mp hqueries
    obtain ⟨hp, hrows⟩ := (isAllowed_limit_iff hnone _).mp
      (hallowed _ (List.mem_append_right _ List.mem_cons_self))
    refine ⟨⟨hopens, hunended, hwords, ts, init, p, hts, hread, hnone, ?_⟩, hbound.mp hrows⟩
    intro q hq
    rcases List.mem_append.mp hq with hq | hq
    · exact hallowed q (List.mem_append_left _ hq)
    · rwa [List.mem_singleton.mp hq]
  · rintro ⟨⟨hopens, hunended, hwords, ts, init, p, hts, hread, hnone, hallowed⟩, hdigitsBound⟩
    refine ⟨⟨hopens, hunended⟩, hwords, _,
      (queriesOf_limit hdigits hne).mpr ⟨ts, init, p, hts, hread, hnone, rfl⟩, by simp, ?_⟩
    intro q hq
    rcases List.mem_append.mp hq with hq | hq
    · exact hallowed q (List.mem_append_left _ hq)
    · rw [List.mem_singleton.mp hq]
      exact (isAllowed_limit_iff hnone _).mpr ⟨hallowed p (by simp), hbound.mpr hdigitsBound⟩

/-- The bound on the number of rows is exact.  An accepted statement ends in a limit that no
parenthesis surrounds, and all its limits are within the bound.  A text that is accepted with the
limit 1 behind it is accepted with any digits there whose number and value are small enough, and
with no others. -/
theorem row_bound_exact :
    (∀ sql, accepts Policy.shipped sql = true →
      ∃ ts blocks, Scope.blocksOf sql = .ok (ts, blocks) ∧
        (∀ sections ∈ blocks, ∀ limit, body? .limit sections = some limit →
          isBounded Policy.shipped limit) ∧
        ∃ (front : List Token) (l : Word .limit) (limit : List Token),
          ts = front ++ l.1 :: limit ∧ depthThrough? 0 front = some 0 ∧
            isBounded Policy.shipped limit) ∧
      ∀ s, accepts Policy.shipped (s ++ " LIMIT 1".toList) = true →
        ∀ ds, isDigits ds = true →
          (accepts Policy.shipped (s ++ " LIMIT ".toList ++ ds) = true ↔
            ds.length ≤ 18 ∧ (digitsValue ds : Int) ≤ Policy.shipped.maxLimit) := by
  refine ⟨fun sql => limits_of_accepts, ?_⟩
  intro s hone ds hds
  have htext : s ++ " LIMIT 1".toList = s ++ " LIMIT ".toList ++ ['1'] := by simp
  rw [htext, accepts_limit_iff (by decide)] at hone
  rw [accepts_limit_iff hds, and_iff_right hone.1]

/-- A statement without a limit. -/
def checkIdsText : List Char := "SELECT id FROM daily_check".toList

theorem row_bound_of_checkIds :
    accepts Policy.shipped (checkIdsText ++ " LIMIT 1".toList) = true ∧
      (∃ ts blocks, Scope.blocksOf (checkIdsText ++ " LIMIT 1".toList) = .ok (ts, blocks) ∧
        ∃ (front : List Token) (l : Word .limit) (limit : List Token),
          ts = front ++ l.1 :: limit ∧ depthThrough? 0 front = some 0 ∧
            isBounded Policy.shipped limit) ∧
      isDigits "0001000".toList = true ∧
      accepts Policy.shipped (checkIdsText ++ " LIMIT ".toList ++ "0001000".toList) = true ∧
      isDigits "1001".toList = true ∧
      accepts Policy.shipped (checkIdsText ++ " LIMIT ".toList ++ "1001".toList) = false := by
  have hone : accepts Policy.shipped (checkIdsText ++ " LIMIT 1".toList) = true :=
    accepts_of_isQuietQuery (by decide +kernel)
  obtain ⟨ts, blocks, hblocks, _, hends⟩ := row_bound_exact.1 _ hone
  have hzeros : isDigits "0001000".toList = true := by decide
  have hlarge : isDigits "1001".toList = true := by decide
  refine ⟨hone, ⟨ts, blocks, hblocks, hends⟩, hzeros, ?_, hlarge, ?_⟩
  · exact (row_bound_exact.2 checkIdsText hone _ hzeros).mpr (by decide)
  · rw [← Bool.not_eq_true, row_bound_exact.2 checkIdsText hone _ hlarge]
    decide

end Guard
end QueryGate
