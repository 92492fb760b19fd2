import QueryGate.Proofs.Sql.Collapsing
import QueryGate.Proofs.Sql.Spans

/-!
# Doubled quotes

A quote that is written twice stands for one, so it must not be read as the end of one token and the
start of the next.  The lexer never does so with the quotes of literals.  The quotes of names it
knows in pairs only: of a doubled one the first ends a name and the second starts another.
-/

namespace QueryGate
namespace Sql

open Text

/-- The quotes of the query language. -/
def quotes : List Char := ['\'', '"', Token.nameQuote]

namespace Token

/-- Whether what is written for a token starts and ends with a character. -/
def isBetween (k : Char) (t : Token) : Prop :=
  t.written.head? = some k ∧ t.written.getLast? = some k

instance (k : Char) (t : Token) : Decidable (t.isBetween k) := inferInstanceAs (Decidable (_ ∧ _))

/-- The quote that a token stands in. -/
def quote? : Token → Option Char
  | quotedName _ => some nameQuote
  | literal quote _ => some quote.char
  | _ => none

theorem isBetween_of_quote? {t : Token} {k : Char} (h : t.quote? = some k) : t.isBetween k := by
  cases t with
  | quotedName name =>
    cases h
    exact ⟨rfl, List.getLast?_concat⟩
  | literal quote body =>
    cases h
    exact ⟨rfl, List.getLast?_concat⟩
  | _ => cases h

end Token

/-! ### Tokens that have a quote in them -/

/-- A character of a kind that no quote is of is no quote. -/
theorem not_mem_quotes {p : Char → Bool} (hall : quotes.all (!p ·) = true) {c : Char}
    (hc : p c = true) : c ∉ quotes := by
  intro hmem
  rw [eq_false_of_all hall c hmem] at hc
  cases hc

theorem not_isBlank_of_mem_quotes {k : Char} (hk : k ∈ quotes) : isBlank k = false :=
  eq_false_of_all (by decide) k hk

/-- A token that stands in no quotes has none in it. -/
theorem not_mem_written_of_quote? {c : Char} {r : List Char} {t : Token}
    (h : firstToken? c r = some t) (ht : t.quote? = none) {k : Char} (hk : k ∈ quotes) :
    k ∉ t.written := by
  intro hmem
  cases t with
  | quotedName name => cases ht
  | literal quote body => cases ht
  | word letters => exact not_mem_quotes (by decide) (isWordPart_of_word h k hmem) hk
  | number digits =>
    rw [Token.written, (number_of_firstToken? h).2] at hmem
    rcases mem_numberAt hmem with hdigit | rfl
    · exact not_mem_quotes (by decide) hdigit hk
    · revert hk
      decide
  | operator op =>
    have hnone : quotes.all (!(Token.operator op).written.contains ·) = true := by
      cases op <;> decide
    exact not_mem_quotes hnone (List.contains_iff_mem.mpr hmem) hk
  | _ =>
    have hmark := List.contains_iff_mem.mpr hmem
    exact not_mem_quotes (by decide) hmark hk

/-- A token that starts with a quote stands in it. -/
theorem quote?_of_first {k : Char} (hk : k ∈ quotes) {r : List Char} {t : Token}
    (h : firstToken? k r = some t) : t.quote? = some k := by
  obtain rfl | rfl | rfl : k = '\'' ∨ k = '"' ∨ k = Token.nameQuote := by simpa [quotes] using hk
  · obtain ⟨body, _, rfl⟩ := Option.map_eq_some_iff.mp h
    rfl
  · obtain ⟨body, _, rfl⟩ := Option.map_eq_some_iff.mp h
    rfl
  · obtain ⟨name, _, rfl, _⟩ := quotedName?_eq h
    rfl

/-- A token that ends with a quote stands in it. -/
theorem quote?_of_getLast? {c : Char} {r : List Char} {t : Token} (h : firstToken? c r = some t)
    {k : Char} (hk : k ∈ quotes) (hlast : t.written.getLast? = some k) : t.quote? = some k := by
  cases hquote : t.quote? with
  | none => exact absurd (List.mem_of_getLast? hlast) (not_mem_written_of_quote? h hquote hk)
  | some q =>
    have hsame := (Token.isBetween_of_quote? hquote).2
    rw [hlast] at hsame
    exact hsame.symm

/-- A name in quotes has none in it, and not only blanks. -/
theorem name_of_firstToken? {c : Char} {r name : List Char}
    (h : firstToken? c r = some (.quotedName name)) :
    Token.nameQuote ∉ name ∧ name.all isBlank = false := by
  have hc : c = Token.nameQuote := by
    cases isFirst_of_firstToken? h with
    | quotedName hc => exact hc
    | punctuation ht =>
      have hmark := punctuation?_eq_some ht
      simp at hmark
  rw [hc, firstToken?, if_pos rfl, quotedName?] at h
  simp only [Option.ite_none_left_eq_some, not_or, Option.some.injEq, Token.quotedName.injEq] at h
  obtain ⟨⟨_, hblank⟩, rfl⟩ := h
  refine ⟨?_, Bool.eq_false_iff.mpr hblank⟩
  intro hmem
  have hbut := List.all_eq_true.mp List.all_takeWhile _ hmem
  simp at hbut

/-- Two quotes of names side by side are inside a literal. -/
theorem literal_of_getElem? {c : Char} {r : List Char} {t : Token} (h : firstToken? c r = some t)
    {j : Nat} (hj : t.written[j]? = some Token.nameQuote)
    (hnext : t.written[j + 1]? = some Token.nameQuote) : ∃ quote body, t = .literal quote body := by
  have hquote : t.quote? ≠ none := by
    intro hnone
    exact not_mem_written_of_quote? h hnone (by decide) (List.mem_of_getElem? hj)
  cases t with
  | literal quote body => exact ⟨quote, body, rfl⟩
  | quotedName name =>
    exfalso
    obtain ⟨hnot, hblank⟩ := name_of_firstToken? h
    have hwritten :
        (Token.quotedName name).written = Token.nameQuote :: (name ++ [Token.nameQuote]) := rfl
    rw [hwritten] at hj hnext
    rw [List.getElem?_cons_succ] at hnext
    cases j with
    | zero =>
      cases name with
      | nil => cases hblank
      | cons d name =>
        cases hnext
        exact hnot List.mem_cons_self
    | succ j =>
      rw [List.getElem?_cons_succ] at hj
      have hlt : j < name.length := by
        have hle := (List.getElem?_eq_some_iff.mp hnext).1
        rw [List.length_append, List.length_singleton] at hle
        omega
      rw [List.getElem?_append_left hlt] at hj
      exact hnot (List.mem_of_getElem? hj)
  | _ => exact absurd rfl hquote

/-! ### What follows a token -/

/-- The quote that ends a literal is not followed by another one. -/
theorem head?_behind_literal {q : Char} {r body : List Char} (h : literalBody? q r = some body) :
    (r.drop (body.length + 1)).head? ≠ some q := by
  fun_induction literalBody? q r generalizing body with
  | case1 => cases h
  | case2 =>
    cases h
    simp
  | case3 => cases h
  | case4 r ih =>
    obtain ⟨inner, hinner, rfl⟩ := Option.map_eq_some_iff.mp h
    exact ih hinner
  | case5 d r hd =>
    cases h
    simpa using hd
  | case6 c d r hc ih =>
    obtain ⟨inner, hinner, rfl⟩ := Option.map_eq_some_iff.mp h
    exact ih hinner

/-- Behind a token that ends with a quote the same quote starts a token only if it is that of
names. -/
theorem eq_nameQuote_of_behind {d k : Char} {s r : List Char} {t : Token}
    (h : firstToken? d s = some t) (hk : k ∈ quotes) (hlast : t.written.getLast? = some k)
    (hbehind : behind t s = k :: r) : k = Token.nameQuote := by
  have hquote := quote?_of_getLast? h hk hlast
  cases t with
  | quotedName name =>
    cases hquote
    rfl
  | literal quote body =>
    cases hquote
    have hfollow := head?_behind_literal (literalBody?_of_firstToken? h).2
    have hlength : (Token.literal quote body).written.length - 1 = body.length + 1 := by
      simp [Token.written]
    rw [behind, hlength] at hbehind
    rw [hbehind] at hfollow
    exact absurd rfl hfollow
  | _ => cases hquote

/-- Where a token starts right behind a character that is no blank, a token ends with it. -/
theorem StandsAt.exists_before {offset : Nat} {cs : List Char} {before : List Placed} {p : Placed}
    {front : List Char} {c k : Char} {r : List Char} (h : StandsAt offset cs before p front c r)
    (hlast : front.getLast? = some k) (hk : isBlank k = false) :
    ∃ init n d s, before = init ++ [n] ∧ n.stop = p.offset ∧ firstToken? d s = some n.token ∧
      behind n.token s = c :: r ∧ n.token.written.getLast? = some k := by
  cases h.start with
  | blank hblank =>
    rw [hblank k hlast] at hk
    cases hk
  | @token n d s hbefore hn hrest hsuffix hoffset =>
    obtain ⟨init, rfl⟩ := List.getLast?_eq_some_iff.mp hbefore
    refine ⟨init, n, d, s, rfl, hoffset, hn, hrest, ?_⟩
    obtain ⟨v, rfl⟩ := hsuffix
    have hne := (written_append_of_firstToken? hn).1
    rwa [List.getLast?_append_of_ne_nil _ hne] at hlast

/-! ### Doubled quotes of a text -/

/-- Whether a character of a text and the next one are both the given one. -/
def doubledAt (cs : List Char) (k : Char) (place : Nat) : Prop :=
  cs[place]? = some k ∧ cs[place + 1]? = some k

instance (cs : List Char) (k : Char) (place : Nat) : Decidable (doubledAt cs k place) :=
  inferInstanceAs (Decidable (_ ∧ _))

/-- Whether a token ends at a place and the next one starts right behind it, and both stand between
the given character. -/
def tornAt (placed : List Placed) (k : Char) (place : Nat) : Prop :=
  ∃ before p q after, placed = before ++ p :: q :: after ∧ p.token.isBetween k ∧
    q.token.isBetween k ∧ p.stop = place + 1 ∧ q.offset = place + 1

section Scan

variable {cs : List Char} {placed : List Placed} (h : scan cs = .ok placed)

include h in
/-- The text in front of what follows a token ends with the token. -/
theorem getLast?_front {p : Placed} (hp : p ∈ placed) {front back : List Char}
    (hcs : cs = front ++ back) (hstop : p.stop = front.length) :
    front.getLast? = p.token.written.getLast? := by
  obtain ⟨start, rest, htext, hoffset⟩ := split_at_token h hp
  rw [← List.append_assoc, hcs] at htext
  have hlength : front.length = (start ++ p.token.written).length := by
    rw [List.length_append, ← hoffset, ← hstop, Placed.stop]
  rw [(List.append_inj htext hlength).1]
  obtain ⟨_, _, _, _, _, _, hstands⟩ := standsAt_of_mem h hp
  exact List.getLast?_append_of_ne_nil _ (written_append_of_firstToken? hstands.token).1

/-- Only two names can stand side by side between the same quotes. -/
theorem eq_nameQuote_of_adjacent {before after : List Placed} {p q : Placed}
    (h : scan cs = .ok (before ++ p :: q :: after)) {k : Char} (hk : k ∈ quotes)
    (hp : p.token.isBetween k) (hq : q.token.isBetween k) (hstop : p.stop = q.offset) :
    k = Token.nameQuote := by
  have hsplit : before ++ p :: q :: after = (before ++ [p]) ++ q :: after := by simp
  rw [hsplit] at h
  obtain ⟨front, c, r, hstands⟩ := standsAt_of_scan h
  have hlast : front.getLast? = some k := by
    rw [← hp.2]
    refine getLast?_front h (by simp) hstands.text ?_
    rw [hstop, hstands.place, Nat.zero_add]
  have hc : c = k := by
    obtain ⟨hne, rest, hrest⟩ := written_append_of_firstToken? hstands.token
    have hhead := congrArg List.head? hrest
    rw [List.head?_append_of_ne_nil _ hne, hq.1] at hhead
    exact Option.some.inj hhead
  obtain ⟨_, n, d, s, _, _, hn, hbehind, hend⟩ :=
    hstands.exists_before hlast (not_isBlank_of_mem_quotes hk)
  rw [hc] at hbehind
  exact eq_nameQuote_of_behind hn hk hend hbehind

include h

/-- A doubled quote is part of one token, or torn apart. -/
theorem covered_or_torn {k : Char} (hk : k ∈ quotes) {i : Nat} (hdoubled : doubledAt cs k i) :
    (∃ p ∈ placed, p.covers i ∧ p.covers (i + 1)) ∨ tornAt placed k i := by
  have hblank := not_isBlank_of_mem_quotes hk
  obtain ⟨q, hq, hcovers⟩ := covered_of_scan h hdoubled.2 hblank
  by_cases hstart : q.offset ≤ i
  · exact Or.inl ⟨q, hq, ⟨hstart, Nat.lt_of_succ_lt hcovers.2⟩, hcovers⟩
  · right
    have hoffset : q.offset = i + 1 := Nat.le_antisymm hcovers.1 (Nat.lt_of_not_le hstart)
    obtain ⟨before, after, front, c, r, rfl, hstands⟩ := standsAt_of_mem h hq
    have hlength : front.length = i + 1 := by
      have hplace := hstands.place
      omega
    have hc : c = k := by
      have hchar := hdoubled.2
      rw [hstands.text, ← hlength, List.getElem?_append_right (Nat.le_refl _),
        Nat.sub_self] at hchar
      exact Option.some.inj hchar
    have hlast : front.getLast? = some k := by
      have hchar := hdoubled.1
      rw [hstands.text, List.getElem?_append_left (by omega)] at hchar
      rw [List.getLast?_eq_getElem?, hlength]
      exact hchar
    obtain ⟨init, n, d, s, rfl, hstop, hn, _, hend⟩ := hstands.exists_before hlast hblank
    have htoken := hstands.token
    rw [hc] at htoken
    refine ⟨init, n, q, after, by simp, ?_, ?_, hstop.trans hoffset, hoffset⟩
    · exact Token.isBetween_of_quote? (quote?_of_getLast? hn hk hend)
    · exact Token.isBetween_of_quote? (quote?_of_first hk htoken)

/-- A doubled quote of names that is part of one token is inside a literal. -/
theorem literal_of_covers {p : Placed} (hp : p ∈ placed) {i : Nat}
    (hdoubled : doubledAt cs Token.nameQuote i) (hi : p.covers i) (hnext : p.covers (i + 1)) :
    ∃ quote body, p.token = .literal quote body := by
  obtain ⟨_, _, _, _, _, _, hstands⟩ := standsAt_of_mem h hp
  obtain ⟨j, rfl⟩ := Nat.exists_eq_add_of_le hi.1
  have hlt : j + 1 < p.token.written.length := by
    have hstop := hnext.2
    rw [Placed.stop] at hstop
    omega
  obtain ⟨hfirst, hsecond⟩ := hdoubled
  rw [getElem?_span h hp (Nat.lt_of_succ_lt hlt)] at hfirst
  rw [Nat.add_assoc, getElem?_span h hp hlt] at hsecond
  exact literal_of_getElem? hstands.token hfirst hsecond

/-- A quote that is torn apart is a doubled quote of names, and not inside a literal. -/
theorem doubled_of_torn {k : Char} (hk : k ∈ quotes) {i : Nat} (htorn : tornAt placed k i) :
    k = Token.nameQuote ∧ doubledAt cs k i ∧
      ∀ p ∈ placed, p.covers i → ∀ quote body, p.token ≠ .literal quote body := by
  obtain ⟨before, p, q, after, rfl, hbefore, hafter, hstop, hoffset⟩ := htorn
  have hp : p ∈ before ++ p :: q :: after := by simp
  have hq : q ∈ before ++ p :: q :: after := by simp
  obtain rfl := eq_nameQuote_of_adjacent h hk hbefore hafter (hstop.trans hoffset.symm)
  have hlt := offset_lt_stop h hp
  have hlength : p.offset + p.token.written.length = i + 1 := hstop
  refine ⟨rfl, ⟨?_, ?_⟩, ?_⟩
  · have hchar := hbefore.2
    rw [List.getLast?_eq_getElem?] at hchar
    rw [← hchar, ← getElem?_span h hp (by omega)]
    congr 1
    omega
  · have hchar := hafter.1
    rw [List.head?_eq_getElem?] at hchar
    have hne := Nat.lt_add_right_iff_pos.mp (offset_lt_stop h hq)
    rw [← hchar, ← getElem?_span h hq hne, hoffset]
  · intro n hn hcovers quote body hliteral
    have hpi : p.covers i := ⟨by omega, by omega⟩
    obtain rfl := eq_of_covers h hn hp hcovers hpi
    rw [hliteral] at hbefore
    have hchar := hbefore.1
    cases quote <;> cases hchar

end Scan

/-- No two literals with the same quote stand side by side.  Two names do, just when a quote of
names is doubled outside of literals; every other doubled quote is part of one token. -/
theorem quotes_torn_between_names {cs : List Char} {placed : List Placed}
    (h : scan cs = .ok placed) :
    (∀ before p q after k, placed = before ++ p :: q :: after → k ∈ quotes →
      p.token.isBetween k → q.token.isBetween k → p.stop = q.offset → k = Token.nameQuote) ∧
    ∀ k ∈ quotes, ∀ i,
      (tornAt placed k i ↔ k = Token.nameQuote ∧ doubledAt cs k i ∧
        ∀ p ∈ placed, p.covers i → ∀ quote body, p.token ≠ .literal quote body) ∧
      (doubledAt cs k i → ¬tornAt placed k i → ∃ p ∈ placed, p.covers i ∧ p.covers (i + 1)) := by
  refine ⟨?_, ?_⟩
  · rintro before p q after k rfl hk
    exact eq_nameQuote_of_adjacent h hk
  intro k hk i
  refine ⟨⟨doubled_of_torn h hk, ?_⟩, ?_⟩
  · rintro ⟨rfl, hdoubled, hnone⟩
    rcases covered_or_torn h hk hdoubled with ⟨p, hp, hi, hnext⟩ | htorn
    · obtain ⟨quote, body, hliteral⟩ := literal_of_covers h hp hdoubled hi hnext
      exact absurd hliteral (hnone p hp hi quote body)
    · exact htorn
  · intro hdoubled hwhole
    exact (covered_or_torn h hk hdoubled).resolve_right hwhole

/-- A literal with two doubled quotes in it, and two names side by side. -/
def manyQuotes : List Char := "'it''s \x60\x60' \x60a\x60\x60b\x60".toList

/-- The tokens of `manyQuotes` with their places. -/
def manyQuotesTokens : List Placed :=
  [⟨0, .literal .single "it''s \x60\x60".toList⟩, ⟨11, .quotedName ['a']⟩, ⟨14, .quotedName ['b']⟩]

theorem quotes_torn_in_manyQuotes :
    scan manyQuotes = .ok manyQuotesTokens ∧ ¬tornAt manyQuotesTokens '\'' 3 ∧
      ¬tornAt manyQuotesTokens Token.nameQuote 7 ∧ tornAt manyQuotesTokens Token.nameQuote 13 := by
  have hscan : scan manyQuotes = .ok manyQuotesTokens := by decide +kernel
  obtain ⟨_, hplaces⟩ := quotes_torn_between_names hscan
  refine ⟨hscan, ?_, ?_, ?_⟩
  · intro htorn
    have hname := ((hplaces _ (by decide) 3).1.mp htorn).1
    revert hname
    decide
  · intro htorn
    obtain ⟨_, _, hnone⟩ := (hplaces _ (by decide) 7).1.mp htorn
    exact hnone _ List.mem_cons_self (by decide +kernel) _ _ rfl
  · refine (hplaces _ (by decide) 13).1.mpr ⟨rfl, by decide +kernel, ?_⟩
    simp [manyQuotesTokens, Placed.covers, Placed.stop, Token.written]

/-- A name in quotes with a doubled quote in it. -/
def doubledName : List Char := "\x60a\x60\x60b\x60".toList

/-- The doubled quote in the name is read as the end of one name and the start of another. -/
theorem doubledName_torn :
    ∃ placed, scan doubledName = .ok placed ∧ doubledAt doubledName Token.nameQuote 2 ∧
      tornAt placed Token.nameQuote 2 := by
  refine ⟨[⟨0, .quotedName ['a']⟩, ⟨3, .quotedName ['b']⟩], by decide +kernel,
    by decide +kernel, ?_⟩
  exact ⟨[], _, _, [], rfl, by decide +kernel, by decide +kernel, rfl, rfl⟩

end Sql
end QueryGate
