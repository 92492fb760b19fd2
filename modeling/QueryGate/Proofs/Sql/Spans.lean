import Mathlib.Data.List.Basic
import QueryGate.Proofs.Sql.Nesting
import QueryGate.Proofs.Sql.Places

/-!
# The spans of tokens

Each token covers the characters that are written for it.  The lexer goes over the text from left
to right and passes over blanks only, so the spans come one behind the other and every character
outside of them is a blank.
-/

namespace QueryGate
namespace Sql

open Text

namespace Placed

/-- The place behind the last character of a token. -/
def stop (p : Placed) : Nat := p.offset + p.token.written.length

/-- Whether a place is in the span of a token. -/
def covers (p : Placed) (place : Nat) : Prop := p.offset ≤ place ∧ place < p.stop

instance (p : Placed) (place : Nat) : Decidable (p.covers place) :=
  inferInstanceAs (Decidable (_ ∧ _))

end Placed

/-! ### One token after the other -/

theorem offset_le_of_scanFrom {offset depth : Nat} {cs : List Char} {placed : List Placed}
    (h : scanFrom offset depth cs = .ok placed) : ∀ p ∈ placed, offset ≤ p.offset := by
  fun_induction scanFrom offset depth cs generalizing placed with
  | case1 =>
    cases h
    exact List.forall_mem_nil _
  | case3 offset depth c r hc ih =>
    intro p hp
    exact Nat.le_of_succ_le (ih h p hp)
  | case7 offset depth c r hc t ht hclose inner more hmore =>
    rename_i ih
    cases h
    intro p hp
    rcases List.mem_cons.mp hp with rfl | hp
    · exact Nat.le_refl _
    · exact Nat.le_trans (Nat.le_add_right _ _) (ih hmore p hp)
  | _ => cases h

/-- A token starts no earlier than the one before it ends. -/
theorem ordered_of_scanFrom {offset depth : Nat} {cs : List Char} {placed : List Placed}
    (h : scanFrom offset depth cs = .ok placed) : placed.Pairwise fun p q => p.stop ≤ q.offset := by
  fun_induction scanFrom offset depth cs generalizing placed with
  | case1 =>
    cases h
    exact .nil
  | case3 offset depth c r hc ih => exact ih h
  | case7 offset depth c r hc t ht hclose inner more hmore =>
    rename_i ih
    cases h
    exact .cons (offset_le_of_scanFrom hmore) (ih hmore)
  | _ => cases h

/-- Every character is a blank or belongs to a token. -/
theorem covered_of_scanFrom {offset depth : Nat} {cs : List Char} {placed : List Placed}
    (h : scanFrom offset depth cs = .ok placed) {i : Nat} {d : Char} (hd : cs[i]? = some d) :
    isBlank d = true ∨ ∃ p ∈ placed, p.covers (offset + i) := by
  fun_induction scanFrom offset depth cs generalizing placed i with
  | case1 => cases hd
  | case3 offset depth c r hc ih =>
    cases i with
    | zero =>
      cases hd
      exact Or.inl hc
    | succ i =>
      rw [List.getElem?_cons_succ] at hd
      have hplace : offset + (i + 1) = offset + 1 + i := by omega
      rw [hplace]
      exact ih h hd
  | case7 offset depth c r hc t ht hclose inner more hmore =>
    rename_i ih
    cases h
    have hsplit := written_append_behind (firstToken?_of_tokenAt ht)
    by_cases hi : i < t.written.length
    · exact Or.inr ⟨⟨offset, t⟩, List.mem_cons_self, Nat.le_add_right _ _, Nat.add_lt_add_left hi _⟩
    · rw [← hsplit, List.getElem?_append_right (Nat.le_of_not_lt hi)] at hd
      refine (ih hmore hd).imp_right ?_
      rintro ⟨p, hp, hcovers⟩
      have hplace : offset + t.written.length + (i - t.written.length) = offset + i := by omega
      rw [hplace] at hcovers
      exact ⟨p, List.mem_cons_of_mem _ hp, hcovers⟩
  | _ => cases h

section Scan

variable {cs : List Char} {placed : List Placed} (h : scan cs = .ok placed)
include h

theorem standsAt_of_mem {p : Placed} (hp : p ∈ placed) :
    ∃ before after front c r, placed = before ++ p :: after ∧ StandsAt 0 cs before p front c r := by
  obtain ⟨before, after, rfl⟩ := List.append_of_mem hp
  obtain ⟨front, c, r, hstands⟩ := standsAt_of_scan h
  exact ⟨before, after, front, c, r, rfl, hstands⟩

theorem covered_of_scan {i : Nat} {d : Char} (hd : cs[i]? = some d) (hblank : isBlank d = false) :
    ∃ p ∈ placed, p.covers i := by
  rcases covered_of_scanFrom h hd with hd | ⟨p, hp, hcovers⟩
  · rw [hblank] at hd
    cases hd
  · rw [Nat.zero_add] at hcovers
    exact ⟨p, hp, hcovers⟩

/-- The text is cut at the two ends of a token. -/
theorem split_at_token {p : Placed} (hp : p ∈ placed) :
    ∃ front back, cs = front ++ (p.token.written ++ back) ∧ p.offset = front.length := by
  obtain ⟨_, _, front, c, r, _, hstands⟩ := standsAt_of_mem h hp
  refine ⟨front, behind p.token r, ?_, ?_⟩
  · rw [written_append_behind hstands.token, hstands.text]
  · rw [hstands.place, Nat.zero_add]

/-- A token has a first character. -/
theorem offset_lt_stop {p : Placed} (hp : p ∈ placed) : p.offset < p.stop := by
  obtain ⟨_, _, _, _, _, _, hstands⟩ := standsAt_of_mem h hp
  have hne := (written_append_of_firstToken? hstands.token).1
  exact Nat.lt_add_of_pos_right (List.length_pos_iff.mpr hne)

/-- The text in the span of a token is what is written for it. -/
theorem extract_span {p : Placed} (hp : p ∈ placed) :
    cs.extract p.offset p.stop = p.token.written := by
  obtain ⟨front, back, hcs, hoffset⟩ := split_at_token h hp
  rw [List.extract_eq_take_drop, Placed.stop, Nat.add_sub_cancel_left, hcs, hoffset,
    List.drop_left, List.take_left]

/-- The character of a token at a place in its span. -/
theorem getElem?_span {p : Placed} (hp : p ∈ placed) {i : Nat} (hi : i < p.token.written.length) :
    cs[p.offset + i]? = p.token.written[i]? := by
  obtain ⟨front, back, hcs, hoffset⟩ := split_at_token h hp
  rw [hcs, hoffset, List.getElem?_append_right (Nat.le_add_right _ _), Nat.add_sub_cancel_left,
    List.getElem?_append_left hi]

/-- No place is in the spans of two tokens. -/
theorem eq_of_covers {p q : Placed} (hp : p ∈ placed) (hq : q ∈ placed) {i : Nat}
    (hpi : p.covers i) (hqi : q.covers i) : p = q := by
  have apart {p q : Placed} (hle : p.stop ≤ q.offset) (hpi : p.covers i) (hqi : q.covers i) :
      False :=
    Nat.lt_irrefl i (Nat.lt_of_lt_of_le hpi.2 (Nat.le_trans hle hqi.1))
  have hordered := ordered_of_scanFrom h
  have hforth : placed.Pairwise fun p q => p.covers i → q.covers i → p = q :=
    hordered.imp fun hle hpi hqi => (apart hle hpi hqi).elim
  have hback : placed.Pairwise fun q p => p.covers i → q.covers i → p = q :=
    hordered.imp fun hle hpi hqi => (apart hle hqi hpi).elim
  exact List.Pairwise.forall_of_forall_of_flip (fun _ _ _ _ => rfl) hforth hback hp hq hpi hqi

end Scan

/-! ### The depth of parentheses -/

/-- The number of parentheses that tokens open and do not close. -/
def depthBehind (ts : List Token) : Int := ts.foldl depthAfter 0

theorem foldl_depthAfter {depth inner : Nat} {ts : List Token}
    (h : depthThrough? depth ts = some inner) : ts.foldl depthAfter depth = inner := by
  induction ts generalizing depth with
  | nil =>
    cases h
    rfl
  | cons t ts ih =>
    obtain ⟨next, hnext, h⟩ := Option.bind_eq_some_iff.mp h
    rw [List.foldl_cons, depthAfter_of_depthBehind? hnext]
    exact ih h

/-- Behind no tokens at the front of closed ones the depth is below zero. -/
theorem depthBehind_nonneg {ts front : List Token} (h : depthThrough? 0 ts = some 0)
    (hfront : front <+: ts) : 0 ≤ depthBehind front := by
  obtain ⟨back, rfl⟩ := hfront
  rw [depthThrough?_append] at h
  obtain ⟨inner, hinner, _⟩ := Option.bind_eq_some_iff.mp h
  have hdepth : depthBehind front = inner := foldl_depthAfter hinner
  rw [hdepth]
  exact Int.natCast_nonneg inner

theorem depthThrough?_of_scan {cs : List Char} {placed : List Placed} (h : scan cs = .ok placed) :
    depthThrough? 0 (placed.map (·.token)) = some 0 := by
  have htokens : tokenize cs = .ok (placed.map (·.token)) := by
    rw [tokenize, h]
    rfl
  exact depthThrough?_of_tokensFrom (tokenize_eq_ok_iff.mp htokens)

/-! ### The inside of a literal -/

/-- A text with each quote of it written twice. -/
def doubled (q : Char) (cs : List Char) : List Char :=
  cs.flatMap fun c => if c = q then [q, q] else [c]

theorem doubled_cons_quote (q : Char) (cs : List Char) :
    doubled q (q :: cs) = q :: q :: doubled q cs := by
  simp [doubled]

theorem doubled_cons_of_ne {q c : Char} (hc : c ≠ q) (cs : List Char) :
    doubled q (c :: cs) = c :: doubled q cs := by
  simp [doubled, hc]

theorem doubled_of_not_mem {q : Char} {cs : List Char} (h : q ∉ cs) : doubled q cs = cs := by
  induction cs with
  | nil => rfl
  | cons c cs ih =>
    rw [doubled_cons_of_ne (List.ne_of_not_mem_cons h).symm, ih (List.not_mem_of_not_mem_cons h)]

/-- The quotes inside a literal are doubled ones. -/
theorem doubled_of_literalBody? {q : Char} {r body : List Char}
    (h : literalBody? q r = some body) : ∃ plain, body = doubled q plain := by
  fun_induction literalBody? q r generalizing body with
  | case1 => cases h
  | case2 =>
    cases h
    exact ⟨[], rfl⟩
  | case3 => cases h
  | case4 r ih =>
    obtain ⟨inner, hinner, rfl⟩ := Option.map_eq_some_iff.mp h
    obtain ⟨plain, rfl⟩ := ih hinner
    exact ⟨q :: plain, (doubled_cons_quote q plain).symm⟩
  | case5 =>
    cases h
    exact ⟨[], rfl⟩
  | case6 c d r hc ih =>
    obtain ⟨inner, hinner, rfl⟩ := Option.map_eq_some_iff.mp h
    obtain ⟨plain, rfl⟩ := ih hinner
    exact ⟨c :: plain, (doubled_cons_of_ne hc plain).symm⟩

/-- A token of a text that is a literal was read behind its opening quote. -/
theorem literalBody?_of_firstToken? {c : Char} {r body : List Char} {quote : Quote}
    (h : firstToken? c r = some (.literal quote body)) :
    c = quote.char ∧ literalBody? quote.char r = some body := by
  cases isFirst_of_firstToken? h with
  | literal hc hbody => exact ⟨hc, hbody⟩
  | punctuation ht =>
    have hmark := punctuation?_eq_some ht
    simp at hmark

/-! ### All of a text -/

/-- What the tokens of a text say about each of its characters. -/
structure AccountsFor (cs : List Char) (placed : List Placed) : Prop where
  /-- The spans come in order and do not overlap. -/
  ordered : placed.Pairwise fun p q => p.stop ≤ q.offset
  /-- In the span of a token stands what is written for it. -/
  spans : ∀ p ∈ placed, p.offset < p.stop ∧ cs.extract p.offset p.stop = p.token.written
  /-- In front of the spans, between them and behind them is white space. -/
  blanks : ∀ i c, cs[i]? = some c → (∀ p ∈ placed, ¬p.covers i) → isBlank c = true
  /-- No parenthesis is closed that is not open. -/
  nonneg : ∀ front, front <+: placed → 0 ≤ depthBehind (front.map (·.token))
  /-- Every parenthesis is closed. -/
  closed : depthBehind (placed.map (·.token)) = 0
  /-- Inside a literal its quote is doubled. -/
  quotes : ∀ p ∈ placed, ∀ quote body, p.token = .literal quote body →
    ∃ plain, body = doubled quote.char plain

/-- The lexer ignores nothing but white space. -/
theorem tokens_account_for_text {cs : List Char} {placed : List Placed}
    (h : scan cs = .ok placed) : AccountsFor cs placed where
  ordered := ordered_of_scanFrom h
  spans p hp := ⟨offset_lt_stop h hp, extract_span h hp⟩
  blanks := by
    intro i c hc hnone
    cases hblank : isBlank c with
    | true => rfl
    | false =>
      obtain ⟨p, hp, hcovers⟩ := covered_of_scan h hc hblank
      exact absurd hcovers (hnone p hp)
  nonneg := by
    intro front hfront
    exact depthBehind_nonneg (depthThrough?_of_scan h) (hfront.map (·.token))
  closed := foldl_depthAfter (depthThrough?_of_scan h)
  quotes := by
    intro p hp quote body hliteral
    obtain ⟨_, _, front, c, r, _, hstands⟩ := standsAt_of_mem h hp
    have htoken := hstands.token
    rw [hliteral] at htoken
    exact doubled_of_literalBody? (literalBody?_of_firstToken? htoken).2

/-- A text with quotes inside quotes, and tokens with and without blanks between them. -/
def crowdedText : List Char :=
  " COUNT(\x60a b\x60.id)>=1.5 AND note='it''s \"so\"'\n".toList

/-- The tokens of `crowdedText` with their places. -/
def crowdedTokens : List Placed :=
  [⟨1, .word "COUNT".toList⟩, ⟨6, .lparen⟩, ⟨7, .quotedName "a b".toList⟩, ⟨12, .dot⟩,
    ⟨13, .word "id".toList⟩, ⟨15, .rparen⟩, ⟨16, .operator .ge⟩, ⟨18, .number "1.5".toList⟩,
    ⟨22, .word "AND".toList⟩, ⟨26, .word "note".toList⟩, ⟨30, .operator .eq⟩,
    ⟨31, .literal .single "it''s \"so\"".toList⟩]

theorem scan_crowdedText : scan crowdedText = .ok crowdedTokens := by
  unfold crowdedText
  rewrite [String.toList_ofList]
  decide +kernel

theorem crowdedTokens_account_for_text :
    scan crowdedText = .ok crowdedTokens ∧ AccountsFor crowdedText crowdedTokens :=
  ⟨scan_crowdedText, tokens_account_for_text scan_crowdedText⟩

end Sql
end QueryGate
