import QueryGate.Proofs.Sql.Reading
import QueryGate.Proofs.Text.Case

/-!
# Places of tokens

A token starts at the start of a text, behind a blank, or right where the token before it ends.
Behind it comes a blank, the next token or the end of the text.
-/

namespace QueryGate
namespace Sql

open Text

def readsOn (cs : List Char) : Prop :=
  ∀ c r, cs = c :: r → isBlank c = true ∨ ∃ t, firstToken? c r = some t

theorem firstToken?_of_tokenAt {offset : Nat} {c : Char} {r : List Char} {t : Token}
    (h : tokenAt offset c r = .ok t) : firstToken? c r = some t := by
  rw [← tokenAt_toOption offset, h]
  rfl

theorem readsOn_of_scanFrom {offset depth : Nat} {cs : List Char} {placed : List Placed}
    (h : scanFrom offset depth cs = .ok placed) : readsOn cs := by
  rintro c r rfl
  have htokens := scanFrom_toOption offset depth (c :: r)
  rw [h] at htokens
  cases hc : isBlank c with
  | true => exact Or.inl rfl
  | false =>
    rw [tokensFrom_token hc] at htokens
    obtain ⟨t, ht, _⟩ := Option.bind_eq_some_iff.mp htokens.symm
    exact Or.inr ⟨t, ht⟩

/-- What is in front of a token that starts at the front of `rest`, where `before` are the tokens
before it. -/
inductive StartsBehind (before : List Placed) (front rest : List Char) (offset : Nat) : Prop where
  | blank (h : ∀ b, front.getLast? = some b → isBlank b = true)
  | token {n : Placed} {d : Char} {s : List Char} (hlast : before.getLast? = some n)
      (hn : firstToken? d s = some n.token) (hrest : behind n.token s = rest)
      (hfront : n.token.written <:+ front) (hoffset : n.offset + n.token.written.length = offset)

/-- The place of a token in a text whose first character has the place `offset`. -/
structure StandsAt (offset : Nat) (cs : List Char) (before : List Placed) (p : Placed)
    (front : List Char) (c : Char) (r : List Char) : Prop where
  text : cs = front ++ c :: r
  place : p.offset = offset + front.length
  token : firstToken? c r = some p.token
  next : readsOn (behind p.token r)
  first : front = [] → before = []
  start : StartsBehind before front (c :: r) p.offset

theorem getLast?_cons_of_some {α : Type} {x y : α} {xs : List α} (h : xs.getLast? = some y) :
    (x :: xs).getLast? = some y := by
  rw [List.getLast?_cons, h]
  rfl

/-- A blank in front of a text moves its tokens by one. -/
theorem StandsAt.behind_blank {offset : Nat} {b : Char} {cs : List Char} {before : List Placed}
    {p : Placed} {front : List Char} {c : Char} {r : List Char} (hb : isBlank b = true)
    (h : StandsAt (offset + 1) cs before p front c r) :
    StandsAt offset (b :: cs) before p (b :: front) c r where
  text := by rw [h.text]; rfl
  place := by rw [h.place, List.length_cons]; omega
  token := h.token
  next := h.next
  first := nofun
  start := by
    cases h.start with
    | token hlast hn hrest hfront hoffset =>
      exact .token hlast hn hrest (hfront.trans (List.suffix_cons b front)) hoffset
    | blank hfront =>
      apply StartsBehind.blank
      intro d hd
      cases hlast : front.getLast? with
      | none =>
        rw [List.getLast?_eq_none_iff.mp hlast] at hd
        cases hd
        exact hb
      | some e =>
        rw [getLast?_cons_of_some hlast] at hd
        exact hfront d (hlast.trans hd)

/-- A token in front of a text moves its tokens by what is written for it. -/
theorem StandsAt.behind_token {offset : Nat} {b : Char} {cs : List Char} {t : Token}
    {before : List Placed} {p : Placed} {front : List Char} {c : Char} {r : List Char}
    (ht : firstToken? b cs = some t)
    (h : StandsAt (offset + t.written.length) (behind t cs) before p front c r) :
    StandsAt offset (b :: cs) (⟨offset, t⟩ :: before) p (t.written ++ front) c r where
  text := by rw [← written_append_behind ht, h.text, List.append_assoc]
  place := by rw [h.place, List.length_append]; omega
  token := h.token
  next := h.next
  first := by
    intro hnil
    exact absurd (List.append_eq_nil_iff.mp hnil).1 (written_append_of_firstToken? ht).1
  start := by
    cases h.start with
    | token hlast hn hrest hfront hoffset =>
      exact .token (getLast?_cons_of_some hlast) hn hrest
        (hfront.trans (List.suffix_append _ _)) hoffset
    | blank hfront =>
      cases hlast : front.getLast? with
      | none =>
        -- Nothing is between the two tokens.
        have hnil := List.getLast?_eq_none_iff.mp hlast
        have hplace := h.place
        have htext := h.text
        rw [hnil] at hplace htext
        rw [hnil, List.append_nil, h.first hnil]
        exact .token rfl ht htext List.suffix_rfl hplace.symm
      | some e =>
        apply StartsBehind.blank
        intro d hd
        rw [List.getLast?_append, hlast] at hd
        exact hfront d (hlast.trans hd)

theorem standsAt_of_scanFrom {offset depth : Nat} {cs : List Char} {placed : List Placed}
    (h : scanFrom offset depth cs = .ok placed) {before after : List Placed} {p : Placed}
    (hp : placed = before ++ p :: after) :
    ∃ front c r, StandsAt offset cs before p front c r := by
  fun_induction scanFrom offset depth cs generalizing placed before with
  | case1 =>
    cases h
    simp at hp
  | case3 offset depth b cs hb ih =>
    obtain ⟨front, c, r, hstands⟩ := ih h hp
    exact ⟨b :: front, c, r, hstands.behind_blank hb⟩
  | case7 offset depth b cs hb t ht hclose inner more hmore =>
    rename_i ih
    cases h
    have hfirst := firstToken?_of_tokenAt ht
    cases before with
    | nil =>
      cases hp
      exact ⟨[], b, cs, rfl, rfl, hfirst, readsOn_of_scanFrom hmore, fun _ => rfl, .blank (by simp)⟩
    | cons n before =>
      rw [List.cons_append, List.cons.injEq] at hp
      obtain ⟨rfl, hp⟩ := hp
      obtain ⟨front, c, r, hstands⟩ := ih hmore hp
      exact ⟨t.written ++ front, c, r, hstands.behind_token hfirst⟩
  | _ => cases h

/-- Every token of a text has its place in it. -/
theorem standsAt_of_scan {cs : List Char} {before after : List Placed} {p : Placed}
    (h : scan cs = .ok (before ++ p :: after)) : ∃ front c r, StandsAt 0 cs before p front c r :=
  standsAt_of_scanFrom h rfl

/-! ### The characters around a token -/

theorem toNat_lt_of_isWordPart {c : Char} (h : isWordPart c = true) : c.toNat < 128 := by
  simp only [isWordPart, Bool.or_eq_true, beq_iff_eq] at h
  rcases h with (halnum | rfl) | rfl
  · have := toNat_of_isAlphanum halnum
    omega
  · decide
  · decide

/-- No character beyond ASCII starts a token. -/
theorem toNat_lt_of_firstToken? {c : Char} {r : List Char} {t : Token}
    (h : firstToken? c r = some t) : c.toNat < 128 := by
  cases isFirst_of_firstToken? h with
  | quotedName hc =>
    rw [hc]
    decide
  | @literal quote body hc =>
    rw [hc]
    cases quote <;> decide
  | number hc =>
    have := (isAsciiDigit_iff c).mp hc
    omega
  | word hc => exact toNat_lt_of_isWordPart (isWordPart_of_isWordStart hc)
  | @operator op hop =>
    obtain ⟨rest, hrest⟩ := operatorAt?_eq hop
    cases op <;> cases hrest <;> decide
  | punctuation ht =>
    unfold punctuation? at ht
    split at ht <;> first | decide | cases ht

theorem word_of_firstToken? {c : Char} {r letters : List Char}
    (h : firstToken? c r = some (.word letters)) :
    isWordStart c = true ∧ letters = c :: r.takeWhile isWordPart := by
  cases isFirst_of_firstToken? h with
  | word hc => exact ⟨hc, rfl⟩
  | punctuation ht =>
    have hmark := punctuation?_eq_some ht
    simp at hmark

theorem number_of_firstToken? {c : Char} {r digits : List Char}
    (h : firstToken? c r = some (.number digits)) :
    isAsciiDigit c = true ∧ digits = numberAt (c :: r) := by
  cases isFirst_of_firstToken? h with
  | number hc => exact ⟨hc, rfl⟩
  | punctuation ht =>
    have hmark := punctuation?_eq_some ht
    simp at hmark

theorem isWordPart_of_word {c : Char} {r letters : List Char}
    (h : firstToken? c r = some (.word letters)) : ∀ d ∈ letters, isWordPart d = true := by
  obtain ⟨hstart, rfl⟩ := word_of_firstToken? h
  intro d hd
  rcases List.mem_cons.mp hd with rfl | hd
  · exact isWordPart_of_isWordStart hstart
  · exact List.all_eq_true.mp List.all_takeWhile d hd

theorem isWordPart_eq {c : Char} (h : c.toNat < 128) :
    isWordPart c = (isWordChar c || c == '$') := by
  rw [isWordChar, if_pos h]
  rfl

/-- A word goes on as long as it can. -/
theorem behind_word {c : Char} {r letters : List Char}
    (h : firstToken? c r = some (.word letters)) :
    behind (.word letters) r = r.dropWhile isWordPart := by
  have hlength : (r.takeWhile isWordPart).length = (Token.word letters).written.length - 1 := by
    rw [(word_of_firstToken? h).2]
    simp [Token.written]
  have hdrop : (r.takeWhile isWordPart ++ r.dropWhile isWordPart).drop
      ((Token.word letters).written.length - 1) = r.dropWhile isWordPart :=
    List.drop_left' hlength
  rwa [List.takeWhile_append_dropWhile] at hdrop

theorem not_isWordPart_behind_word {c d : Char} {r s letters : List Char}
    (h : firstToken? c r = some (.word letters)) (hnext : behind (.word letters) r = d :: s) :
    isWordPart d = false := by
  have hhead := List.head?_dropWhile_not isWordPart r
  rw [← behind_word h, hnext] at hhead
  simpa using hhead

/-- A token that ends in a word character where a word starts is a number. -/
theorem number_of_isWordChar {c d : Char} {r s : List Char} {t : Token}
    (h : firstToken? d s = some t) (hnext : behind t s = c :: r) (hc : isWordStart c = true)
    (hlast : isWordChar? t.written.getLast? = true) : ∃ digits, t = .number digits := by
  have ends {a : List Char} {e : Char} (ht : t.written = a ++ [e]) (he : isWordChar e = false) :
      ∃ digits, t = .number digits := by
    rw [ht, List.getLast?_concat, isWordChar?, he] at hlast
    cases hlast
  cases t with
  | number digits => exact ⟨digits, rfl⟩
  | word letters =>
    have hpart := isWordPart_of_isWordStart hc
    rw [not_isWordPart_behind_word h hnext] at hpart
    cases hpart
  | quotedName name => exact ends (a := Token.nameQuote :: name) rfl (by decide)
  | literal quote body =>
    exact ends (a := quote.char :: body) rfl (by cases quote <;> decide)
  | operator op =>
    exfalso
    revert hlast
    cases op <;> decide
  | _ =>
    exfalso
    revert hlast
    decide

/-- Behind a word comes no word character. -/
theorem not_isWordChar_behind_word {c : Char} {r letters : List Char}
    (h : firstToken? c r = some (.word letters)) (hnext : readsOn (behind (.word letters) r)) :
    isWordChar? (behind (.word letters) r).head? = false := by
  cases hrest : behind (.word letters) r with
  | nil => rfl
  | cons d s =>
    show isWordChar d = false
    rcases hnext d s hrest with hblank | ⟨t, ht⟩
    · exact not_isWordChar_of_isBlank hblank
    · have hpart := not_isWordPart_behind_word h hrest
      rw [isWordPart_eq (toNat_lt_of_firstToken? ht), Bool.or_eq_false_iff] at hpart
      exact hpart.1

end Sql
end QueryGate
