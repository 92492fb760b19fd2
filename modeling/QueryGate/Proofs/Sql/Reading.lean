import QueryGate.Proofs.Text.Blank

/-!
# Reading a text piece by piece

`tokensFrom` forgets the places of tokens and the reasons of faults, so a text can be read from any
place in it.  A blank ends every token outside quotes: a text that can be read alone is read in the
same way when a blank and more text follow, and the tokens of both are put together.
-/

namespace QueryGate
namespace Sql

open Text

/-- The quoted name after an opening quote, if it ends and is one. -/
def quotedName? (r : List Char) : Option Token :=
  let name := r.takeWhile (· != Token.nameQuote)
  if name.length = r.length ∨ name.all isBlank then none else some (.quotedName name)

/-- The operator or punctuation that starts a text. -/
def symbol? (c : Char) (r : List Char) : Option Token :=
  ((operatorAt? (c :: r)).map Token.operator).or (punctuation? c)

/-- The token that starts a text, if one does. -/
def firstToken? (c : Char) (r : List Char) : Option Token :=
  if c = Token.nameQuote then quotedName? r
  else if c = '\'' then (literalBody? '\'' r).map (.literal .single)
  else if c = '"' then (literalBody? '"' r).map (.literal .double)
  else if isAsciiDigit c then some (.number (numberAt (c :: r)))
  else if isWordStart c then some (.word (c :: r.takeWhile isWordPart))
  else symbol? c r

/-- The depth behind a token, unless it closes a parenthesis that is not open. -/
def depthBehind? (depth : Nat) (t : Token) : Option Nat :=
  if t = .rparen ∧ depth = 0 then none
  else some (if t = .lparen then depth + 1 else if t = .rparen then depth - 1 else depth)

theorem depthBehind?_add {depth inner more : Nat} {t : Token}
    (h : depthBehind? depth t = some inner) : depthBehind? (depth + more) t = some (inner + more) := by
  unfold depthBehind? at h ⊢
  grind

/-- What a token leaves of the text behind its first character. -/
def behind (t : Token) (r : List Char) : List Char := r.drop (t.written.length - 1)

theorem behind_length_le (t : Token) (r : List Char) : (behind t r).length ≤ r.length :=
  (List.drop_sublist _ _).length_le

/-- The tokens of a text inside `depth` parentheses, all of which it closes. -/
def tokensFrom (depth : Nat) : List Char → Option (List Token)
  | [] => if depth = 0 then some [] else none
  | c :: r =>
    if isBlank c then tokensFrom depth r
    else
      match firstToken? c r with
      | none => none
      | some t =>
        match depthBehind? depth t with
        | none => none
        | some inner => (tokensFrom inner (behind t r)).map (t :: ·)
  termination_by cs => cs.length
  decreasing_by
    · exact Nat.lt_succ_self _
    · exact Nat.lt_succ_of_le (behind_length_le _ _)

theorem tokenAt_toOption (offset : Nat) (c : Char) (r : List Char) :
    (tokenAt offset c r).toOption = firstToken? c r := by
  unfold tokenAt firstToken?
  by_cases h1 : c = Token.nameQuote
  · simp only [h1, ↓reduceIte, quotedNameAt, quotedName?]
    split
    · simp_all [Except.toOption]
    · split <;> simp_all [Except.toOption]
  by_cases h2 : c = '\''
  · simp only [h2, literalAt]
    cases h : literalBody? Quote.single.char r <;>
      simp_all [Except.toOption, Quote.char, Token.nameQuote]
  by_cases h3 : c = '"'
  · simp only [h3, literalAt]
    cases h : literalBody? Quote.double.char r <;>
      simp_all [Except.toOption, Quote.char, Token.nameQuote]
  simp only [h1, h2, h3, ↓reduceIte, symbol?]
  split
  · rfl
  split
  · rfl
  cases operatorAt? (c :: r) with
  | some op => rfl
  | none => cases punctuation? c <;> rfl

theorem tokensFrom_nil (depth : Nat) :
    tokensFrom depth [] = if depth = 0 then some [] else none := by
  rw [tokensFrom.eq_def]

theorem tokensFrom_blank {depth : Nat} {c : Char} {r : List Char} (h : isBlank c = true) :
    tokensFrom depth (c :: r) = tokensFrom depth r := by
  rw [tokensFrom.eq_def]
  exact if_pos h

/-- Reading goes on behind the first token. -/
theorem tokensFrom_token {depth : Nat} {c : Char} {r : List Char} (h : isBlank c = false) :
    tokensFrom depth (c :: r) =
      (firstToken? c r).bind fun t =>
        (depthBehind? depth t).bind fun inner => (tokensFrom inner (behind t r)).map (t :: ·) := by
  rw [tokensFrom.eq_def]
  simp only [h, Bool.false_eq_true, ↓reduceIte]
  cases firstToken? c r with
  | none => rfl
  | some t => cases h : depthBehind? depth t <;> simp [h]

/-- Reading goes on behind a known token. -/
theorem tokensFrom_step {depth inner : Nat} {c : Char} {r rest : List Char} {t : Token}
    (ht : firstToken? c r = some t) (hrest : behind t r = rest) (hc : isBlank c = false)
    (hinner : depthBehind? depth t = some inner) :
    tokensFrom depth (c :: r) = (tokensFrom inner rest).map (t :: ·) := by
  rw [tokensFrom_token hc, ht, Option.bind_some, hinner, Option.bind_some, hrest]

theorem scanFrom_toOption (offset depth : Nat) (cs : List Char) :
    ((scanFrom offset depth cs).toOption.map fun placed => placed.map (·.token)) =
      tokensFrom depth cs := by
  have first {offset c r} (t? : Except SyntaxFault Token) (h : tokenAt offset c r = t?) :
      firstToken? c r = t?.toOption := h ▸ (tokenAt_toOption offset c r).symm
  fun_induction scanFrom offset depth cs with
  | case1 => rw [tokensFrom_nil]; rfl
  | case2 offset depth h => rw [tokensFrom_nil, if_neg h]; rfl
  | case3 offset depth c r h ih => rw [tokensFrom_blank h, ih]
  | case4 offset depth c r h fault ht =>
    rw [tokensFrom_token (by simpa using h), first _ ht]
    rfl
  | case5 offset depth c r h t ht hclose =>
    rw [tokensFrom_token (by simpa using h), first _ ht]
    simp [Except.toOption, depthBehind?, hclose]
  | case6 offset depth c r h t ht hclose inner fault hr ih =>
    rw [hr] at ih
    rw [tokensFrom_token (by simpa using h), first _ ht]
    simp only [Except.toOption, depthBehind?, if_neg hclose, Option.bind_some]
    exact (congrArg (Option.map (t :: ·)) ih.symm).symm
  | case7 offset depth c r h t ht hclose inner more hr ih =>
    rw [hr] at ih
    rw [tokensFrom_token (by simpa using h), first _ ht]
    simp only [Except.toOption, depthBehind?, if_neg hclose, Option.bind_some]
    exact (congrArg (Option.map (t :: ·)) ih.symm).symm

theorem tokenize_eq_ok_iff {cs : List Char} {ts : List Token} :
    tokenize cs = .ok ts ↔ tokensFrom 0 cs = some ts := by
  rw [← scanFrom_toOption 0 0 cs]
  unfold tokenize scan
  cases scanFrom 0 0 cs <;> simp [Except.map, Except.toOption]

/-! ### The written form of a token -/

theorem literalBody?_eq {q : Char} {r body : List Char} (h : literalBody? q r = some body) :
    ∃ rest, r = body ++ q :: rest := by
  fun_induction literalBody? q r generalizing body with
  | case1 => cases h
  | case2 => cases h; exact ⟨[], rfl⟩
  | case3 => cases h
  | case4 r ih =>
    obtain ⟨inner, hi, rfl⟩ := Option.map_eq_some_iff.mp h
    obtain ⟨rest, rfl⟩ := ih hi
    exact ⟨rest, rfl⟩
  | case5 d r => cases h; exact ⟨d :: r, rfl⟩
  | case6 c d r _ ih =>
    obtain ⟨inner, hi, rfl⟩ := Option.map_eq_some_iff.mp h
    obtain ⟨rest, hr⟩ := ih hi
    exact ⟨rest, by rw [hr]; rfl⟩

theorem numberAt_eq (cs : List Char) : ∃ rest, cs = numberAt cs ++ rest := by
  have hsplit := List.takeWhile_append_dropWhile (p := isAsciiDigit) (l := cs)
  unfold numberAt
  simp only
  split
  · rename_i r hr
    split
    · exact ⟨_, hsplit.symm⟩
    · refine ⟨r.dropWhile isAsciiDigit, ?_⟩
      rw [List.append_assoc, List.cons_append, List.takeWhile_append_dropWhile, ← hr, hsplit]
  · exact ⟨_, hsplit.symm⟩

theorem numberAt_ne_nil {c : Char} {r : List Char} (h : isAsciiDigit c = true) :
    numberAt (c :: r) ≠ [] := by
  unfold numberAt
  simp only [List.takeWhile_cons_of_pos h]
  split
  · split <;> simp
  · simp

theorem operatorAt?_eq {cs : List Char} {op : Operator} (h : operatorAt? cs = some op) :
    ∃ rest, cs = op.chars ++ rest := by
  unfold operatorAt? at h
  split at h <;> cases h <;> exact ⟨_, rfl⟩

theorem punctuation?_eq {c : Char} {t : Token} (h : punctuation? c = some t) : t.written = [c] := by
  unfold punctuation? at h
  split at h <;> cases h <;> rfl

theorem punctuation?_eq_some {c : Char} {t : Token} (h : punctuation? c = some t) :
    t ∈ [.star, .comma, .dot, .lparen, .rparen] := by
  unfold punctuation? at h
  split at h <;> cases h <;> decide

theorem quotedName?_eq {r : List Char} {t : Token} (h : quotedName? r = some t) :
    ∃ name rest, t = .quotedName name ∧ r = name ++ Token.nameQuote :: rest := by
  unfold quotedName? at h
  simp only [Option.ite_none_left_eq_some, not_or, Option.some.injEq] at h
  obtain ⟨⟨hlen, _⟩, rfl⟩ := h
  have hsplit := List.takeWhile_append_dropWhile (p := (· != Token.nameQuote)) (l := r)
  cases hd : r.dropWhile (· != Token.nameQuote) with
  | nil =>
    rw [hd, List.append_nil] at hsplit
    exact absurd (congrArg List.length hsplit) hlen
  | cons d rest =>
    have hq : d = Token.nameQuote := by
      have := List.head?_dropWhile_not (· != Token.nameQuote) r
      simpa [hd] using this
    rw [hd, hq] at hsplit
    exact ⟨_, rest, rfl, hsplit.symm⟩

/-- The token at the front of a text, whose first character is given apart. -/
inductive IsFirst (c : Char) (r : List Char) : Token → Prop where
  | quotedName {name rest : List Char} (hc : c = Token.nameQuote)
      (hr : r = name ++ Token.nameQuote :: rest) : IsFirst c r (.quotedName name)
  | literal {quote : Quote} {body : List Char} (hc : c = quote.char)
      (hbody : literalBody? quote.char r = some body) : IsFirst c r (.literal quote body)
  | number (hc : isAsciiDigit c = true) : IsFirst c r (.number (numberAt (c :: r)))
  | word (hc : isWordStart c = true) : IsFirst c r (.word (c :: r.takeWhile isWordPart))
  | operator {op : Operator} (hop : operatorAt? (c :: r) = some op) : IsFirst c r (.operator op)
  | punctuation {t : Token} (ht : punctuation? c = some t) : IsFirst c r t

theorem isFirst_of_firstToken? {c : Char} {r : List Char} {t : Token}
    (h : firstToken? c r = some t) : IsFirst c r t := by
  unfold firstToken? at h
  split at h
  · rename_i hc
    obtain ⟨name, rest, rfl, hr⟩ := quotedName?_eq h
    exact .quotedName hc hr
  split at h
  · rename_i hc
    obtain ⟨body, hbody, rfl⟩ := Option.map_eq_some_iff.mp h
    exact .literal hc hbody
  split at h
  · rename_i hc
    obtain ⟨body, hbody, rfl⟩ := Option.map_eq_some_iff.mp h
    exact .literal hc hbody
  split at h
  · rename_i hc
    cases h
    exact .number hc
  split at h
  · rename_i hc
    cases h
    exact .word hc
  · rcases Option.or_eq_some_iff.mp h with h | ⟨_, h⟩
    · obtain ⟨op, hop, rfl⟩ := Option.map_eq_some_iff.mp h
      exact .operator hop
    · exact .punctuation h

/-- A token is written as it stands in the text. -/
theorem written_append_of_firstToken? {c : Char} {r : List Char} {t : Token}
    (h : firstToken? c r = some t) : t.written ≠ [] ∧ ∃ rest, c :: r = t.written ++ rest := by
  cases isFirst_of_firstToken? h with
  | @quotedName name rest hc hr =>
    exact ⟨by simp [Token.written], rest, by simp [Token.written, hc, hr]⟩
  | literal hc hbody =>
    obtain ⟨rest, hr⟩ := literalBody?_eq hbody
    exact ⟨by simp [Token.written], rest, by simp [Token.written, hc, hr]⟩
  | number hc => exact ⟨numberAt_ne_nil hc, numberAt_eq (c :: r)⟩
  | word =>
    exact ⟨by simp [Token.written], r.dropWhile isWordPart,
      by simp [Token.written, List.takeWhile_append_dropWhile]⟩
  | @operator op hop => exact ⟨by cases op <;> simp [Token.written, Operator.chars], operatorAt?_eq hop⟩
  | punctuation ht => exact ⟨by simp [punctuation?_eq ht], r, by rw [punctuation?_eq ht]; rfl⟩

/-- A token and what it leaves make up the text. -/
theorem written_append_behind {c : Char} {r : List Char} {t : Token}
    (h : firstToken? c r = some t) : t.written ++ behind t r = c :: r := by
  obtain ⟨hne, rest, hr⟩ := written_append_of_firstToken? h
  obtain ⟨d, more, hw⟩ := List.exists_cons_of_ne_nil hne
  rw [hw, List.cons_append, List.cons.injEq] at hr
  unfold behind
  rw [hw, hr.1, hr.2]
  simp

theorem written_length_le {c : Char} {r : List Char} {t : Token} (h : firstToken? c r = some t) :
    t.written.length - 1 ≤ r.length := by
  have hlen := congrArg List.length (written_append_behind h)
  simp only [List.length_append, List.length_cons] at hlen
  omega

/-- Every token of a text was the first one of what was left of it. -/
theorem firstToken?_of_mem {depth : Nat} {cs : List Char} {ts : List Token}
    (h : tokensFrom depth cs = some ts) {t : Token} (ht : t ∈ ts) :
    ∃ c r, firstToken? c r = some t := by
  fun_induction tokensFrom depth cs generalizing ts with
  | case1 =>
    cases h
    cases ht
  | case3 depth c r hc ih => exact ih h ht
  | case6 depth c r hc first hfirst inner hinner ih =>
    obtain ⟨more, hmore, rfl⟩ := Option.map_eq_some_iff.mp h
    rcases List.mem_cons.mp ht with rfl | ht
    · exact ⟨c, r, hfirst⟩
    · exact ih hmore ht
  | _ => cases h

/-! ### Text behind a blank -/

section BreaksOff

variable {b : List Char} (hb : breaksOff b = true)
include hb

theorem literalBody?_append {q : Char} (hq : isBlank q = false) {r body : List Char}
    (h : literalBody? q r = some body) : literalBody? q (r ++ b) = some body := by
  fun_induction literalBody? q r generalizing body with
  | case1 => cases h
  | case2 =>
    cases h
    cases b with
    | nil => simp [literalBody?]
    | cons d b => simp [literalBody?, ne_of_isBlank (isBlank_of_breaksOff hb) hq]
  | case3 => cases h
  | case4 r ih =>
    obtain ⟨inner, hi, rfl⟩ := Option.map_eq_some_iff.mp h
    simp [literalBody?, ih hi]
  | case5 d r hd => simpa [literalBody?, hd] using h
  | case6 c d r hc ih =>
    obtain ⟨inner, hi, rfl⟩ := Option.map_eq_some_iff.mp h
    simpa [literalBody?, hc] using ih hi

omit hb in
theorem quotedName?_append {r : List Char} {t : Token} (h : quotedName? r = some t) :
    quotedName? (r ++ b) = some t := by
  unfold quotedName? at h ⊢
  simp only [Option.ite_none_left_eq_some, not_or, Option.some.injEq] at h
  obtain ⟨⟨hlen, hblank⟩, rfl⟩ := h
  rw [List.takeWhile_append, if_neg hlen]
  have hle := (List.takeWhile_sublist (· != Token.nameQuote) (l := r)).length_le
  simp only [List.length_append]
  rw [if_neg]
  rintro (hl | hl)
  · omega
  · exact hblank hl

theorem numberAt_append (cs : List Char) : numberAt (cs ++ b) = numberAt cs := by
  have hdigit : ∀ c, isBlank c = true → isAsciiDigit c = false :=
    fun c => not_isAsciiDigit_of_isBlank
  unfold numberAt
  rw [takeWhile_append_of_breaksOff hdigit hb, dropWhile_append_of_breaksOff hdigit hb]
  cases hd : cs.dropWhile isAsciiDigit with
  | nil =>
    cases b with
    | nil => rfl
    | cons c b =>
      have hc : c ≠ '.' := ne_of_isBlank (isBlank_of_breaksOff hb) (by decide)
      simp [hc]
  | cons c r =>
    by_cases hc : c = '.'
    · subst hc
      simp only [List.cons_append, takeWhile_append_of_breaksOff hdigit hb]
    · simp [hc]

omit hb in
/-- Of a text only the first two characters matter to an operator. -/
theorem operatorAt?_cons (c : Char) (r : List Char) :
    operatorAt? (c :: r) =
      if r.head? = some '=' ∧ c = '<' then some .le
      else if r.head? = some '=' ∧ c = '>' then some .ge
      else if r.head? = some '>' ∧ c = '<' then some .ltGt
      else if r.head? = some '=' ∧ c = '!' then some .notEq
      else operatorAt? [c] := by
  rcases r with _ | ⟨d, r⟩
  · simp
  by_cases hd : d = '='
  · subst hd
    by_cases hlt : c = '<'
    · subst hlt; rfl
    by_cases hgt : c = '>'
    · subst hgt; rfl
    by_cases hnot : c = '!'
    · subst hnot; rfl
    simp only [List.head?_cons, hlt, hgt, hnot, and_false, ↓reduceIte]
    unfold operatorAt?
    split <;> simp_all
  by_cases hd' : d = '>'
  · subst hd'
    by_cases hlt : c = '<'
    · subst hlt; rfl
    simp only [List.head?_cons, hlt, and_false, ↓reduceIte, Option.some.injEq, hd, false_and]
    unfold operatorAt?
    split <;> simp_all
  · simp only [List.head?_cons, Option.some.injEq, hd, hd', false_and, ↓reduceIte]
    unfold operatorAt?
    split <;> simp_all

theorem head?_append_of_breaksOff {d : Char} (hd : isBlank d = false) (r : List Char) :
    (r ++ b).head? = some d ↔ r.head? = some d := by
  cases r with
  | cons c r => rfl
  | nil =>
    cases b with
    | nil => rfl
    | cons c b => simp [ne_of_isBlank (isBlank_of_breaksOff hb) hd]

theorem operatorAt?_append (c : Char) (r : List Char) :
    operatorAt? (c :: (r ++ b)) = operatorAt? (c :: r) := by
  rw [operatorAt?_cons, operatorAt?_cons c r]
  simp only [head?_append_of_breaksOff hb (d := '=') (by decide),
    head?_append_of_breaksOff hb (d := '>') (by decide)]

/-- A blank and what follows it do not change the token in front. -/
theorem firstToken?_append {c : Char} {r : List Char} {t : Token} (h : firstToken? c r = some t) :
    firstToken? c (r ++ b) = some t := by
  unfold firstToken? at h ⊢
  by_cases h1 : c = Token.nameQuote
  · rw [if_pos h1] at h ⊢
    exact quotedName?_append h
  rw [if_neg h1] at h ⊢
  by_cases h2 : c = '\''
  · rw [if_pos h2] at h ⊢
    obtain ⟨body, hbody, rfl⟩ := Option.map_eq_some_iff.mp h
    rw [literalBody?_append hb (by decide) hbody]
    rfl
  rw [if_neg h2] at h ⊢
  by_cases h3 : c = '"'
  · rw [if_pos h3] at h ⊢
    obtain ⟨body, hbody, rfl⟩ := Option.map_eq_some_iff.mp h
    rw [literalBody?_append hb (by decide) hbody]
    rfl
  rw [if_neg h3, ← List.cons_append, numberAt_append hb,
    takeWhile_append_of_breaksOff (fun c => not_isWordPart_of_isBlank) hb]
  rw [if_neg h3] at h
  unfold symbol? at h ⊢
  rwa [operatorAt?_append hb]

omit hb in
theorem behind_append {c : Char} {r : List Char} {t : Token} (h : firstToken? c r = some t) :
    behind t (r ++ b) = behind t r ++ b :=
  List.drop_append_of_le_length (written_length_le h)

/-- What follows a text behind a blank is read inside the parentheses that the text is in. -/
theorem tokensFrom_append {depth inner : Nat} {a : List Char} {ts : List Token}
    (ha : tokensFrom depth a = some ts) :
    tokensFrom (depth + inner) (a ++ b) = (tokensFrom inner b).map (ts ++ ·) := by
  fun_induction tokensFrom depth a generalizing ts with
  | case1 =>
    cases ha
    simp
  | case3 depth c r hc ih =>
    rw [List.cons_append, tokensFrom_blank hc]
    exact ih ha
  | case6 depth c r hc t ht next hnext ih =>
    obtain ⟨more, hmore, rfl⟩ := Option.map_eq_some_iff.mp ha
    have hfirst := firstToken?_append hb ht
    rw [List.cons_append, tokensFrom_step hfirst (behind_append ht) (by simpa using hc)
      (depthBehind?_add hnext), ih hmore, Option.map_map]
    rfl
  | _ => cases ha

end BreaksOff

end Sql
end QueryGate
