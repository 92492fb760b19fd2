import QueryGate.Proofs.Sql.Reading
import QueryGate.Proofs.Text.LetterCase

/-!
# Reading a text in small letters

In a text in small letters the lexer finds the tokens of the text, each in small letters and at its
place, or the same fault.  A token in small letters is the same keyword and stands for the same
name.
-/

namespace QueryGate
namespace Sql

open Text

/-- The lexer takes a character and its small letter for the same. -/
theorem read_alike_toLower (c : Char) :
    c.toLower.toUpper = c.toUpper ∧ isWordStart c.toLower = isWordStart c ∧
      isWordPart c.toLower = isWordPart c ∧ operatorAt? [c.toLower] = operatorAt? [c] ∧
      punctuation? c.toLower = punctuation? c := by
  by_cases hc : c.toNat < 128
  · exact forall_ascii (p := fun c => c.toLower.toUpper = c.toUpper ∧
      isWordStart c.toLower = isWordStart c ∧ isWordPart c.toLower = isWordPart c ∧
      operatorAt? [c.toLower] = operatorAt? [c] ∧ punctuation? c.toLower = punctuation? c)
      (by decide +kernel) hc
  · have hsame : c.toLower = c := toLower_of_not_ascii (by omega)
    simp only [hsame, and_self]

/-! ### Tokens -/

namespace Token

/-- A token as it stands in the text in small letters. -/
def lowered : Token → Token
  | word letters => word (letters.map Char.toLower)
  | quotedName name => quotedName (name.map Char.toLower)
  | literal quote body => literal quote (body.map Char.toLower)
  | number digits => number (digits.map Char.toLower)
  | t => t

theorem written_lowered (t : Token) : t.lowered.written = t.written.map Char.toLower := by
  have hname : nameQuote.toLower = nameQuote := by decide
  cases t with
  | quotedName name => simp [lowered, written, hname]
  | literal quote body => cases quote <;> simp [lowered, written, Quote.char]
  | operator op => cases op <;> rfl
  | _ => rfl

theorem length_written_lowered (t : Token) : t.lowered.written.length = t.written.length := by
  rw [written_lowered, List.length_map]

theorem inner_lowered (t : Token) : t.lowered.inner = t.inner.map Char.toLower := by
  have hwritten := written_lowered t
  cases t with
  | quotedName name => rfl
  | _ => exact hwritten

theorem name_lowered (t : Token) : t.lowered.name = t.name := by
  rw [name, name, inner_lowered, lower_map_toLower]

theorem upperName_lowered (t : Token) : t.lowered.upperName = t.upperName := by
  rw [upperName, upperName, inner_lowered, upper_map_toLower]

theorem keyword?_lowered (t : Token) : t.lowered.keyword? = t.keyword? := by
  cases t with
  | word letters =>
    have hupper (c : Char) : c.toLower.toUpper = c.toUpper := (read_alike_toLower c).1
    simp [lowered, keyword?, Keyword.ofWord?, Function.comp_def, hupper]
  | _ => rfl

theorem isReserved_lowered (t : Token) : t.lowered.isReserved = t.isReserved := by
  rw [isReserved, isReserved, keyword?_lowered]

theorem isIdentifier_lowered (t : Token) : t.lowered.isIdentifier = t.isIdentifier := by
  cases t <;> rfl

theorem isPlainIdentifier_lowered (t : Token) :
    t.lowered.isPlainIdentifier = t.isPlainIdentifier := by
  rw [isPlainIdentifier, isPlainIdentifier, isIdentifier_lowered, isReserved_lowered]

/-- Whether a token has nothing but its kind. -/
def isMark : Token → Bool
  | operator _ | star | comma | dot | lparen | rparen => true
  | _ => false

theorem lowered_eq_iff {t u : Token} (hu : u.isMark = true) : t.lowered = u ↔ t = u := by
  cases t with
  | word letters | quotedName name | literal quote body | number digits =>
    constructor
    · rintro rfl
      cases hu
    · rintro rfl
      cases hu
  | _ => rfl

end Token

/-! ### The token at the front -/

section Quotes

variable {q : Char} (hq : q.isAlpha = false)
include hq

theorem literalBody?_map_toLower (r : List Char) :
    literalBody? q (r.map Char.toLower) = (literalBody? q r).map (·.map Char.toLower) := by
  have hsame := toLower_of_not_isAlpha hq
  fun_induction literalBody? q r with
  | case1 => rfl
  | case2 => simp [literalBody?, hsame]
  | case3 c hc => simp [literalBody?, toLower_eq_iff hq, hc]
  | case4 r ih => simp [literalBody?, hsame, ih, Function.comp_def]
  | case5 d r hd => simp [literalBody?, hsame, toLower_eq_iff hq, hd]
  | case6 c d r hc ih =>
    rw [List.map_cons] at ih
    simp [literalBody?, toLower_eq_iff hq, hc, ih, Function.comp_def]

theorem strayQuote_map_toLower (found next : Nat) (r : List Char) :
    strayQuote q found next (r.map Char.toLower) = strayQuote q found next r := by
  fun_induction strayQuote q found next r with
  | case1 found next c d r hcd ih =>
    simp only [List.map_cons, strayQuote, toLower_eq_iff hq, if_pos hcd, ih]
  | case2 found next c d r hcd ih =>
    rw [List.map_cons] at ih
    simp only [List.map_cons, strayQuote, toLower_eq_iff hq, if_neg hcd, ih]
  | case3 cs found next hshort =>
    rcases cs with _ | ⟨c, _ | ⟨d, r⟩⟩
    · rfl
    · rfl
    · exact absurd rfl (hshort c d r)

end Quotes

theorem literalAt_map_toLower (quote : Quote) (offset : Nat) (r : List Char) :
    literalAt quote offset (r.map Char.toLower) =
      (literalAt quote offset r).map Token.lowered := by
  have hq : quote.char.isAlpha = false := by cases quote <;> decide
  rw [literalAt, literalAt, literalBody?_map_toLower hq, strayQuote_map_toLower hq]
  cases literalBody? quote.char r <;> rfl

theorem quotedNameAt_map_toLower (offset : Nat) (r : List Char) :
    quotedNameAt offset (r.map Char.toLower) = (quotedNameAt offset r).map Token.lowered := by
  have hname : (· != Token.nameQuote) ∘ Char.toLower = (· != Token.nameQuote) := by
    funext c
    have hiff : c.toLower = Token.nameQuote ↔ c = Token.nameQuote := toLower_eq_iff (by decide)
    simp [bne, Bool.beq_eq_decide_eq, hiff]
  have hblank : isBlank ∘ Char.toLower = isBlank := funext isBlank_toLower
  simp only [quotedNameAt, List.takeWhile_map, hname, List.length_map, List.all_map, hblank]
  split
  · rfl
  split <;> rfl

theorem numberAt_map_toLower (cs : List Char) :
    numberAt (cs.map Char.toLower) = (numberAt cs).map Char.toLower := by
  have hdigit : isAsciiDigit ∘ Char.toLower = isAsciiDigit := funext isAsciiDigit_toLower
  simp only [numberAt, List.takeWhile_map, List.dropWhile_map, hdigit]
  cases cs.dropWhile isAsciiDigit with
  | nil => rfl
  | cons c r =>
    by_cases hc : c = '.'
    · have hsame : '.'.toLower = '.' := by decide
      simp only [hc, List.map_cons, hsame, List.takeWhile_map, hdigit, List.isEmpty_map]
      split
      · rfl
      · simp [hsame]
    · have hlower : c.toLower ≠ '.' := by rwa [ne_eq, toLower_eq_iff (by decide)]
      simp [hc, hlower]

theorem operatorAt?_map_toLower (cs : List Char) :
    operatorAt? (cs.map Char.toLower) = operatorAt? cs := by
  cases cs with
  | nil => rfl
  | cons c r =>
    obtain ⟨_, _, _, hfirst, _⟩ := read_alike_toLower c
    have hhead {d : Char} (hd : d.isAlpha = false) :
        (r.map Char.toLower).head? = some d ↔ r.head? = some d := by
      cases r with
      | nil => simp
      | cons e r => simp [toLower_eq_iff hd]
    rw [List.map_cons, operatorAt?_cons, operatorAt?_cons c r, hfirst]
    simp only [hhead (d := '=') (by decide), hhead (d := '>') (by decide),
      toLower_eq_iff (d := '<') (by decide), toLower_eq_iff (d := '>') (by decide),
      toLower_eq_iff (d := '!') (by decide)]

theorem punctuation?_toLower (c : Char) :
    punctuation? c.toLower = (punctuation? c).map Token.lowered := by
  obtain ⟨_, _, _, _, hsame⟩ := read_alike_toLower c
  rw [hsame]
  cases h : punctuation? c with
  | none => rfl
  | some t =>
    unfold punctuation? at h
    split at h <;> cases h <;> rfl

/-- The token at the front of a text in small letters, or the fault there. -/
theorem tokenAt_map_toLower (offset : Nat) (c : Char) (r : List Char) :
    tokenAt offset c.toLower (r.map Char.toLower) = (tokenAt offset c r).map Token.lowered := by
  obtain ⟨_, hstart, _⟩ := read_alike_toLower c
  have hpart : isWordPart ∘ Char.toLower = isWordPart :=
    funext fun c => (read_alike_toLower c).2.2.1
  have hnumber := numberAt_map_toLower (c :: r)
  have hoperator := operatorAt?_map_toLower (c :: r)
  rw [List.map_cons] at hnumber hoperator
  simp only [tokenAt, toLower_eq_iff (d := Token.nameQuote) (by decide),
    toLower_eq_iff (d := '\'') (by decide), toLower_eq_iff (d := '"') (by decide),
    quotedNameAt_map_toLower, literalAt_map_toLower, isAsciiDigit_toLower, hstart, hnumber,
    hoperator, List.takeWhile_map, hpart, punctuation?_toLower]
  split
  · rfl
  split
  · rfl
  split
  · rfl
  split
  · rfl
  split
  · rfl
  · rename_i hword
    cases operatorAt? (c :: r) with
    | some op => rfl
    | none =>
      cases punctuation? c with
      | some t => rfl
      | none =>
        have hletter : c.isAlpha = false := by
          rw [isWordStart, Bool.or_eq_true, not_or, Bool.not_eq_true] at hword
          exact hword.1
        simp [Except.map, toLower_of_not_isAlpha hletter]

/-! ### All tokens -/

/-- A token in small letters at its place. -/
def Placed.lowered (p : Placed) : Placed := ⟨p.offset, p.token.lowered⟩

theorem scanFrom_map_toLower (offset depth : Nat) (cs : List Char) :
    scanFrom offset depth (cs.map Char.toLower) =
      (scanFrom offset depth cs).map (·.map Placed.lowered) := by
  fun_induction scanFrom offset depth cs with
  | case1 offset => rw [List.map_nil, scanFrom_nil]; rfl
  | case2 offset depth h => rw [List.map_nil, scanFrom_nil, if_neg h]; rfl
  | case3 offset depth c r h ih =>
    rw [← isBlank_toLower] at h
    rw [List.map_cons, scanFrom_blank offset depth h, ih]
  | case4 offset depth c r h fault ht =>
    rw [← isBlank_toLower] at h
    rw [List.map_cons, scanFrom_token offset depth h, tokenAt_map_toLower, ht]
    rfl
  | case5 offset depth c r h t ht hclose =>
    rw [← isBlank_toLower] at h
    rw [List.map_cons, scanFrom_token offset depth h, tokenAt_map_toLower, ht]
    simp only [Except.map, Token.lowered_eq_iff (u := .rparen) rfl, if_pos hclose]
  | case6 offset depth c r h t ht hclose inner fault hr ih =>
    rw [hr] at ih
    simp only [inner, dite_eq_ite, List.map_drop] at ih
    rw [← isBlank_toLower] at h
    rw [List.map_cons, scanFrom_token offset depth h, tokenAt_map_toLower, ht]
    simp only [Except.map, Token.lowered_eq_iff (u := .rparen) rfl,
      Token.lowered_eq_iff (u := .lparen) rfl, if_neg hclose, Token.length_written_lowered, ih]
  | case7 offset depth c r h t ht hclose inner more hr ih =>
    rw [hr] at ih
    simp only [inner, dite_eq_ite, List.map_drop] at ih
    rw [← isBlank_toLower] at h
    rw [List.map_cons, scanFrom_token offset depth h, tokenAt_map_toLower, ht]
    simp only [Except.map, Token.lowered_eq_iff (u := .rparen) rfl,
      Token.lowered_eq_iff (u := .lparen) rfl, if_neg hclose, Token.length_written_lowered, ih]
    rfl

/-- The tokens of a text in small letters, or its fault. -/
theorem tokenize_map_toLower (cs : List Char) :
    tokenize (cs.map Char.toLower) = (tokenize cs).map (·.map Token.lowered) := by
  rw [tokenize, tokenize, scan, scan, scanFrom_map_toLower]
  cases scanFrom 0 0 cs with
  | error fault => rfl
  | ok placed => simp [Except.map, Function.comp_def, Placed.lowered]

end Sql
end QueryGate
