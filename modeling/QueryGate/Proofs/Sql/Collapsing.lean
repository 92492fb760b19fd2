import QueryGate.Proofs.Sql.Reading
import QueryGate.Proofs.Text.Collapse

/-!
# Reading a collapsed text

The guard reads a statement with its runs of blanks collapsed, the scope check reads it as it is.
Both find the same tokens, except that the blanks inside quotes are collapsed as well.
-/

namespace QueryGate
namespace Sql

open Text

/-- A token as it stands in the collapsed text. -/
def Token.collapsed : Token → Token
  | .quotedName name => .quotedName (collapse name)
  | .literal quote body => .literal quote (collapse body)
  | t => t

/-! ### The token at the front -/

theorem quotedName?_of_not_mem {cs : List Char} (h : Token.nameQuote ∉ cs) :
    quotedName? cs = none := by
  have htake : cs.takeWhile (· != Token.nameQuote) = cs := by
    have hall : ∀ c ∈ cs, (c != Token.nameQuote) = true := by
      intro c hc
      exact bne_iff_ne.mpr (ne_of_mem_of_not_mem hc h)
    rw [← List.append_nil cs, List.takeWhile_append_of_pos hall]
    simp
  simp [quotedName?, htake]

theorem quotedName?_append_cons {name : List Char} (h : Token.nameQuote ∉ name)
    (rest : List Char) :
    quotedName? (name ++ Token.nameQuote :: rest) =
      if name.all isBlank = true then none else some (.quotedName name) := by
  have htake : (name ++ Token.nameQuote :: rest).takeWhile (· != Token.nameQuote) = name := by
    have hall : ∀ c ∈ name, (c != Token.nameQuote) = true := by
      intro c hc
      exact bne_iff_ne.mpr (ne_of_mem_of_not_mem hc h)
    rw [List.takeWhile_append_of_pos hall]
    simp
  simp [quotedName?, htake]

/-- A text up to the first place of a character. -/
theorem append_cons_of_mem {c : Char} {cs : List Char} (h : c ∈ cs) :
    ∃ a b, cs = a ++ c :: b ∧ c ∉ a := by
  induction cs with
  | nil => cases h
  | cons d r ih =>
    by_cases hd : c = d
    · exact ⟨[], r, by rw [hd]; rfl, List.not_mem_nil⟩
    · obtain ⟨a, b, rfl, ha⟩ := ih ((List.mem_cons.mp h).resolve_left hd)
      exact ⟨d :: a, b, rfl, by simp [hd, ha]⟩

theorem nameQuote_not_mem_collapse {cs : List Char} (h : Token.nameQuote ∉ cs) :
    Token.nameQuote ∉ collapse cs := by
  intro hmem
  rcases mem_collapse hmem with hmem | hblank
  · exact h hmem
  · revert hblank
    decide

theorem quotedName?_collapse (r : List Char) :
    quotedName? (collapse r) = (quotedName? r).map Token.collapsed := by
  by_cases h : Token.nameQuote ∈ r
  · obtain ⟨name, rest, rfl, hname⟩ := append_cons_of_mem h
    rw [collapse_append_cons (by decide), quotedName?_append_cons hname,
      quotedName?_append_cons (nameQuote_not_mem_collapse hname), all_isBlank_collapse]
    split <;> rfl
  · rw [quotedName?_of_not_mem h, quotedName?_of_not_mem (nameQuote_not_mem_collapse h)]
    rfl

section Literal

variable {q : Char}

theorem literalBody?_of_ne {c : Char} (hc : c ≠ q) (r : List Char) :
    literalBody? q (c :: r) = (literalBody? q r).map (c :: ·) := by
  cases r <;> simp [literalBody?, hc]

theorem literalBody?_doubled (r : List Char) :
    literalBody? q (q :: q :: r) = (literalBody? q r).map fun body => q :: q :: body := by
  simp [literalBody?]

theorem literalBody?_closed {r : List Char} (hr : r.head? ≠ some q) :
    literalBody? q (q :: r) = some [] := by
  cases r with
  | nil => simp [literalBody?]
  | cons d r =>
    have hd : d ≠ q := by simpa using hr
    simp [literalBody?, hd]

variable (hq : isBlank q = false)
include hq

theorem head?_collapse_ne {r : List Char} (hr : r.head? ≠ some q) :
    (collapse r).head? ≠ some q := by
  cases r with
  | nil => simp
  | cons d r =>
    obtain ⟨e, s, hs, he⟩ := collapse_cons_ne hq (by simpa using hr) r
    simpa [hs] using he

/-- The inside of a literal starts with the character behind the quote, unless it ends there. -/
theorem startsBlank_of_literalBody? {r body : List Char} (h : literalBody? q r = some body) :
    startsBlank body = startsBlank r := by
  cases r with
  | nil => cases h
  | cons c r =>
    by_cases hc : c = q
    · subst hc
      have hstart : startsBlank (c :: r) = false := hq
      rw [hstart]
      by_cases hr : r.head? = some c
      · obtain ⟨r, rfl⟩ := List.head?_eq_some_iff.mp hr
        rw [literalBody?_doubled] at h
        obtain ⟨inner, _, rfl⟩ := Option.map_eq_some_iff.mp h
        exact hq
      · rw [literalBody?_closed hr] at h
        cases h
        rfl
    · rw [literalBody?_of_ne hc] at h
      obtain ⟨inner, _, rfl⟩ := Option.map_eq_some_iff.mp h
      rfl

/-- A character that is not the quote collapses with the inside of a literal as it does with the
text: both start with a blank or neither does. -/
theorem literalBody?_collapse_cons {c : Char} {r : List Char} (hc : c ≠ q)
    (hr : literalBody? q (collapse r) = (literalBody? q r).map collapse) :
    literalBody? q (collapse (c :: r)) = (literalBody? q (c :: r)).map collapse := by
  rw [literalBody?_of_ne hc, Option.map_map]
  cases hblank : isBlank c with
  | false =>
    rw [collapse_of_not_isBlank hblank, literalBody?_of_ne hc, hr, Option.map_map]
    congr 1
    funext body
    exact (collapse_of_not_isBlank hblank body).symm
  | true =>
    have hspace : ' ' ≠ q := ne_of_isBlank (by decide) hq
    rw [collapse_of_isBlank hblank]
    cases hbody : literalBody? q r with
    | none =>
      rw [hbody] at hr
      split
      · exact hr
      · rw [literalBody?_of_ne hspace, hr]
        rfl
    | some body =>
      rw [hbody] at hr
      simp only [Option.map_some, Function.comp_apply, collapse_of_isBlank hblank,
        startsBlank_of_literalBody? hq hbody]
      split
      · exact hr
      · rw [literalBody?_of_ne hspace, hr]
        rfl

theorem literalBody?_collapse (r : List Char) :
    literalBody? q (collapse r) = (literalBody? q r).map collapse := by
  fun_induction literalBody? q r with
  | case1 => rfl
  | case2 =>
    rw [collapse_of_not_isBlank hq, literalBody?_closed (by simp)]
    rfl
  | case3 c hc =>
    have hnone : literalBody? q [c] = none := literalBody?_of_ne hc []
    rw [literalBody?_collapse_cons hq hc rfl, hnone]
  | case4 r ih =>
    rw [collapse_of_not_isBlank hq, collapse_of_not_isBlank hq, literalBody?_doubled, ih,
      Option.map_map, Option.map_map]
    congr 1
    funext body
    simp [collapse_of_not_isBlank hq]
  | case5 d r hd =>
    rw [collapse_of_not_isBlank hq, literalBody?_closed (head?_collapse_ne hq (by simpa using hd))]
    rfl
  | case6 c d r hc ih =>
    rw [← literalBody?_of_ne hc]
    exact literalBody?_collapse_cons hq hc ih

end Literal

theorem numberAt_collapse (cs : List Char) : numberAt (collapse cs) = numberAt cs := by
  have hdigit : ∀ c, isBlank c = true → isAsciiDigit c = false :=
    fun c => not_isAsciiDigit_of_isBlank
  unfold numberAt
  rw [takeWhile_collapse hdigit, dropWhile_collapse hdigit]
  cases hd : cs.dropWhile isAsciiDigit with
  | nil => rfl
  | cons c r =>
    by_cases hc : c = '.'
    · subst hc
      rw [collapse_of_not_isBlank (by decide)]
      simp only [takeWhile_collapse hdigit]
    · obtain ⟨e, s, hs, he⟩ := collapse_cons_ne (d := '.') (by decide) hc r
      simp [hs, hc, he]

theorem head?_collapse {d : Char} (hd : isBlank d = false) (r : List Char) :
    (collapse r).head? = some d ↔ r.head? = some d := by
  refine ⟨?_, ?_⟩
  · intro h
    by_cases hr : r.head? = some d
    · exact hr
    · exact absurd h (head?_collapse_ne hd hr)
  · intro h
    obtain ⟨r, rfl⟩ := List.head?_eq_some_iff.mp h
    rw [collapse_of_not_isBlank hd]
    rfl

theorem operatorAt?_collapse (c : Char) (r : List Char) :
    operatorAt? (c :: collapse r) = operatorAt? (c :: r) := by
  rw [operatorAt?_cons, operatorAt?_cons c r]
  simp only [head?_collapse (d := '=') (by decide), head?_collapse (d := '>') (by decide)]

theorem firstToken?_collapse (c : Char) (r : List Char) :
    firstToken? c (collapse r) = (firstToken? c r).map Token.collapsed := by
  have hnumber (h : isAsciiDigit c = true) : numberAt (c :: collapse r) = numberAt (c :: r) := by
    have hc : isBlank c = false := by
      rw [← Bool.not_eq_true]
      intro hblank
      rw [not_isAsciiDigit_of_isBlank hblank] at h
      cases h
    rw [← collapse_of_not_isBlank hc, numberAt_collapse]
  unfold firstToken?
  by_cases h1 : c = Token.nameQuote
  · rw [if_pos h1, if_pos h1]
    exact quotedName?_collapse r
  rw [if_neg h1, if_neg h1]
  by_cases h2 : c = '\''
  · rw [if_pos h2, if_pos h2, literalBody?_collapse (by decide), Option.map_map, Option.map_map]
    rfl
  rw [if_neg h2, if_neg h2]
  by_cases h3 : c = '"'
  · rw [if_pos h3, if_pos h3, literalBody?_collapse (by decide), Option.map_map, Option.map_map]
    rfl
  rw [if_neg h3, if_neg h3]
  by_cases h4 : isAsciiDigit c = true
  · rw [if_pos h4, if_pos h4, hnumber h4]
    rfl
  rw [if_neg h4, if_neg h4, takeWhile_collapse fun c => not_isWordPart_of_isBlank]
  by_cases h5 : isWordStart c = true
  · rw [if_pos h5, if_pos h5]
    rfl
  rw [if_neg h5, if_neg h5]
  unfold symbol?
  rw [operatorAt?_collapse]
  cases operatorAt? (c :: r) with
  | some op => rfl
  | none =>
    cases hp : punctuation? c with
    | none => rfl
    | some t =>
      unfold punctuation? at hp
      split at hp <;> cases hp <;> rfl

/-! ### All tokens -/

theorem not_isBlank_of_isAsciiDigit {c : Char} (h : isAsciiDigit c = true) : isBlank c = false := by
  rw [← Bool.not_eq_true]
  intro hblank
  rw [not_isAsciiDigit_of_isBlank hblank] at h
  cases h

theorem not_isBlank_of_isWordPart {c : Char} (h : isWordPart c = true) : isBlank c = false := by
  rw [← Bool.not_eq_true]
  intro hblank
  rw [not_isWordPart_of_isBlank hblank] at h
  cases h

theorem mem_numberAt {c : Char} {cs : List Char} (h : c ∈ numberAt cs) :
    isAsciiDigit c = true ∨ c = '.' := by
  have digits {ds : List Char} (hd : c ∈ ds.takeWhile isAsciiDigit) : isAsciiDigit c = true :=
    List.all_eq_true.mp List.all_takeWhile c hd
  unfold numberAt at h
  split at h
  · simp only at h
    split at h
    · exact Or.inl (digits h)
    · rcases List.mem_append.mp h with h | h
      · exact Or.inl (digits h)
      · exact (List.mem_cons.mp h).symm.imp_left digits
  · exact Or.inl (digits h)

theorem not_isBlank_of_mem_numberAt {c : Char} {cs : List Char} (h : c ∈ numberAt cs) :
    isBlank c = false := by
  rcases mem_numberAt h with hdigit | rfl
  · exact not_isBlank_of_isAsciiDigit hdigit
  · decide

/-- No character of a token outside quotes is a blank. -/
theorem not_isBlank_of_mem_written {c d : Char} {r : List Char} {t : Token}
    (h : firstToken? c r = some t) (hd : d ∈ t.written) :
    isBlank d = false ∨ (∃ name, t = .quotedName name) ∨ ∃ quote body, t = .literal quote body := by
  cases isFirst_of_firstToken? h with
  | quotedName => exact Or.inr (Or.inl ⟨_, rfl⟩)
  | literal => exact Or.inr (Or.inr ⟨_, _, rfl⟩)
  | number => exact Or.inl (not_isBlank_of_mem_numberAt hd)
  | word hstart =>
    left
    rcases List.mem_cons.mp hd with rfl | hd
    · exact not_isBlank_of_isWordPart (isWordPart_of_isWordStart hstart)
    · exact not_isBlank_of_isWordPart (List.all_eq_true.mp List.all_takeWhile d hd)
  | @operator op =>
    left
    refine eq_false_of_all ?_ d hd
    cases op <;> decide
  | punctuation ht =>
    left
    refine eq_false_of_all ?_ d hd
    have hall : ∀ u ∈ [Token.star, .comma, .dot, .lparen, .rparen],
        u.written.all (!isBlank ·) = true := by
      decide
    exact hall t (punctuation?_eq_some ht)

theorem collapse_written {c : Char} {r : List Char} {t : Token} (h : firstToken? c r = some t)
    (b : List Char) : collapse (t.written ++ b) = t.collapsed.written ++ collapse b := by
  have quoted {q : Char} (hq : isBlank q = false) (body : List Char) :
      collapse ((q :: body ++ [q]) ++ b) = (q :: collapse body ++ [q]) ++ collapse b := by
    simp [collapse_of_not_isBlank hq, collapse_append_cons hq]
  cases t with
  | quotedName name => exact quoted (by decide) name
  | literal quote body => exact quoted (by cases quote <;> decide) body
  | _ =>
    refine collapse_append ?_ b
    intro d hd
    simpa using not_isBlank_of_mem_written h hd

theorem depthBehind?_collapsed (depth : Nat) (t : Token) :
    depthBehind? depth t.collapsed = depthBehind? depth t := by
  cases t <;> rfl

theorem firstToken?_collapsed {c : Char} {r : List Char} {t : Token}
    (h : firstToken? c r = some t) : firstToken? c (collapse r) = some t.collapsed := by
  rw [firstToken?_collapse, h]
  rfl

/-- What the collapsed token leaves is the collapsed rest. -/
theorem behind_collapsed {c : Char} {r : List Char} {t : Token} (hc : isBlank c = false)
    (h : firstToken? c r = some t) : behind t.collapsed (collapse r) = collapse (behind t r) := by
  have heq := written_append_behind (firstToken?_collapsed h)
  rw [← collapse_of_not_isBlank hc, ← written_append_behind h, collapse_written h] at heq
  exact List.append_cancel_left heq

/-- A text and its collapsed form have the same tokens up to the blanks inside quotes. -/
theorem tokensFrom_collapse (depth : Nat) (cs : List Char) :
    tokensFrom depth (collapse cs) = (tokensFrom depth cs).map (·.map Token.collapsed) := by
  fun_induction tokensFrom depth cs with
  | case1 => rw [collapse_nil, tokensFrom_nil, if_pos rfl, Option.map_some, List.map_nil]
  | case2 depth hdepth => rw [collapse_nil, tokensFrom_nil, if_neg hdepth, Option.map_none]
  | case3 depth c r hc ih =>
    rw [collapse_of_isBlank hc, ← ih]
    split
    · rfl
    · exact tokensFrom_blank (by decide)
  | case4 depth c r hc ht =>
    have hc : isBlank c = false := by simpa using hc
    rw [collapse_of_not_isBlank hc, tokensFrom_token hc, firstToken?_collapse, ht]
    rfl
  | case5 depth c r hc t ht hclosed =>
    have hc : isBlank c = false := by simpa using hc
    rw [collapse_of_not_isBlank hc, tokensFrom_token hc, firstToken?_collapse, ht,
      Option.map_some, Option.bind_some, depthBehind?_collapsed, hclosed]
    rfl
  | case6 depth c r hc t ht inner hinner ih =>
    have hc : isBlank c = false := by simpa using hc
    rw [collapse_of_not_isBlank hc, tokensFrom_step (firstToken?_collapsed ht)
      (behind_collapsed hc ht) hc ((depthBehind?_collapsed depth t).trans hinner), ih,
      Option.map_map, Option.map_map]
    rfl

end Sql
end QueryGate
