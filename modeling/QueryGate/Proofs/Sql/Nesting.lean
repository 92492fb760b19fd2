import QueryGate.Proofs.Sql.Reading
import QueryGate.Sql.Block

/-!
# Runs of tokens in a statement

A statement is split at words that no parenthesis surrounds.  A run of tokens that closes all its
parentheses, and shows no such word outside of them, passes through every splitting in one piece.
-/

namespace QueryGate
namespace Sql

open Text

/-- The depth behind tokens, unless one of them closes a parenthesis that is not open. -/
def depthThrough? (depth : Nat) : List Token → Option Nat
  | [] => some depth
  | t :: r => (depthBehind? depth t).bind fun inner => depthThrough? inner r

/-- Whether all tokens that no parenthesis surrounds have a property, when the first one stands at
the given depth. -/
def showsOnly (p : Token → Bool) (depth : Int) : List Token → Bool
  | [] => true
  | t :: r => (depthAt depth t != 0 || p t) && showsOnly p (depthAfter depth t) r

theorem depthAfter_of_depthBehind? {depth inner : Nat} {t : Token}
    (h : depthBehind? depth t = some inner) : depthAfter depth t = inner := by
  unfold depthBehind? at h
  cases t <;> simp_all [depthAfter, Token.depthChange] <;> omega

theorem depths_of_keyword (depth : Int) {t : Token} {k : Keyword} (h : t.keyword? = some k) :
    depthAt depth t = depth ∧ depthAfter depth t = depth := by
  cases t with
  | word letters => exact ⟨rfl, Int.add_zero depth⟩
  | _ => exact nomatch h

theorem depths_of_clause (depth : Int) {t : Token} {c : Clause} (h : t.clause? = some c) :
    depthAt depth t = depth ∧ depthAfter depth t = depth := by
  obtain ⟨k, hk, -⟩ := Option.bind_eq_some_iff.mp h
  exact depths_of_keyword depth hk

theorem depthBehind?_of_keyword (depth : Nat) {t : Token} {k : Keyword} (h : t.keyword? = some k) :
    depthBehind? depth t = some depth := by
  cases t with
  | word letters => rfl
  | _ => exact nomatch h

theorem depthThrough?_keyword (depth : Nat) {t : Token} {k : Keyword} (h : t.keyword? = some k)
    (r : List Token) : depthThrough? depth (t :: r) = depthThrough? depth r := by
  rw [depthThrough?, depthBehind?_of_keyword depth h, Option.bind_some]

/-- Inside a parenthesis that stays open no token is at the outermost depth. -/
theorem depthAt_succ_ne_zero {depth inner : Nat} {t : Token}
    (h : depthBehind? depth t = some inner) : depthAt (depth + 1) t ≠ 0 := by
  intro hzero
  unfold depthAt at hzero
  split at hzero
  · have hdepth : depth = 0 := by omega
    simp [depthBehind?, hdepth, ‹t = .rparen›] at h
  · omega

/-- The tokens of a text close all parentheses that the text is in. -/
theorem depthThrough?_of_tokensFrom {depth : Nat} {cs : List Char} {ts : List Token}
    (h : tokensFrom depth cs = some ts) : depthThrough? depth ts = some 0 := by
  fun_induction tokensFrom depth cs generalizing ts with
  | case1 =>
    cases h
    rfl
  | case3 depth c r hc ih => exact ih h
  | case6 depth c r hc t ht inner hinner ih =>
    obtain ⟨more, hmore, rfl⟩ := Option.map_eq_some_iff.mp h
    rw [depthThrough?, hinner]
    exact ih hmore
  | _ => cases h

theorem depthThrough?_append (depth : Nat) (u w : List Token) :
    depthThrough? depth (u ++ w) = (depthThrough? depth u).bind fun inner => depthThrough? inner w := by
  induction u generalizing depth with
  | nil => rfl
  | cons t u ih =>
    simp only [List.cons_append, depthThrough?]
    cases depthBehind? depth t with
    | none => rfl
    | some inner => exact ih inner

theorem depthThrough?_add {depth inner : Nat} {u : List Token} (more : Nat)
    (h : depthThrough? depth u = some inner) :
    depthThrough? (depth + more) u = some (inner + more) := by
  induction u generalizing depth with
  | nil =>
    cases h
    rfl
  | cons t u ih =>
    obtain ⟨next, hnext, h⟩ := Option.bind_eq_some_iff.mp h
    simp only [depthThrough?, depthBehind?_add hnext, Option.bind_some]
    exact ih h

theorem showsOnly_append {p : Token → Bool} {depth inner : Nat} {u : List Token} (w : List Token)
    (h : depthThrough? depth u = some inner) :
    showsOnly p depth (u ++ w) = (showsOnly p depth u && showsOnly p inner w) := by
  induction u generalizing depth with
  | nil =>
    cases h
    simp [showsOnly]
  | cons t u ih =>
    obtain ⟨next, hnext, h⟩ := Option.bind_eq_some_iff.mp h
    simp only [List.cons_append, showsOnly, depthAfter_of_depthBehind? hnext, ih h, Bool.and_assoc]

/-- Inside a parenthesis that stays open nothing shows. -/
theorem showsOnly_succ (p : Token → Bool) {depth inner : Nat} {u : List Token}
    (h : depthThrough? depth u = some inner) : showsOnly p ((depth : Int) + 1) u = true := by
  induction u generalizing depth with
  | nil => rfl
  | cons t u ih =>
    obtain ⟨next, hnext, h⟩ := Option.bind_eq_some_iff.mp h
    have hafter : depthAfter ((depth : Int) + 1) t = (next : Int) + 1 := by
      have := depthAfter_of_depthBehind? hnext
      unfold depthAfter at this ⊢
      omega
    simp [showsOnly, depthAt_succ_ne_zero hnext, hafter, ih h]

theorem showsOnly_mono {p q : Token → Bool} (hpq : ∀ t, p t = true → q t = true) {depth : Int}
    {u : List Token} (h : showsOnly p depth u = true) : showsOnly q depth u = true := by
  induction u generalizing depth with
  | nil => rfl
  | cons t u ih =>
    simp only [showsOnly, Bool.and_eq_true, Bool.or_eq_true] at h ⊢
    exact ⟨h.1.imp id (hpq t), ih h.2⟩

/-- Tokens that close all their parentheses and show only tokens with a property outside of
them. -/
structure Passes (p : Token → Bool) (u : List Token) : Prop where
  closed : depthThrough? 0 u = some 0
  shows : showsOnly p 0 u = true

instance (p : Token → Bool) (u : List Token) : Decidable (Passes p u) :=
  decidable_of_iff (depthThrough? 0 u = some 0 ∧ showsOnly p 0 u = true)
    ⟨fun h => ⟨h.1, h.2⟩, fun h => ⟨h.1, h.2⟩⟩

/-- Tokens in parentheses. -/
def parenthesized (u : List Token) : List Token := .lparen :: u ++ [.rparen]

namespace Passes

variable {p q : Token → Bool} {u w : List Token}

theorem nil : Passes p [] := ⟨rfl, rfl⟩

theorem append (hu : Passes p u) (hw : Passes p w) : Passes p (u ++ w) := by
  refine ⟨?_, ?_⟩
  · rw [depthThrough?_append, hu.closed, Option.bind_some, hw.closed]
  · have hshow := showsOnly_append (p := p) w hu.closed
    simpa [hu.shows, hw.shows] using hshow

/-- A token that is no parenthesis passes. -/
theorem single {t : Token} (hopen : t ≠ .lparen) (hclose : t ≠ .rparen) (hp : p t = true) :
    Passes p [t] := by
  refine ⟨?_, ?_⟩
  · simp [depthThrough?, depthBehind?, hopen, hclose]
  · simp [showsOnly, hp]

theorem cons {t : Token} (ht : Passes p [t]) (hu : Passes p u) : Passes p (t :: u) := ht.append hu

theorem mono (hpq : ∀ t, p t = true → q t = true) (h : Passes p u) : Passes q u :=
  ⟨h.closed, showsOnly_mono hpq h.shows⟩

theorem parenthesized (hopen : p .lparen = true) (hclose : p .rparen = true)
    (hu : depthThrough? 0 u = some 0) : Passes p (parenthesized u) := by
  have hdeep := depthThrough?_add 1 hu
  rw [Nat.zero_add] at hdeep
  refine ⟨?_, ?_⟩
  · simp [Sql.parenthesized, depthThrough?, depthThrough?_append, depthBehind?, hdeep]
  · have hshow := showsOnly_append (p := p) [.rparen] hdeep
    have hin : showsOnly p 1 u = true := showsOnly_succ p hu
    simp only [Int.natCast_one, hin] at hshow
    simp [Sql.parenthesized, showsOnly, hopen, hclose, depthAfter, Token.depthChange, hshow]

end Passes

/-! ### Splitting at words in the open -/

/-- Puts tokens in front of the first of several parts. -/
def prepend (u : List Token) (parts : List (List Token)) : List (List Token) :=
  u.foldr consFirst parts

theorem prepend_cons (u p : List Token) (more : List (List Token)) :
    prepend u (p :: more) = (u ++ p) :: more := by
  induction u with
  | nil => rfl
  | cons t u ih =>
    show consFirst t (prepend u (p :: more)) = _
    rw [ih]
    rfl

/-- Whether a token in the open leaves the query block as it is. -/
def inBlock (t : Token) : Bool := !t.isKeyword .union

/-- Whether a token in the open leaves the clause as it is. -/
def inClause (t : Token) : Bool := t.clause?.isNone

theorem consFirst_ne_nil (t : Token) (parts : List (List Token)) : consFirst t parts ≠ [] := by
  cases parts <;> exact nofun

theorem blocksFrom_ne_nil (afterUnion : Bool) (depth : Int) (ts : List Token) :
    blocksFrom afterUnion depth ts ≠ [] := by
  induction ts generalizing afterUnion depth with
  | nil => exact nofun
  | cons t r ih =>
    rw [blocksFrom]
    split
    · exact ih false _
    · split
      · exact nofun
      · exact consFirst_ne_nil t _

/-- A statement splits into its blocks if none of them is empty. -/
theorem splitUnion_eq_ok_iff {ts : List Token} {parts : List (List Token)} :
    splitUnion ts = .ok parts ↔ blocksFrom false 0 ts = parts ∧ [] ∉ parts := by
  rw [splitUnion]
  constructor
  · intro h
    split at h
    · cases h
    · rename_i hempty
      cases h
      exact ⟨rfl, fun hnil => hempty (List.any_eq_true.mpr ⟨[], hnil, rfl⟩)⟩
  · rintro ⟨rfl, hnil⟩
    rw [if_neg]
    intro hempty
    obtain ⟨part, hpart, hisEmpty⟩ := List.any_eq_true.mp hempty
    exact hnil (List.isEmpty_iff.mp hisEmpty ▸ hpart)

theorem blocksFrom_of_splitUnion {ts : List Token} {parts : List (List Token)}
    (h : splitUnion ts = .ok parts) : blocksFrom false 0 ts = parts :=
  (splitUnion_eq_ok_iff.mp h).1

/-- A statement has a block, and none of its blocks is empty. -/
theorem ne_nil_of_splitUnion {ts : List Token} {parts : List (List Token)}
    (h : splitUnion ts = .ok parts) : parts ≠ [] ∧ ∀ part ∈ parts, part ≠ [] := by
  obtain ⟨rfl, hnil⟩ := splitUnion_eq_ok_iff.mp h
  exact ⟨blocksFrom_ne_nil false 0 ts, fun part hpart heq => hnil (heq ▸ hpart)⟩

theorem blocksFrom_run {depth inner : Nat} {u : List Token} (rest : List Token)
    (hd : depthThrough? depth u = some inner) (hu : showsOnly inBlock depth u = true) :
    blocksFrom false depth (u ++ rest) = prepend u (blocksFrom false inner rest) := by
  induction u generalizing depth with
  | nil =>
    cases hd
    rfl
  | cons t u ih =>
    obtain ⟨next, hnext, hd⟩ := Option.bind_eq_some_iff.mp hd
    simp only [showsOnly, inBlock, Bool.and_eq_true, Bool.or_eq_true, bne_iff_ne, ne_eq,
      Bool.not_eq_true', depthAfter_of_depthBehind? hnext] at hu
    have hno : ¬(depthAt depth t = 0 ∧ t.isKeyword .union = true) := by
      rintro ⟨h0, hk⟩
      rcases hu.1 with h | h
      · exact h h0
      · simp [hk] at h
    simp only [List.cons_append, blocksFrom, Bool.false_and, Bool.false_eq_true, ↓reduceIte, hno,
      depthAfter_of_depthBehind? hnext, ih hd hu.2]
    rfl

theorem sectionsFrom_run {current : Clause} {depth inner : Nat} {u rest body : List Token}
    {more : List Section} (hd : depthThrough? depth u = some inner)
    (hu : showsOnly inClause depth u = true)
    (hrest : sectionsFrom current inner rest = .ok (body, more)) :
    sectionsFrom current depth (u ++ rest) = .ok (u ++ body, more) := by
  induction u generalizing depth with
  | nil =>
    cases hd
    exact hrest
  | cons t u ih =>
    obtain ⟨next, hnext, hd⟩ := Option.bind_eq_some_iff.mp hd
    simp only [showsOnly, inClause, Bool.and_eq_true, Bool.or_eq_true, bne_iff_ne, ne_eq,
      Option.isNone_iff_eq_none, depthAfter_of_depthBehind? hnext] at hu
    have hno : (if depthAt depth t = 0 then t.clause? else none) = none := by
      split
      · exact hu.1.resolve_left (not_not_intro ‹_›)
      · rfl
    rw [List.cons_append, sectionsFrom]
    simp only [hno, depthAfter_of_depthBehind? hnext, ih hd hu.2]
    rfl

/-- A word that opens a clause of a higher rank ends the one before. -/
theorem sectionsFrom_clause {current next : Clause} {t : Token} {rest body : List Token}
    {more : List Section} (ht : t.clause? = some next) (hrank : current.rank < next.rank)
    (hby : next.needsBy = false) (hrest : sectionsFrom next 0 rest = .ok (body, more)) :
    sectionsFrom current 0 (t :: rest) = .ok ([], ⟨next, body⟩ :: more) := by
  have h0 : depthAt 0 t = 0 := by
    unfold depthAt
    split
    · subst t
      cases ht
    · rfl
  rw [sectionsFrom]
  simp [h0, ht, Nat.not_le.mpr hrank, hby, hrest]

end Sql
end QueryGate
