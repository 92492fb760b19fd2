import QueryGate.Proofs.Scope.Conjunction

/-!
# The terms of a condition

A formula consists of terms with a connective between any two of them.  A term is a stretch of
tokens that shows no connective, a group in parentheses, the negation of a term, or a `BETWEEN`
whose upper bound is a term again.  The scan for the conjuncts keeps one flag and no tree.  Still it
finds just the terms of a formula whose connectives are all `AND`, and nothing of any other.
-/

namespace QueryGate
namespace Scope

open Sql

/-! ### Formulas -/

/-- Tokens that close their parentheses and show no connective and no `BETWEEN`. -/
abbrev Stretch := { ts : List Token // Passes staysTogether ts }

/-- Tokens that close their parentheses. -/
abbrev Balanced := { ts : List Token // depthThrough? 0 ts = some 0 }

/-- What the connectives of a formula join. -/
inductive Term where
  | stretch (s : Stretch)
  | group (inner : Balanced)
  | not (w : Word .not) (t : Term)
  | between (x : Stretch) (w : Word .between) (low : Stretch) (a : Word .and) (high : Term)

/-- The tokens of a term. -/
def Term.tokens : Term → List Token
  | stretch s => s.1
  | group inner => parenthesized inner.1
  | not w t => [w.1] ++ t.tokens
  | between x w low a high => x.1 ++ ([w.1] ++ (low.1 ++ ([a.1] ++ high.tokens)))

/-- Terms with connectives between them. -/
inductive Formula where
  | term (t : Term)
  | and (l : Formula) (w : Word .and) (r : Formula)
  | xor (l : Formula) (w : Word .xor) (r : Formula)
  | or (l : Formula) (w : Word .or) (r : Formula)

namespace Formula

/-- The tokens of a formula. -/
def tokens : Formula → List Token
  | term t => t.tokens
  | and l w r | xor l w r | or l w r => l.tokens ++ ([w.1] ++ r.tokens)

/-- The terms of a formula in order, written out. -/
def terms : Formula → List (List Token)
  | term t => [t.tokens]
  | and l _ r | xor l _ r | or l _ r => l.terms ++ r.terms

theorem terms_ne_nil (e : Formula) : e.terms ≠ [] := by
  induction e with
  | term t => simp [terms]
  | and l w r ihl | xor l w r ihl | or l w r ihl => simp [terms, ihl]

end Formula

/-! ### Disjunctions in the open -/

/-- Whether a token in the open is neither `OR` nor `XOR`. -/
def staysConjunctive (t : Token) : Bool := !t.isOneOf [.or, .xor]

/-- The scan gives nothing just when an `OR` or `XOR` shows, whatever the tokens are. -/
theorem conjunctsFrom_eq_none_iff {depth : Int} {b : Bool} {ts : List Token} :
    conjunctsFrom depth b ts = none ↔ showsOnly staysConjunctive depth ts = false := by
  induction ts generalizing depth b with
  | nil => simp [conjunctsFrom, showsOnly]
  | cons t r ih =>
    rw [conjunctsFrom_cons, showsOnly, Bool.and_eq_false_iff]
    by_cases hdepth : depthAt depth t = 0
    · rw [if_pos hdepth]
      by_cases hor : t.isOneOf [.or, .xor] = true
      · simp [hdepth, hor, staysConjunctive]
      · rw [if_neg hor]
        have hstays : (depthAt depth t != 0 || staysConjunctive t) ≠ false := by
          simp [hor, staysConjunctive]
        rw [or_iff_right hstays]
        split
        · rw [Option.map_eq_none_iff, ih]
        · split
          · split <;> rw [Option.map_eq_none_iff, ih]
          · rw [Option.map_eq_none_iff, ih]
    · have hinside : (depthAt depth t != 0 || staysConjunctive t) ≠ false := by simp [hdepth]
      rw [if_neg hdepth, or_iff_right hinside, Option.map_eq_none_iff, ih]

/-! ### The scan on terms and formulas -/

/-- A term stays whole, and none of its `BETWEEN`s waits for an `AND` behind it. -/
theorem splits_term (t : Term) : Splits false t.tokens false [t.tokens] := by
  induction t with
  | stretch s => exact splits_run s.2
  | group inner => exact splits_run (.parenthesized rfl rfl inner.2)
  | not w t ih => exact (splits_run (passes_word w (staysTogether_not w))).append ih
  | between x w low a high ih =>
    have hbounds := (splits_run low.2).append ((splits_and true a).append ih)
    exact (splits_run x.2).append ((splits_between w).append hbounds)

theorem passes_term (t : Term) : Passes (fun _ => true) t.tokens := by
  have stretch (s : Stretch) : Passes (fun _ => true) s.1 := s.2.mono fun _ _ => rfl
  have key {k : Keyword} (w : Word k) : Passes (fun _ => true) [w.1] := passes_word w rfl
  induction t with
  | stretch s => exact stretch s
  | group inner => exact .parenthesized rfl rfl inner.2
  | not w t ih => exact (key w).append ih
  | between x w low a high ih =>
    exact (stretch x).append ((key w).append ((stretch low).append ((key a).append ih)))

theorem passes_formula (e : Formula) : Passes (fun _ => true) e.tokens := by
  induction e with
  | term t => exact passes_term t
  | and l w r ihl ihr | xor l w r ihl ihr | or l w r ihl ihr =>
    exact ihl.append ((passes_word w rfl).append ihr)

/-- What a formula shows is what its sides and its connective show. -/
theorem showsOnly_joined {p : Token → Bool} {k : Keyword} (w : Word k) {u v : List Token}
    (hu : depthThrough? 0 u = some 0) :
    showsOnly p 0 (u ++ ([w.1] ++ v)) = (showsOnly p 0 u && (p w.1 && showsOnly p 0 v)) := by
  have happend := showsOnly_append (p := p) ([w.1] ++ v) hu
  rw [Int.natCast_zero] at happend
  rw [happend, List.singleton_append, showsOnly, depthAt_word, depthAfter_word]
  rfl

/-- The parts of a formula that shows conjunctions only are its terms. -/
theorem splits_formula {e : Formula} (h : showsOnly staysConjunctive 0 e.tokens = true) :
    Splits false e.tokens false e.terms := by
  induction e with
  | term t => exact splits_term t
  | and l w r ihl ihr =>
    rw [Formula.tokens, showsOnly_joined w (passes_formula l).closed, Bool.and_eq_true, Bool.and_eq_true] at h
    obtain ⟨hl, -, hr⟩ := h
    have hsides := (ihl hl).append ((splits_and false w).append (ihr hr))
    rw [glue_aroundAnd w l.terms_ne_nil] at hsides
    obtain ⟨p, more, hterms⟩ := List.exists_cons_of_ne_nil r.terms_ne_nil
    rw [hterms, glue_singleton, List.nil_append, ← hterms] at hsides
    exact hsides
  | xor l w r ihl ihr | or l w r ihl ihr =>
    rw [Formula.tokens, showsOnly_joined w (passes_formula l).closed] at h
    simp [staysConjunctive, Token.isOneOf, w.2] at h

/-- The conjuncts of a formula are its terms, each `BETWEEN` kept whole, unless an `OR` or `XOR`
shows.  Then there are none. -/
theorem conjuncts_formula (e : Formula) :
    conjuncts e.tokens =
      if showsOnly staysConjunctive 0 e.tokens then some e.terms else none := by
  split
  · rename_i h
    have hwhole := (splits_formula h).scan []
    rwa [List.append_nil, conjunctsFrom, Option.map_some, glue_nil e.terms_ne_nil] at hwhole
  · rename_i h
    exact conjunctsFrom_eq_none_iff.mpr (Bool.eq_false_iff.mpr h)

end Scope
end QueryGate
