import QueryGate.Proofs.Sql.Condition
import QueryGate.Scope

/-!
# The conjuncts of a condition

The scope check never parses a condition.  It splits the tokens at every `AND` in the open, except
that after a `BETWEEN` the next one counts as its own.  Here the outcome is compared with the
syntax: `Phrase.conjuncts` are the operands of the outermost conjunction, and the scan finds just
them when the condition is `separable`.  Otherwise it finds more parts than there are operands,
since it splits inside a `CASE`, or takes the `AND` of a `BETWEEN` for a conjunction.
-/

namespace QueryGate
namespace Scope

open Sql

/-- Joins the last one of some parts with the first one of others. -/
def glue : List (List Token) → List (List Token) → List (List Token)
  | [], more => more
  | [p], [] => [p]
  | [p], m :: more => (p ++ m) :: more
  | p :: q :: ps, more => p :: glue (q :: ps) more

@[simp] theorem glue_singleton (p m : List Token) (more : List (List Token)) :
    glue [p] (m :: more) = (p ++ m) :: more := rfl

theorem glue_cons (p : List Token) {ps : List (List Token)} (hps : ps ≠ [])
    (more : List (List Token)) : glue (p :: ps) more = p :: glue ps more := by
  cases ps with
  | nil => exact absurd rfl hps
  | cons q ps => rfl

theorem glue_ne_nil {ps : List (List Token)} (qs : List (List Token)) (hps : ps ≠ []) :
    glue ps qs ≠ [] := by
  cases ps with
  | nil => exact absurd rfl hps
  | cons p ps =>
    cases ps with
    | nil => cases qs <;> simp [glue]
    | cons q ps => simp [glue]

theorem glue_assoc (ps : List (List Token)) {qs rs : List (List Token)} (hqs : qs ≠ []) :
    glue (glue ps qs) rs = glue ps (glue qs rs) := by
  induction ps with
  | nil => rfl
  | cons p ps ih =>
    by_cases hps : ps = []
    · subst hps
      cases qs with
      | nil => exact absurd rfl hqs
      | cons q qs =>
        cases qs with
        | nil => cases rs <;> simp [glue]
        | cons q' qs => simp [glue]
    · rw [glue_cons p hps, glue_cons p hps, glue_cons p (glue_ne_nil qs hps), ih]

theorem glue_nil {ps : List (List Token)} (hps : ps ≠ []) : glue ps [[]] = ps := by
  induction ps with
  | nil => exact absurd rfl hps
  | cons p ps ih =>
    by_cases hps' : ps = []
    · subst hps'
      simp
    · rw [glue_cons p hps', ih hps']

theorem length_glue {ps qs : List (List Token)} (hps : ps ≠ []) (hqs : qs ≠ []) :
    (glue ps qs).length + 1 = ps.length + qs.length := by
  induction ps with
  | nil => exact absurd rfl hps
  | cons p ps ih =>
    by_cases hps' : ps = []
    · subst hps'
      cases qs with
      | nil => exact absurd rfl hqs
      | cons q qs => simp [glue]; omega
    · rw [glue_cons p hps', List.length_cons, List.length_cons, ih hps']
      omega

/-- A block passes when one of the conjuncts of its condition pins the tenant column. -/
theorem checkBlock_eq_ok {column : String} {tenant : Int} {sections : List Section}
    (h : checkBlock column tenant sections = .ok ()) :
    ∃ parts, conjuncts (body .where_ sections) = some parts ∧
      ∃ p ∈ parts, pins column tenant (firstNames (body .from_ sections)) p = true := by
  unfold checkBlock at h
  split at h
  · cases h
  · split at h
    · cases h
    · rename_i parts hparts
      split at h
      · rename_i hany
        exact ⟨parts, hparts, List.any_eq_true.mp hany⟩
      · cases h

/-! ### The scan on consecutive tokens -/

/-- What the scan makes of tokens: with the flag as given it splits them into the parts and leaves
the other flag, if anything comes of the whole. -/
def Scans (between : Bool) (u : List Token) (after : Bool) (parts : List (List Token)) : Prop :=
  parts ≠ [] ∧ ∀ rest out, conjunctsFrom 0 between (u ++ rest) = some out →
    ∃ more, conjunctsFrom 0 after rest = some more ∧ out = glue parts more

theorem conjunctsFrom_cons (depth : Int) (between : Bool) (t : Token) (r : List Token) :
    conjunctsFrom depth between (t :: r) =
      if depthAt depth t = 0 then
        if t.isOneOf [.or, .xor] then none
        else if t.isKeyword .between then
          (conjunctsFrom (depthAfter depth t) true r).map (consFirst t)
        else if t.isKeyword .and then
          if between then (conjunctsFrom (depthAfter depth t) false r).map (consFirst t)
          else (conjunctsFrom (depthAfter depth t) false r).map ([] :: ·)
        else (conjunctsFrom (depthAfter depth t) between r).map (consFirst t)
      else (conjunctsFrom (depthAfter depth t) between r).map (consFirst t) := by
  rw [conjunctsFrom]
  split
  · cases hk : t.keyword? with
    | none => simp [Token.isOneOf, Token.isKeyword, hk]
    | some k => cases k <;> simp [Token.isOneOf, Token.isKeyword, hk]
  · rfl

/-- A token joins the first of the parts behind it, or it is an `AND` and starts a part. -/
theorem conjunctsFrom_cons_eq_some {depth : Int} {between : Bool} {t : Token} {r : List Token}
    {parts : List (List Token)} (h : conjunctsFrom depth between (t :: r) = some parts) :
    ∃ inner waits more, conjunctsFrom inner waits r = some more ∧
      (parts = consFirst t more ∨ parts = [] :: more) := by
  have joins {inner : Int} {waits : Bool}
      (hm : (conjunctsFrom inner waits r).map (consFirst t) = some parts) :
      ∃ inner waits more, conjunctsFrom inner waits r = some more ∧
        (parts = consFirst t more ∨ parts = [] :: more) := by
    obtain ⟨more, hmore, hparts⟩ := Option.map_eq_some_iff.mp hm
    exact ⟨inner, waits, more, hmore, Or.inl hparts.symm⟩
  simp only [conjunctsFrom] at h
  split at h
  · split at h
    · cases h
    · cases h
    · exact joins h
    · split at h
      · exact joins h
      · obtain ⟨more, hmore, hparts⟩ := Option.map_eq_some_iff.mp h
        exact ⟨_, _, more, hmore, Or.inr hparts.symm⟩
    · exact joins h
  · exact joins h

theorem conjunctsFrom_ne_nil {depth : Int} {between : Bool} {ts : List Token}
    {parts : List (List Token)} (h : conjunctsFrom depth between ts = some parts) : parts ≠ [] := by
  cases ts with
  | nil =>
    cases h
    simp
  | cons t ts =>
    obtain ⟨_, _, more, _, rfl | rfl⟩ := conjunctsFrom_cons_eq_some h
    · cases more <;> simp [consFirst]
    · simp

namespace Scans

variable {b b₁ b₂ : Bool} {u w : List Token} {ps qs : List (List Token)}

theorem append (hu : Scans b u b₁ ps) (hw : Scans b₁ w b₂ qs) :
    Scans b (u ++ w) b₂ (glue ps qs) := by
  refine ⟨glue_ne_nil qs hu.1, ?_⟩
  intro rest out hout
  rw [List.append_assoc] at hout
  obtain ⟨more, hmore, rfl⟩ := hu.2 _ _ hout
  obtain ⟨last, hlast, rfl⟩ := hw.2 _ _ hmore
  exact ⟨last, hlast, (glue_assoc ps hw.1).symm⟩

theorem whole {out : List (List Token)} (hu : Scans false u b ps)
    (hout : conjuncts u = some out) : out = glue ps [[]] := by
  have h := hu.2 [] out (by simpa [conjuncts] using hout)
  obtain ⟨more, hmore, rfl⟩ := h
  cases hmore
  rfl

end Scans

/-- Tokens that the scan splits into the parts, whatever follows: with the flag as given it leaves
the other flag. -/
structure Splits (between : Bool) (u : List Token) (after : Bool) (parts : List (List Token)) :
    Prop where
  ne_nil : parts ≠ []
  scan : ∀ rest, conjunctsFrom 0 between (u ++ rest) = (conjunctsFrom 0 after rest).map (glue parts)

namespace Splits

variable {b b₁ b₂ : Bool} {u w : List Token} {ps qs : List (List Token)}

theorem append (hu : Splits b u b₁ ps) (hw : Splits b₁ w b₂ qs) :
    Splits b (u ++ w) b₂ (glue ps qs) := by
  refine ⟨glue_ne_nil qs hu.ne_nil, ?_⟩
  intro rest
  rw [List.append_assoc, hu.scan, hw.scan, Option.map_map]
  congr 1
  funext more
  exact (glue_assoc ps hw.ne_nil).symm

theorem scans (h : Splits b u b₁ ps) : Scans b u b₁ ps := by
  refine ⟨h.ne_nil, ?_⟩
  intro rest out hout
  rw [h.scan] at hout
  obtain ⟨more, hmore, rfl⟩ := Option.map_eq_some_iff.mp hout
  exact ⟨more, hmore, rfl⟩

end Splits

/-- What is done to parts counts only where there are some. -/
theorem map_parts_congr {depth : Int} {b : Bool} {rest : List Token}
    {f g : List (List Token) → List (List Token)} (h : ∀ m more, f (m :: more) = g (m :: more)) :
    (conjunctsFrom depth b rest).map f = (conjunctsFrom depth b rest).map g := by
  refine Option.map_congr fun parts hparts => ?_
  obtain ⟨m, more, rfl⟩ := List.exists_cons_of_ne_nil (conjunctsFrom_ne_nil hparts)
  exact h m more

/-- Whether a token in the open changes nothing for the scan. -/
def staysTogether (t : Token) : Bool := !t.isOneOf [.and, .or, .xor, .between]

theorem staysTogether_of_isAtomic {t : Token} (h : isAtomic t = true) :
    staysTogether t = true := by
  simp only [isAtomic, Token.isOneOf, List.any_cons, List.any_nil, Bool.and_eq_true,
    Bool.not_eq_true', Bool.or_eq_false_iff] at h
  simp [staysTogether, Token.isOneOf, h]

theorem conjunctsFrom_run {depth inner : Nat} {b : Bool} {u : List Token} (rest : List Token)
    (hd : depthThrough? depth u = some inner) (hu : showsOnly staysTogether depth u = true) :
    conjunctsFrom depth b (u ++ rest) = (conjunctsFrom inner b rest).map (prepend u) := by
  induction u generalizing depth with
  | nil =>
    cases hd
    exact (congrFun Option.map_id _).symm
  | cons t u ih =>
    obtain ⟨next, hnext, hd⟩ := Option.bind_eq_some_iff.mp hd
    simp only [showsOnly, Bool.and_eq_true, Bool.or_eq_true, bne_iff_ne, ne_eq,
      depthAfter_of_depthBehind? hnext] at hu
    have hstep : conjunctsFrom depth b (t :: (u ++ rest)) =
        (conjunctsFrom next b (u ++ rest)).map (consFirst t) := by
      rw [conjunctsFrom]
      simp only [depthAfter_of_depthBehind? hnext]
      split
      · have hkey := hu.1.resolve_left (not_not_intro ‹_›)
        simp only [staysTogether, Token.isOneOf, List.any_cons, List.any_nil, Bool.not_eq_true',
          Bool.or_eq_false_iff, Token.isKeyword, beq_eq_false_iff_ne, ne_eq] at hkey
        split <;> simp_all
      · rfl
    rw [List.cons_append, hstep, ih hd hu.2, Option.map_map]
    rfl

theorem splits_run {b : Bool} {u : List Token} (hu : Passes staysTogether u) :
    Splits b u b [u] := by
  refine ⟨by simp, ?_⟩
  intro rest
  have hrun := conjunctsFrom_run (b := b) rest hu.closed hu.shows
  rw [Int.natCast_zero] at hrun
  rw [hrun]
  exact map_parts_congr (prepend_cons u)

theorem depthAt_word {k : Keyword} (w : Word k) : depthAt 0 w.1 = 0 :=
  (depths_of_keyword 0 (keyword?_of_isKeyword w.2)).1

theorem depthAfter_word {k : Keyword} (w : Word k) : depthAfter 0 w.1 = 0 :=
  (depths_of_keyword 0 (keyword?_of_isKeyword w.2)).2

theorem splits_between {b : Bool} (w : Word .between) : Splits b [w.1] true [[w.1]] := by
  refine ⟨by simp, ?_⟩
  intro rest
  simp only [List.singleton_append, conjunctsFrom, depthAt_word, depthAfter_word, ↓reduceIte,
    keyword?_of_isKeyword w.2]
  exact map_parts_congr fun m ms => rfl

/-- The parts around an `AND`: it separates unless a `BETWEEN` waits for it. -/
def aroundAnd (b : Bool) (w : Word .and) : List (List Token) := if b then [[w.1]] else [[], []]

theorem splits_and (b : Bool) (w : Word .and) : Splits b [w.1] false (aroundAnd b w) := by
  refine ⟨by cases b <;> simp [aroundAnd], ?_⟩
  intro rest
  simp only [List.singleton_append, conjunctsFrom, depthAt_word, depthAfter_word, ↓reduceIte,
    keyword?_of_isKeyword w.2]
  cases b with
  | true => exact map_parts_congr fun m ms => rfl
  | false => exact map_parts_congr fun m ms => rfl

/-- Nothing comes of tokens that show a disjunction. -/
theorem conjunctsFrom_disjunction {depth : Nat} {b : Bool} {u : List Token} {t : Token}
    (rest : List Token) (hd : depthThrough? depth u = some 0)
    (ht : t.isKeyword .or = true ∨ t.isKeyword .xor = true) :
    conjunctsFrom depth b (u ++ t :: rest) = none := by
  induction u generalizing depth b with
  | nil =>
    cases hd
    rw [List.nil_append, conjunctsFrom]
    rcases ht with ht | ht
    · simp [keyword?_of_isKeyword ht, depthAt, (flat_of_isKeyword ht).2]
    · simp [keyword?_of_isKeyword ht, depthAt, (flat_of_isKeyword ht).2]
  | cons s u ih =>
    obtain ⟨next, hnext, hd⟩ := Option.bind_eq_some_iff.mp hd
    rw [List.cons_append, conjunctsFrom]
    simp only [depthAfter_of_depthBehind? hnext, ih hd, Option.map_none]
    split
    · split <;> simp
    · rfl

theorem scans_disjunction {b after : Bool} {u w : List Token} {t : Token}
    (hu : depthThrough? 0 u = some 0) (ht : t.isKeyword .or = true ∨ t.isKeyword .xor = true)
    {parts : List (List Token)} (hparts : parts ≠ []) : Scans b (u ++ t :: w) after parts := by
  refine ⟨hparts, ?_⟩
  intro rest out hout
  have hnone := conjunctsFrom_disjunction (b := b) (w ++ rest) hu ht
  rw [Int.natCast_zero] at hnone
  rw [List.append_assoc, List.cons_append, hnone] at hout
  cases hout

/-! ### The scan on a condition -/

/-- How the scan goes over tokens: they are left whole when they are quiet, and from a fresh start
they fall into the given parts just when they are separable. -/
def Reads (u : List Token) (quiet separable : Bool) (parts : List (List Token)) : Prop :=
  ∀ b, ∃ found, Scans b u (b && quiet) found ∧ (quiet = true → found = [u]) ∧
    (b = false → (separable = true → found = parts) ∧
      (separable = false → parts.length < found.length))

theorem reads_run {u : List Token} (hu : Passes staysTogether u) : Reads u true true [u] := by
  intro b
  rw [Bool.and_true]
  exact ⟨[u], (splits_run hu).scans, fun _ => rfl, fun _ => ⟨fun _ => rfl, nofun⟩⟩

theorem Reads.append {u w : List Token} {q₁ q₂ s₁ s₂ : Bool} (hu : Reads u q₁ s₁ [u])
    (hw : Reads w q₂ s₂ [w]) : Reads (u ++ w) (q₁ && q₂) (s₁ && s₂) [u ++ w] := by
  intro b
  obtain ⟨ps, hps, hq₁, hs₁⟩ := hu b
  obtain ⟨qs, hqs, hq₂, hs₂⟩ := hw (b && q₁)
  rw [← Bool.and_assoc]
  refine ⟨glue ps qs, hps.append hqs, ?_, ?_⟩
  · intro hq
    rw [Bool.and_eq_true] at hq
    rw [hq₁ hq.1, hq₂ hq.2]
    rfl
  · rintro rfl
    have hlen := length_glue hps.1 hqs.1
    have hp := List.length_pos_iff.mpr hps.1
    have hq := List.length_pos_iff.mpr hqs.1
    obtain ⟨hyes₁, hno₁⟩ := hs₁ rfl
    obtain ⟨hyes₂, hno₂⟩ := hs₂ rfl
    refine ⟨?_, ?_⟩
    · intro hs
      rw [Bool.and_eq_true] at hs
      rw [hyes₁ hs.1, hyes₂ hs.2]
      rfl
    · intro hs
      simp only [List.length_singleton] at hno₁ hno₂ ⊢
      rcases Bool.and_eq_false_iff.mp hs with h | h
      · have := hno₁ h
        omega
      · have := hno₂ h
        omega

/-- A condition that has to stay whole, as in a `CASE`, stays whole if it is separable and no
conjunction. -/
theorem Reads.alone {f : Form} {c : Phrase f} (h : Reads c.tokens c.quiet c.separable c.conjuncts) :
    Reads c.tokens c.quiet (c.separable && !c.isConjunction) [c.tokens] := by
  intro b
  obtain ⟨found, hscan, hq, hs⟩ := h b
  refine ⟨found, hscan, hq, ?_⟩
  intro hb
  obtain ⟨hyes, hno⟩ := hs hb
  have hpos := List.length_pos_iff.mpr c.conjuncts_ne_nil
  cases hc : c.isConjunction with
  | false =>
    rw [Phrase.conjuncts_of_not_isConjunction hc] at hyes hno
    simpa using ⟨hyes, hno⟩
  | true =>
    have hlong := Phrase.one_lt_length_conjuncts hc
    refine ⟨by simp, fun _ => ?_⟩
    cases hsep : c.separable with
    | true =>
      rw [hyes hsep]
      exact hlong
    | false =>
      have := hno hsep
      simp only [List.length_singleton]
      omega

/-- The scan on the parts around a conjunction. -/
theorem glue_aroundAnd (w : Word .and) {ps qs : List (List Token)} (hps : ps ≠ []) :
    glue ps (glue (aroundAnd false w) qs) = ps ++ glue [[]] qs := by
  induction ps with
  | nil => exact absurd rfl hps
  | cons p ps ih =>
    by_cases hps' : ps = []
    · subst hps'
      simp [aroundAnd, glue]
    · rw [glue_cons p hps', ih hps', List.cons_append]

theorem reads_enclose {u : List Token} {q s : Bool} {parts : List (List Token)} (needed : Bool)
    (hu : Reads u q s parts) (hclosed : depthThrough? 0 u = some 0) :
    Reads (Phrase.enclose needed u) (needed || q) (needed || s)
      (if needed then [Phrase.enclose needed u] else parts) := by
  cases needed with
  | false => exact hu
  | true => exact reads_run (.parenthesized rfl rfl hclosed)

theorem reads_word {k : Keyword} (w : Word k) (hk : staysTogether w.1 = true) :
    Reads [w.1] true true [[w.1]] := reads_run (passes_word w hk)

theorem reads_caseToken {k : CaseWord} (w : CaseToken k) : Reads [w.1] true true [[w.1]] := by
  refine reads_run (passes_caseToken w ?_)
  simp [staysTogether, Token.isOneOf, Token.isKeyword, keyword?_of_isCaseWord w.2]

theorem staysTogether_not (w : Word .not) : staysTogether w.1 = true := by
  simp [staysTogether, Token.isOneOf, Token.isKeyword, keyword?_of_isKeyword w.2]

theorem splits_negated_between {b : Bool} (negation : Option (Word .not)) (w : Word .between) :
    Splits b (negation.toList.map (·.1) ++ [w.1]) true [negation.toList.map (·.1) ++ [w.1]] := by
  cases negation with
  | none => exact splits_between w
  | some n => exact (splits_run (passes_word n (staysTogether_not n))).append (splits_between w)

/-- The scan on a conjunction finds what it finds on its first operand, and the second one. -/
theorem Reads.conjoin {u w : List Token} {q₁ q₂ s₁ s₂ : Bool} {parts : List (List Token)}
    (hu : Reads u q₁ s₁ parts) (a : Word .and) (hw : Reads w q₂ s₂ [w]) :
    Reads (u ++ a.1 :: w) false (s₁ && s₂) (parts ++ [w]) := by
  intro b
  obtain ⟨ps, hps, _, hs₁⟩ := hu b
  obtain ⟨qs, hqs, _, hs₂⟩ := hw false
  rw [Bool.false_and] at hqs
  rw [Bool.and_false]
  refine ⟨_, hps.append ((splits_and _ a).scans.append hqs), nofun, ?_⟩
  rintro rfl
  rw [Bool.false_and, glue_aroundAnd a hps.1]
  obtain ⟨hyes₁, hno₁⟩ := hs₁ rfl
  obtain ⟨hyes₂, hno₂⟩ := hs₂ rfl
  obtain ⟨q, qs, rfl⟩ := List.exists_cons_of_ne_nil hqs.1
  rw [glue_singleton, List.nil_append]
  refine ⟨?_, ?_⟩
  · intro hs
    rw [Bool.and_eq_true] at hs
    rw [hyes₁ hs.1, hyes₂ hs.2]
  · intro hs
    simp only [List.length_append, List.length_cons, List.length_nil] at hno₂ ⊢
    cases hsep : s₁ with
    | false =>
      have := hno₁ hsep
      omega
    | true =>
      rw [hsep, Bool.true_and] at hs
      have := hno₂ hs
      rw [hyes₁ hsep]
      omega

/-- The scan on a `BETWEEN` leaves it whole when its lower bound leaves the `AND` to it. -/
theorem Reads.range {x low high : List Token} {q₁ q₂ q₃ s₁ s₂ s₃ : Bool}
    (hx : Reads x q₁ s₁ [x]) (negation : Option (Word .not)) (w : Word .between)
    (hlow : Reads low q₂ s₂ [low]) (a : Word .and) (hhigh : Reads high q₃ s₃ [high]) :
    Reads (x ++ ((negation.toList.map (·.1) ++ [w.1]) ++ (low ++ a.1 :: high))) false
      (s₁ && (q₂ && s₃)) [x ++ ((negation.toList.map (·.1) ++ [w.1]) ++ (low ++ a.1 :: high))] := by
  intro b
  obtain ⟨xs, hxs, _, hsx⟩ := hx b
  obtain ⟨ls, hls, hql, _⟩ := hlow true
  obtain ⟨hs, hhs, _, hsh⟩ := hhigh false
  rw [Bool.true_and] at hls
  rw [Bool.false_and] at hhs
  rw [Bool.and_false]
  have hand := (splits_and q₂ a).scans
  have hbetween := (splits_negated_between (b := b && q₁) negation w).scans
  refine ⟨_, hxs.append (hbetween.append (hls.append (hand.append hhs))), nofun, ?_⟩
  rintro rfl
  obtain ⟨hyesx, hnox⟩ := hsx rfl
  obtain ⟨hyesh, hnoh⟩ := hsh rfl
  refine ⟨?_, ?_⟩
  · intro hs
    simp only [Bool.and_eq_true] at hs
    obtain ⟨hx, hlow, hhigh⟩ := hs
    rw [hyesx hx, hyesh hhigh, hql hlow, hlow]
    rfl
  · intro hs
    have h1 := length_glue hand.1 hhs.1
    have h2 := length_glue hls.1 (hand.append hhs).1
    have h3 := length_glue hbetween.1 (hls.append (hand.append hhs)).1
    have h4 := length_glue hxs.1 (hbetween.append (hls.append (hand.append hhs))).1
    have hx := List.length_pos_iff.mpr hxs.1
    have hl := List.length_pos_iff.mpr hls.1
    have hh := List.length_pos_iff.mpr hhs.1
    have ha := List.length_pos_iff.mpr hand.1
    simp only [List.length_singleton] at h3 hnox hnoh ⊢
    rcases Bool.and_eq_false_iff.mp hs with h | h
    · have := hnox h
      omega
    rcases Bool.and_eq_false_iff.mp h with h | h
    · have hsplit : (aroundAnd q₂ a).length = 2 := by
        rw [h]
        rfl
      omega
    · have := hnoh h
      omega

section Phrase

variable {f : Form} {c : Phrase f}

/-- Where a conjunction would need parentheses, a condition is read as one part. -/
theorem Reads.atLevel (h : Reads c.tokens c.quiet c.separable c.conjuncts) (wanted : Nat)
    (hw : 3 ≤ wanted) :
    Reads (c.tokensAt wanted) (c.shielded wanted || c.quiet) (c.shielded wanted || c.separable)
      [c.tokensAt wanted] := by
  have hread := reads_enclose (c.shielded wanted) h c.passes_tokens.closed
  cases hs : c.shielded wanted with
  | true => simpa [hs, Phrase.tokensAt] using hread
  | false =>
    have hc := Phrase.not_isConjunction_of_not_shielded hw hs
    simpa [hs, Phrase.tokensAt, Phrase.enclose, Phrase.conjuncts_of_not_isConjunction hc] using hread

end Phrase

/-- The scan finds the operands of the outermost conjunction of a condition that is separable, and
more parts than that of any other. -/
theorem reads_tokens {f : Form} (c : Phrase f) :
    Reads c.tokens c.quiet c.separable c.conjuncts := by
  induction c with
  | atom run => exact reads_run (run.atomic.mono fun t => staysTogether_of_isAtomic)
  | group c ih => exact reads_run (.parenthesized rfl rfl c.passes_tokens.closed)
  | not w c ih => exact (reads_word w (staysTogether_not w)).append (ih.atLevel 3 (Nat.le_refl 3))
  | and l w r ihl ihr =>
    have hl := reads_enclose (l.shielded 2) ihl l.passes_tokens.closed
    exact hl.conjoin w (ihr.atLevel 3 (Nat.le_refl 3))
  | xor l w r ihl ihr =>
    intro b
    refine ⟨[_], scans_disjunction ?_ (Or.inr w.2) (by simp), nofun, fun _ => ⟨fun _ => rfl, nofun⟩⟩
    exact (Phrase.passes_enclose rfl rfl _ l.passes_tokens).closed
  | or l w r ihl ihr =>
    intro b
    refine ⟨[_], scans_disjunction ?_ (Or.inl w.2) (by simp), nofun, fun _ => ⟨fun _ => rfl, nofun⟩⟩
    exact (Phrase.passes_enclose rfl rfl _ l.passes_tokens).closed
  | between x negation w low a high ihx ihl ihh =>
    have hlow := ihl.atLevel 6 (by decide)
    exact (ihx.atLevel 6 (by decide)).range negation w hlow a (ihh.atLevel 5 (by decide))
  | choose w b ih =>
    have hb : b.isConjunction = false := by cases b <;> rfl
    rw [Phrase.conjuncts_of_not_isConjunction hb] at ih
    exact (reads_caseToken w).append ih
  | when_ w c t r more ihc ihr ihm =>
    have hm : more.isConjunction = false := by cases more <;> rfl
    rw [Phrase.conjuncts_of_not_isConjunction hm] at ihm
    exact (reads_caseToken w).append
      (ihc.alone.append ((reads_caseToken t).append (ihr.alone.append ihm)))
  | else_ w r e ih =>
    have h := (reads_caseToken w).append (ih.alone.append (reads_caseToken e))
    show Reads (w.1 :: (r.tokens ++ [e.1])) r.quiet (r.separable && !r.isConjunction)
      [w.1 :: (r.tokens ++ [e.1])]
    simpa using h
  | end_ e => exact reads_caseToken e

end Scope
end QueryGate
