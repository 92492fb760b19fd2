import QueryGate.Proofs.Sql.Nesting

/-!
# Parentheses that belong together

The search for the parenthesis that closes another one counts from there on; the depth of a token is
counted from the front of the text.  The two counts agree: a parenthesis and the one that closes it
have the same depth, and what is between them is deeper.  So of two pairs of parentheses one lies
inside the other, or they lie apart.
-/

namespace QueryGate
namespace Sql

variable {ts u w : List Token} {start stop : Nat}

/-! ### Depths along a text -/

theorem depthsFrom_append {depth inner : Nat} (w : List Token)
    (h : depthThrough? depth u = some inner) :
    depthsFrom depth (u ++ w) = depthsFrom depth u ++ depthsFrom inner w := by
  induction u generalizing depth with
  | nil =>
    cases h
    rfl
  | cons t u ih =>
    obtain ⟨next, hnext, h⟩ := Option.bind_eq_some_iff.mp h
    rw [List.cons_append, depthsFrom, depthsFrom, depthAfter_of_depthBehind? hnext, ih h,
      List.cons_append]

theorem length_depthsFrom (depth : Int) (ts : List Token) :
    (depthsFrom depth ts).length = ts.length := by
  induction ts generalizing depth with
  | nil => rfl
  | cons t r ih => rw [depthsFrom, List.length_cons, List.length_cons, ih]

theorem le_depthAt {outer depth inner : Nat} {t : Token} (h : depthBehind? depth t = some inner) :
    (outer : Int) ≤ depthAt ((depth + outer : Nat) : Int) t := by
  unfold depthBehind? at h
  unfold depthAt
  split
  · have hdepth : depth ≠ 0 := by
      rintro rfl
      simp_all
    omega
  · omega

/-- Tokens that close no parenthesis but their own are nowhere less deep than what is around
them. -/
theorem le_of_mem_depthsFrom (outer : Nat) {depth inner : Nat}
    (h : depthThrough? depth u = some inner) :
    ∀ d ∈ depthsFrom ((depth + outer : Nat) : Int) u, (outer : Int) ≤ d := by
  induction u generalizing depth with
  | nil => exact List.forall_mem_nil _
  | cons t u ih =>
    obtain ⟨next, hnext, h⟩ := Option.bind_eq_some_iff.mp h
    rw [depthsFrom, depthAfter_of_depthBehind? (depthBehind?_add hnext)]
    exact List.forall_mem_cons.mpr ⟨le_depthAt hnext, ih h⟩

/-! ### The end of a parenthesis -/

/-- Tokens that close a parenthesis in front of them do so for the first time behind a run that
closes only its own. -/
theorem exists_closing {inside outer last : Nat} (hlast : last ≤ outer)
    (h : depthThrough? (inside + 1 + outer) ts = some last) :
    ∃ u w, ts = u ++ .rparen :: w ∧ depthThrough? inside u = some 0 := by
  -- `inside` counts what the run has opened itself, one parenthesis in front of it comes on top.
  induction ts generalizing inside with
  | nil =>
    have hdepth := Option.some.inj h
    omega
  | cons t r ih =>
    obtain ⟨next, hnext, h⟩ := Option.bind_eq_some_iff.mp h
    by_cases hhere : t = .rparen ∧ inside = 0
    · obtain ⟨rfl, rfl⟩ := hhere
      exact ⟨[], r, rfl, rfl⟩
    · obtain ⟨inner, hinner⟩ : ∃ inner, depthBehind? inside t = some inner :=
        ⟨_, by rw [depthBehind?, if_neg hhere]⟩
      have hdeep : depthBehind? (inside + (1 + outer)) t = some (inner + (1 + outer)) :=
        depthBehind?_add hinner
      rw [← Nat.add_assoc, hnext, ← Nat.add_assoc] at hdeep
      rw [Option.some.inj hdeep] at h
      obtain ⟨u, w, rfl, hu⟩ := ih h
      exact ⟨t :: u, w, rfl, by rw [depthThrough?, hinner, Option.bind_some, hu]⟩

/-- The search passes a token that leaves its parenthesis open. -/
theorem closingFrom_cons {depth inner : Nat} {t : Token} (place : Nat) (r : List Token)
    (h : depthBehind? depth t = some inner) :
    closingFrom ((depth : Int) + 1) place (t :: r) =
      closingFrom ((inner : Int) + 1) (place + 1) r := by
  have hafter := depthAfter_of_depthBehind? h
  cases t with
  | lparen =>
    rw [closingFrom, ← hafter]
    rfl
  | rparen =>
    have hdepth : depth ≠ 0 := by
      rintro rfl
      cases h
    have hinner : (depth : Int) + 1 - 1 = inner + 1 := by
      rw [← hafter, depthAfter, Token.depthChange]
      omega
    rw [closingFrom, if_neg (by omega), hinner]
  | _ =>
    have hsame : inner = depth := (Option.some.inj h).symm
    rw [closingFrom, hsame] <;> rintro ⟨⟩

theorem closingFrom_append {depth inner : Nat} (place : Nat) (w : List Token)
    (h : depthThrough? depth u = some inner) :
    closingFrom ((depth : Int) + 1) place (u ++ w) =
      closingFrom ((inner : Int) + 1) (place + u.length) w := by
  induction u generalizing depth place with
  | nil =>
    cases h
    rfl
  | cons t u ih =>
    obtain ⟨next, hnext, h⟩ := Option.bind_eq_some_iff.mp h
    rw [List.cons_append, closingFrom_cons place _ hnext, ih (place + 1) h, List.length_cons,
      Nat.add_assoc, Nat.add_comm 1]

/-! ### Pairs -/

/-- Whether the parenthesis at `stop` is the one that is found to close the one at `start`. -/
def IsPair (ts : List Token) (start stop : Nat) : Prop :=
  ts[start]? = some .lparen ∧ matchingParen ts start = some stop

instance (ts : List Token) (start stop : Nat) : Decidable (IsPair ts start stop) :=
  inferInstanceAs (Decidable (_ ∧ _))

/-- What the depths of a text say about two places, the second of which ends what the first one
begins. -/
structure Encloses (ts : List Token) (start stop : Nat) : Prop where
  lt : start < stop
  closes : ts[stop]? = some .rparen
  /-- Both places have the same depth, and those between them a greater one. -/
  deeper : ∃ outer, (depths ts)[start]? = some outer ∧ (depths ts)[stop]? = some outer ∧
    ∀ place, start < place → place < stop →
      ∃ inner, (depths ts)[place]? = some inner ∧ outer < inner
  /-- What is between them closes all its parentheses and no other. -/
  balanced : depthThrough? 0 ((ts.take stop).drop (start + 1)) = some 0

/-- A text around two of its parentheses, between which nothing is left open. -/
structure Surrounds (ts front u w : List Token) (depth : Nat) : Prop where
  tokens : ts = front ++ .lparen :: (u ++ .rparen :: w)
  front : depthThrough? 0 front = some depth
  inside : depthThrough? 0 u = some 0

/-- In a text that closes all its parentheses each of them has an end. -/
theorem exists_surrounds (hclosed : depthThrough? 0 ts = some 0)
    (hopen : ts[start]? = some .lparen) :
    ∃ front u w depth, Surrounds ts front u w depth ∧ front.length = start := by
  obtain ⟨hlt, hstart⟩ := List.getElem?_eq_some_iff.mp hopen
  have hts : ts = ts.take start ++ .lparen :: ts.drop (start + 1) := by
    rw [← hstart, ← List.drop_eq_getElem_cons hlt, List.take_append_drop]
  rw [hts, depthThrough?_append] at hclosed
  obtain ⟨depth, hfront, hrest⟩ := Option.bind_eq_some_iff.mp hclosed
  have hdeep : depthThrough? (0 + 1 + depth) (ts.drop (start + 1)) = some 0 := by
    rw [Nat.zero_add, Nat.add_comm]
    exact hrest
  obtain ⟨u, w, hclose, hinside⟩ := exists_closing (Nat.zero_le depth) hdeep
  rw [hclose] at hts
  exact ⟨_, u, w, depth, ⟨hts, hfront, hinside⟩, List.length_take_of_le (Nat.le_of_lt hlt)⟩

namespace Surrounds

variable {front : List Token} {depth : Nat} (h : Surrounds ts front u w depth)

include h

theorem matchingParen : matchingParen ts front.length = some (front.length + 1 + u.length) := by
  have hrun := closingFrom_append (front.length + 1) (.rparen :: w) h.inside
  rw [Sql.matchingParen, h.tokens, List.drop_left]
  exact hrun

theorem depths_eq : depths ts =
    depthsFrom 0 front ++ (depth : Int) :: (depthsFrom ((depth + 1 : Nat) : Int) u ++
      (depth : Int) :: depthsFrom depth w) := by
  have hu : depthThrough? (depth + 1) u = some (depth + 1) := by
    have hadd := depthThrough?_add (depth + 1) h.inside
    rwa [Nat.zero_add] at hadd
  have hfront := depthsFrom_append (.lparen :: (u ++ .rparen :: w)) h.front
  have hinside := depthsFrom_append (.rparen :: w) hu
  have hopen : depthAfter (depth : Int) .lparen = ((depth + 1 : Nat) : Int) := rfl
  have hclose : depthAfter ((depth + 1 : Nat) : Int) .rparen = (depth : Int) := by
    rw [depthAfter, Token.depthChange]
    omega
  have hat : depthAt ((depth + 1 : Nat) : Int) .rparen = (depth : Int) := by
    rw [depthAt, if_pos rfl]
    omega
  rw [depths, h.tokens, ← Int.natCast_zero, hfront, depthsFrom, hopen, hinside, depthsFrom, hclose,
    hat]
  rfl

theorem depth_start : (depths ts)[front.length]? = some (depth : Int) := by
  have hfront := length_depthsFrom 0 front
  rw [h.depths_eq, List.getElem?_append_right (by omega), hfront, Nat.sub_self]
  rfl

theorem depth_behind_start (place : Nat) : (depths ts)[front.length + 1 + place]? =
    (depthsFrom ((depth + 1 : Nat) : Int) u ++ (depth : Int) :: depthsFrom depth w)[place]? := by
  have hfront := length_depthsFrom 0 front
  rw [h.depths_eq, List.getElem?_append_right (by omega), hfront, Nat.add_assoc,
    Nat.add_sub_cancel_left, Nat.add_comm 1, List.getElem?_cons_succ]

theorem depth_stop : (depths ts)[front.length + 1 + u.length]? = some (depth : Int) := by
  have hinside := length_depthsFrom ((depth + 1 : Nat) : Int) u
  rw [h.depth_behind_start, List.getElem?_append_right (by omega), hinside, Nat.sub_self]
  rfl

theorem lt_depth {place : Nat} (hplace : place < u.length) :
    ∃ inner, (depths ts)[front.length + 1 + place]? = some inner ∧ (depth : Int) < inner := by
  have hdeeper := le_of_mem_depthsFrom (depth + 1) h.inside
  rw [Nat.zero_add] at hdeeper
  have hlt : place < (depthsFrom ((depth + 1 : Nat) : Int) u).length := by
    rwa [length_depthsFrom]
  refine ⟨_, ?_, hdeeper _ (List.getElem_mem hlt)⟩
  rw [h.depth_behind_start, List.getElem?_append_left hlt, List.getElem?_eq_getElem hlt]

theorem encloses : Encloses ts front.length (front.length + 1 + u.length) := by
  refine ⟨by omega, ?_, ⟨depth, h.depth_start, h.depth_stop, fun place hlt hle => ?_⟩, ?_⟩
  · rw [h.tokens, List.getElem?_append_right (by omega)]
    simp [Nat.add_assoc, Nat.add_comm 1]
  · obtain ⟨i, rfl⟩ := Nat.exists_eq_add_of_le (Nat.succ_le_of_lt hlt)
    exact h.lt_depth (Nat.lt_of_add_lt_add_left hle)
  · have htokens : ts = (front ++ [.lparen] ++ u) ++ .rparen :: w := by
      rw [h.tokens]
      simp
    rw [htokens, List.take_left' (by simp [Nat.add_assoc, Nat.add_comm 1]),
      List.drop_left' (by simp)]
    exact h.inside

end Surrounds

theorem exists_pair (hclosed : depthThrough? 0 ts = some 0) (hopen : ts[start]? = some .lparen) :
    ∃ stop, matchingParen ts start = some stop ∧ Encloses ts start stop := by
  obtain ⟨front, u, w, depth, h, rfl⟩ := exists_surrounds hclosed hopen
  exact ⟨_, h.matchingParen, h.encloses⟩

namespace Encloses

variable {start' stop' : Nat}

/-- A pair that begins inside another one ends there too: else the end of the other one would lie
inside it, and would be deeper than itself. -/
theorem lt_or_lt (h : Encloses ts start stop) (h' : Encloses ts start' stop')
    (hopen : ts[start']? = some .lparen) (hlt : start < start') : stop < start' ∨ stop' < stop := by
  by_cases hapart : stop < start'
  · exact .inl hapart
  right
  have hne : start' ≠ stop := by
    rintro rfl
    cases hopen.symm.trans h.closes
  obtain ⟨outer, -, hstop, hinside⟩ := h.deeper
  obtain ⟨outer', hstart', hstop', hinside'⟩ := h'.deeper
  obtain ⟨inner, hinner, hdeep⟩ := hinside start' hlt (by omega)
  cases hinner.symm.trans hstart'
  rcases Nat.lt_trichotomy stop' stop with hbefore | rfl | hbehind
  · exact hbefore
  · cases hstop.symm.trans hstop'
    exact absurd hdeep (Int.lt_irrefl _)
  · obtain ⟨inner', hinner', hdeep'⟩ := hinside' stop (by omega) hbehind
    cases hinner'.symm.trans hstop
    exact absurd hdeep (Int.not_lt.mpr (Int.le_of_lt hdeep'))

end Encloses

theorem IsPair.encloses (hclosed : depthThrough? 0 ts = some 0) (h : IsPair ts start stop) :
    Encloses ts start stop := by
  obtain ⟨stop', hstop', hencloses⟩ := exists_pair hclosed h.1
  rwa [Option.some.inj (h.2.symm.trans hstop')]

/-- In the tokens of a text every opening parenthesis has one that closes it, at the same depth and
with nothing but deeper tokens between them.  No two parentheses are closed by the same one, and two
pairs lie apart or one inside the other. -/
theorem parentheses_pair_up {cs : List Char} (h : tokenize cs = .ok ts) :
    (∀ start, ts[start]? = some .lparen →
      ∃ stop, matchingParen ts start = some stop ∧ Encloses ts start stop) ∧
    (∀ start start' stop, IsPair ts start stop → IsPair ts start' stop → start = start') ∧
    (∀ start stop start' stop', IsPair ts start stop → IsPair ts start' stop' →
      start < start' → stop < start' ∨ stop' < stop) := by
  have hclosed := depthThrough?_of_tokensFrom (tokenize_eq_ok_iff.mp h)
  have hapart (start stop start' stop' : Nat) (hpair : IsPair ts start stop)
      (hpair' : IsPair ts start' stop') (hlt : start < start') : stop < start' ∨ stop' < stop :=
    (hpair.encloses hclosed).lt_or_lt (hpair'.encloses hclosed) hpair'.1 hlt
  refine ⟨fun start => exists_pair hclosed, ?_, hapart⟩
  intro start start' stop hpair hpair'
  have hstop := (hpair.encloses hclosed).lt
  have hstop' := (hpair'.encloses hclosed).lt
  rcases Nat.lt_trichotomy start start' with hlt | heq | hlt
  · have := hapart _ _ _ _ hpair hpair' hlt
    omega
  · exact heq
  · have := hapart _ _ _ _ hpair' hpair hlt
    omega

/-- A text with parentheses inside each other and side by side. -/
def nestedText : List Char := "f((a), 'x(') IN ()".toList

/-- The tokens of `nestedText`. -/
def nestedTokens : List Token :=
  [.word ['f'], .lparen, .lparen, .word ['a'], .rparen, .comma, .literal .single ['x', '('],
    .rparen, .word ['I', 'N'], .lparen, .rparen]

theorem parentheses_pair_up_in_nestedText :
    tokenize nestedText = .ok nestedTokens ∧ IsPair nestedTokens 1 7 ∧ IsPair nestedTokens 2 4 ∧
      Encloses nestedTokens 1 7 ∧ ¬ IsPair nestedTokens 2 7 ∧ (7 < 2 ∨ 4 < 7) := by
  have htokens : tokenize nestedText = .ok nestedTokens := by
    rw [tokenize_eq_ok_iff]
    decide +kernel
  have houter : IsPair nestedTokens 1 7 := by decide
  have hinner : IsPair nestedTokens 2 4 := by decide
  obtain ⟨hends, hinjective, hnested⟩ := parentheses_pair_up htokens
  refine ⟨htokens, houter, hinner, ?_, ?_, ?_⟩
  · obtain ⟨stop, hstop, hencloses⟩ := hends 1 houter.1
    rwa [Option.some.inj (houter.2.symm.trans hstop)]
  · intro hother
    exact absurd (hinjective 1 2 7 houter hother) (by decide)
  · exact hnested 1 7 2 4 houter hinner (by decide)

end Sql
end QueryGate
