import QueryGate.Indexed.Structure
import QueryGate.Proofs.Sql.Nesting

/-!
# Reading by place and reading from the front

Where a walk over a list is at a place, the items that are left are those behind it.  So every read
at the place is one of the first items that are left, and a walk by place does what the recursion
over the items that are left does.  Nothing is read outside the list on the way, and there is always
a part or a clause that the next token can be added to.
-/

namespace QueryGate
namespace Indexed

open Sql

variable {α β : Type}

/-! ### Runs -/

@[simp] theorem ok_bind {ε : Type} (x : α) (next : α → Except ε β) :
    ((.ok x : Except ε α) >>= next) = next x := rfl

@[simp] theorem error_bind {ε : Type} (e : ε) (next : α → Except ε β) :
    ((.error e : Except ε α) >>= next) = .error e := rfl

@[simp] theorem guarded_true (test : Run Bool) : guarded true test = test := rfl

@[simp] theorem guarded_false (test : Run Bool) : guarded false test = .ok false := rfl

theorem guarded_ok (condition answer : Bool) :
    guarded condition (.ok answer) = .ok (condition && answer) := by
  cases condition <;> rfl

/-! ### Items -/

section Items

variable {xs rest : List α} {x : α} {place : Nat}

theorem lt_of_drop (h : xs.drop place = x :: rest) : place < xs.length := by
  refine Nat.lt_of_not_le fun hle => ?_
  rw [List.drop_eq_nil_of_le hle] at h
  cases h

theorem drop_succ (h : xs.drop place = x :: rest) : xs.drop (place + 1) = rest := by
  rw [← List.drop_drop, h]
  rfl

theorem drop_length (h : xs.drop place = rest) (hle : place ≤ xs.length) :
    place + rest.length = xs.length := by
  rw [← h, List.length_drop]
  omega

theorem item_eq_getElem? (xs : List α) (place : Nat) :
    item xs place =
      match xs[place]? with
      | some x => .ok x
      | none => .error .noItem := by
  have hle : ¬(place : Int) < 0 := Int.not_lt.mpr (Int.natCast_nonneg place)
  cases hx : xs[place]? with
  | none => simp only [item, if_neg hle, Int.toNat_natCast, hx]
  | some x => simp only [item, if_neg hle, Int.toNat_natCast, hx]

theorem item_of_drop (h : xs.drop place = x :: rest) : item xs place = .ok x := by
  have hx : xs[place]? = some x := by
    rw [← List.head?_drop, h]
    rfl
  rw [item_eq_getElem?, hx]

theorem itemHas_of_drop (h : xs.drop place = x :: rest) (p : α → Bool) :
    itemHas xs place p = .ok (p x) := by
  rw [itemHas, item_of_drop h, ok_bind]

theorem itemIs_of_drop (h : xs.drop place = x :: rest) (p : α → Bool) :
    itemIs xs place p = .ok (p x) := by
  rw [itemIs, decide_eq_true (lt_of_drop h), guarded_true, itemHas_of_drop h]

theorem itemIs_of_end (h : xs.drop place = []) (p : α → Bool) : itemIs xs place p = .ok false := by
  have hle : ¬place < xs.length := Nat.not_lt.mpr (List.drop_eq_nil_iff.mp h)
  rw [itemIs, decide_eq_false hle, guarded_false]

theorem itemIs_eq (xs : List α) (place : Nat) (p : α → Bool) :
    itemIs xs place p = .ok ((xs.drop place).head?.any p) := by
  cases h : xs.drop place with
  | nil => exact itemIs_of_end h p
  | cons x rest => exact itemIs_of_drop h p

theorem itemIs_front (xs : List α) (p : α → Bool) : itemIs xs 0 p = .ok (xs.head?.any p) :=
  itemIs_eq xs 0 p

theorem itemOr_of_drop (h : xs.drop place = rest) (other : α) :
    itemOr xs place other = .ok (rest.head?.getD other) := by
  cases rest with
  | nil => rw [itemOr, if_neg (Nat.not_lt.mpr (List.drop_eq_nil_iff.mp h))]; rfl
  | cons x rest => rw [itemOr, if_pos (lt_of_drop h), item_of_drop h]; rfl

/-- The items at the front are read as long as there is one for each test. -/
theorem itemsMeet_of_drop {ps : List (α → Bool)} (h : xs.drop place = rest)
    (hlength : ps.length ≤ rest.length) :
    itemsMeet xs place ps = .ok ((ps.zip rest).all fun c => c.1 c.2) := by
  induction ps generalizing place rest with
  | nil => rfl
  | cons p ps ih =>
    cases rest with
    | nil => exact absurd hlength (Nat.not_succ_le_zero _)
    | cons x rest =>
      rw [itemsMeet, itemHas_of_drop h, ok_bind, ih (drop_succ h) (Nat.le_of_succ_le_succ hlength)]
      cases hp : p x <;> simp [hp]

theorem itemsMeet_front (xs : List α) {ps : List (α → Bool)} (hlength : ps.length ≤ xs.length) :
    itemsMeet xs 0 ps = .ok ((ps.zip xs).all fun c => c.1 c.2) :=
  itemsMeet_of_drop List.drop_zero hlength

theorem slice_of_drop (h : xs.drop place = rest) (n : Nat) :
    slice xs place (place + n) = rest.take n := by
  rw [slice, h, Nat.add_sub_cancel_left]

theorem item_last (front : List α) (x : α) : item (front ++ [x]) (-1) = .ok x := by
  have hplace : (-1 : Int) + ((front ++ [x]).length : Nat) = front.length := by
    rw [List.length_append, List.length_singleton]
    omega
  have hle : ¬(front.length : Int) < 0 := Int.not_lt.mpr (Int.natCast_nonneg _)
  simp only [item, if_pos (by decide : (-1 : Int) < 0), hplace, if_neg hle, Int.toNat_natCast,
    List.getElem?_concat_length]

theorem appendLast_concat (front : List (List α)) (part : List α) (x : α) :
    appendLast (front ++ [part]) x = .ok (front ++ [part ++ [x]]) := by
  rw [appendLast, item_last, ok_bind, List.dropLast_concat]

end Items

/-! ### Parts -/

section Parts

variable {σ : Type} (step : σ → Token → Option (σ × Move))

/-- What a cutting adds: to the part under way, and the parts behind it. -/
def partsFrom (s : σ) : List Token → Option (List Token × List (List Token))
  | [] => some ([], [])
  | t :: r =>
    match step s t with
    | none => none
    | some (next, .skip) => partsFrom next r
    | some (next, .start) => (partsFrom next r).map fun p => ([], p.1 :: p.2)
    | some (next, .keep) => (partsFrom next r).map fun p => (t :: p.1, p.2)

/-- The part under way is there from the start, so that a token always has a last part to go to. -/
theorem cutInto_eq (front : List (List Token)) (part : List Token) (s : σ) (ts : List Token) :
    cutInto step (front ++ [part]) s ts =
      .ok ((partsFrom step s ts).map fun p => front ++ (part ++ p.1) :: p.2) := by
  induction ts generalizing front part s with
  | nil => simp [cutInto, partsFrom]
  | cons t r ih =>
    rw [cutInto, partsFrom]
    rcases step s t with _ | ⟨next, _ | _ | _⟩
    · rfl
    · simp [appendLast_concat, ih, Function.comp_def]
    · exact ih front part next
    · show cutInto step (front ++ [part] ++ [[]]) next r = _
      rw [ih (front ++ [part]) []]
      simp [Function.comp_def]

theorem cutInto_start (s : σ) (ts : List Token) :
    cutInto step [[]] s ts = .ok ((partsFrom step s ts).map fun p => p.1 :: p.2) :=
  cutInto_eq step [] [] s ts

end Parts

theorem partsFrom_separators (separates : Token → Bool) (depth : Int) (ts : List Token) :
    (partsFrom (separatorStep separates) depth ts).map (fun p => p.1 :: p.2) =
      some (splitTopLevelFrom separates depth ts) := by
  induction ts generalizing depth with
  | nil => rfl
  | cons t r ih =>
    obtain ⟨p, hp, hparts⟩ := Option.map_eq_some_iff.mp (ih (depthAfter depth t))
    by_cases h : depthAt depth t = 0 ∧ separates t
    · simp [partsFrom, splitTopLevelFrom, separatorStep, h, hp, hparts]
    · simp [partsFrom, splitTopLevelFrom, separatorStep, h, hp, ← hparts, consFirst]

theorem splitTopLevel_eq (separates : Token → Bool) (ts : List Token) :
    splitTopLevel separates ts = .ok (Sql.splitTopLevel separates ts) := by
  rw [splitTopLevel, cutInto_start, partsFrom_separators]
  rfl

theorem partsFrom_unions (afterUnion : Bool) (depth : Int) (ts : List Token) :
    (partsFrom unionStep (afterUnion, depth) ts).map (fun p => p.1 :: p.2) =
      some (blocksFrom afterUnion depth ts) := by
  induction ts generalizing afterUnion depth with
  | nil => rfl
  | cons t r ih =>
    by_cases hskip : (afterUnion && t.isOneOf [.all, .distinct]) = true
    · simp only [partsFrom, blocksFrom, unionStep, if_pos hskip]
      exact ih false (depthAfter depth t)
    · by_cases hunion : depthAt depth t = 0 ∧ t.isKeyword .union
      · obtain ⟨p, hp, hparts⟩ := Option.map_eq_some_iff.mp (ih true (depthAfter depth t))
        simp [partsFrom, blocksFrom, unionStep, hskip, hunion, hp, hparts]
      · obtain ⟨p, hp, hparts⟩ := Option.map_eq_some_iff.mp (ih false (depthAfter depth t))
        simp [partsFrom, blocksFrom, unionStep, hskip, hunion, hp, ← hparts, consFirst]

theorem splitUnion_eq (ts : List Token) : splitUnion ts = ofReading (Sql.splitUnion ts) := by
  rw [splitUnion, cutInto_start, partsFrom_unions, ok_bind, Sql.splitUnion]
  simp only [Option.getD_some]
  split <;> rfl

/-! ### Parentheses -/

theorem closingAt_eq (ts : List Token) (depth : Int) (place : Nat) :
    closingAt ts depth place = .ok (closingFrom depth place (ts.drop place)) := by
  fun_induction closingAt ts depth place with
  | case1 depth place hlt ih1 ih2 ih3 =>
    obtain ⟨t, hdrop⟩ : ∃ t, ts.drop place = t :: ts.drop (place + 1) :=
      ⟨_, List.drop_eq_getElem_cons hlt⟩
    rw [item_of_drop hdrop, ok_bind, hdrop]
    by_cases hopen : t = .lparen
    · rw [if_pos hopen, ih1, hopen, closingFrom]
    · rw [if_neg hopen]
      by_cases hclose : t = .rparen
      · rw [if_pos hclose, hclose, closingFrom]
        by_cases hdepth : depth = 1
        · rw [if_pos (by omega), if_pos hdepth]
        · rw [if_neg (by omega), if_neg hdepth, ih2]
      · rw [if_neg hclose, ih3, closingFrom]
        · exact hopen
        · exact hclose
  | case2 depth place hlt =>
    rw [List.drop_eq_nil_of_le (Nat.le_of_not_lt hlt)]
    rfl

theorem matchingParen_eq (ts : List Token) (start : Nat) :
    matchingParen ts start = .ok (Sql.matchingParen ts start) := closingAt_eq ts 0 start

/-! ### Clauses -/

namespace Clauses

/-- The state of the reading inside the clause `c`, of which `body` has been read. -/
def inside (front : List Section) (c : Clause) (body : List Token) : Clauses :=
  ⟨front ++ [⟨c, body⟩], some c, c.rank, none⟩

section Inside

variable {front : List Section} {c : Clause} (body : List Token)

theorem rank_le_of_has (hfront : ∀ s ∈ front, s.clause.rank < c.rank) {d : Clause}
    (h : (inside front c body).has d = true) : d.rank ≤ c.rank := by
  obtain ⟨s, hs, hclause⟩ := List.any_eq_true.mp h
  rw [← beq_iff_eq.mp hclause]
  rcases List.mem_append.mp hs with hs | hs
  · exact Nat.le_of_lt (hfront s hs)
  · have heq : s = ⟨c, body⟩ := List.mem_singleton.mp hs
    exact Nat.le_of_eq (congrArg (·.clause.rank) heq)

/-- The clause under way is there to be added to, and it is the only one of its name. -/
theorem add_inside (hfront : ∀ s ∈ front, s.clause.rank < c.rank) (t : Token) :
    (inside front c body).add t = .ok (inside front c (body ++ [t])) := by
  have hhas : (inside front c body).has c = true :=
    List.any_eq_true.mpr ⟨⟨c, body⟩, by simp [inside], beq_self_eq_true c⟩
  have hkept : front.map (fun s : Section =>
      if s.clause = c then { s with body := s.body ++ [t] } else s) = front := by
    rw [List.map_congr_left (g := id), List.map_id]
    intro s hs
    have hne : s.clause ≠ c := fun heq => Nat.lt_irrefl c.rank (heq ▸ hfront s hs)
    rw [if_neg hne, id]
  show (if (inside front c body).has c then _ else _) = _
  rw [if_pos hhas, inside]
  simp only [List.map_append, hkept, List.map_cons, List.map_nil, if_true]
  rfl

theorem start_inside (hfront : ∀ s ∈ front, s.clause.rank < c.rank) (d : Clause) :
    (inside front c body).start d =
      if d.rank ≤ c.rank then .error (.malformed (.unexpectedClause d))
      else .ok { inside (front ++ [⟨c, body⟩]) d [] with
        waiting := if d.needsBy then some d else none } := by
  by_cases hrank : d.rank ≤ c.rank
  · rw [if_pos hrank]
    exact if_pos (.inr (Int.ofNat_le.mpr hrank))
  · rw [if_neg hrank]
    refine if_neg ?_
    rintro (hhas | hle)
    · exact hrank (rank_le_of_has body hfront hhas)
    · exact hrank (Int.ofNat_le.mp hle)

theorem take_inside (hfront : ∀ s ∈ front, s.clause.rank < c.rank) (depth : Int) (t : Token) :
    (inside front c body).take depth t =
      (if depth = 0 then t.clause? else none).elim (.ok (inside front c (body ++ [t])))
        (inside front c body).start := by
  have hwaiting : (inside front c body).waiting = none := rfl
  rw [take, hwaiting]
  dsimp only
  rw [add_inside body hfront]
  cases t.clause? with
  | none => simp only [ite_self, Option.elim_none]
  | some d => by_cases hdepth : depth = 0 <;> simp [hdepth]

theorem rank_lt_of_concat (hfront : ∀ s ∈ front, s.clause.rank < c.rank) {d : Clause}
    (hrank : ¬d.rank ≤ c.rank) : ∀ s ∈ front ++ [⟨c, body⟩], s.clause.rank < d.rank := by
  intro s hs
  rcases List.mem_append.mp hs with hs | hs
  · exact Nat.lt_trans (hfront s hs) (Nat.lt_of_not_le hrank)
  · rw [List.mem_singleton.mp hs]
    exact Nat.lt_of_not_le hrank

/-- A clause whose keyword waits for its `BY` starts behind it. -/
theorem readFrom_waiting (ts : List Token) :
    { inside front c [] with waiting := some c }.readFrom 0 ts =
      match ts with
      | [] => .error (.malformed (.missingBy c))
      | t :: r =>
        if t.isKeyword .by_ then (inside front c []).readFrom 0 r
        else .error (.malformed (.missingBy c)) := by
  cases ts with
  | nil => rfl
  | cons t r =>
    by_cases hby : t.isKeyword .by_ = true
    · have hdepth := (depths_of_keyword 0 (beq_iff_eq.mp hby)).2
      simp only [readFrom, take, if_pos hby, ok_bind, hdepth]
      rfl
    · simp only [readFrom, take, if_neg hby, error_bind]

end Inside

theorem ofReading_opened {front : List Section} {c d : Clause} {body : List Token}
    (read : Except SyntaxFault (List Token × List Section)) :
    ofReading (read.map fun p => front ++ [⟨c, body⟩] ++ ⟨d, [] ++ p.1⟩ :: p.2) =
      ofReading (Except.map (fun p => front ++ ⟨c, body ++ p.1⟩ :: p.2)
        (match read with
        | .error fault => .error fault
        | .ok (more, later) => .ok ([], ⟨d, more⟩ :: later))) := by
  rcases read with fault | ⟨more, later⟩
  · rfl
  · simp [Except.map, ofReading]

/-- From inside a clause the reading goes on as the recursion over the tokens that are left. -/
theorem readFrom_inside {front : List Section} {c : Clause} (body : List Token)
    (hfront : ∀ s ∈ front, s.clause.rank < c.rank) (depth : Int) (ts : List Token) :
    (inside front c body).readFrom depth ts =
      ofReading ((sectionsFrom c depth ts).map fun p => front ++ ⟨c, body ++ p.1⟩ :: p.2) := by
  match ts with
  | [] =>
    show .ok (front ++ [⟨c, body⟩]) = ofReading (.ok (front ++ [⟨c, body ++ []⟩]))
    rw [List.append_nil]
    rfl
  | t :: r =>
    rw [readFrom, take_inside body hfront, sectionsFrom]
    cases hhere : (if depthAt depth t = 0 then t.clause? else none) with
    | none =>
      have hmore := readFrom_inside (body ++ [t]) hfront (depthAfter depth t) r
      simp only [Option.elim_none, ok_bind, hmore]
      rcases sectionsFrom c (depthAfter depth t) r with fault | ⟨more, later⟩
      · rfl
      · simp [Except.map, ofReading]
    | some d =>
      have hclause : t.clause? = some d ∧ depthAt depth t = 0 := by
        split at hhere
        · exact ⟨hhere, ‹_›⟩
        · cases hhere
      have hdepth := depths_of_clause depth hclause.1
      have hzero : depthAfter depth t = 0 := by
        rw [hdepth.2, ← hdepth.1, hclause.2]
      simp only [Option.elim_some, start_inside body hfront]
      by_cases hrank : d.rank ≤ c.rank
      · simp only [if_pos hrank]
        rfl
      · have hnext := rank_lt_of_concat body hfront hrank
        simp only [if_neg hrank, ok_bind, hzero]
        by_cases hby : d.needsBy = true
        · simp only [if_pos hby, readFrom_waiting]
          cases r with
          | nil => rfl
          | cons b rest =>
            dsimp only
            by_cases hkeyword : b.isKeyword .by_ = true
            · simp only [if_pos hkeyword, readFrom_inside [] hnext 0 rest]
              exact ofReading_opened _
            · simp only [if_neg hkeyword]
              rfl
        · simp only [if_neg hby]
          rw [show { inside (front ++ [⟨c, body⟩]) d [] with waiting := none } =
            inside (front ++ [⟨c, body⟩]) d [] from rfl, readFrom_inside [] hnext 0 r]
          exact ofReading_opened _
  termination_by ts.length

end Clauses

/-- A block opens with its select list, so that every token has a clause to go to. -/
theorem splitClauses_eq (block : List Token) :
    splitClauses block = ofReading (Sql.splitClauses block) := by
  cases block with
  | nil => rfl
  | cons t r =>
    rw [splitClauses, itemIs_eq, ok_bind]
    show (if t.isKeyword .select then Clauses.empty.readFrom 0 (t :: r)
      else .error (.malformed .noSelect)) = _
    by_cases hselect : t.isKeyword .select = true
    · have hkeyword : t.keyword? = some .select := beq_iff_eq.mp hselect
      have hclause : t.clause? = some .select := by
        rw [Token.clause?, hkeyword]
        rfl
      have hopened : Clauses.empty.take (depthAt 0 t) t = .ok (Clauses.inside [] .select []) := by
        rw [(depths_of_keyword 0 hkeyword).1]
        simp only [Clauses.take, Clauses.empty, hclause, if_pos]
        rfl
      rw [if_pos hselect, Clauses.readFrom, hopened, ok_bind, (depths_of_keyword 0 hkeyword).2,
        Clauses.readFrom_inside [] (List.forall_mem_nil _), Sql.splitClauses, if_pos hselect]
      rcases sectionsFrom .select 0 r with fault | ⟨more, later⟩
      · rfl
      · rfl
    · rw [if_neg hselect, Sql.splitClauses, if_neg hselect]
      rfl

end Indexed
end QueryGate
