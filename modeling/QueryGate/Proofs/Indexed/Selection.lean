import QueryGate.Indexed.Guard
import QueryGate.Proofs.Indexed.Source

/-!
# Blocks, checked by place

The blocks that are read by place stand for the queries that the recursions over the tokens read,
and each check of a select list or of a join condition is that of the query.  An item is looked at
only where the list is known to have one, and a name only where it may be missing.
-/

namespace QueryGate
namespace Indexed

open Sql Guard

variable {α β : Type}

/-! ### Checks that read nothing by place -/

theorem ofCheck_bind (checked : Except Rejection α) (next : α → Except Rejection β) :
    ofCheck (checked >>= next) = (ofCheck checked >>= fun x => ofCheck (next x)) := by
  cases checked <;> rfl

theorem ofCheck_mapM (f : α → Except Rejection β) (xs : List α) :
    (xs.mapM fun x => ofCheck (f x)) = ofCheck (xs.mapM f) := by
  induction xs with
  | nil => rfl
  | cons x xs ih =>
    rw [List.mapM_cons, List.mapM_cons, ofCheck_bind, ih]
    congr 1
    funext y
    rw [ofCheck_bind]
    rfl

/-- The runs of checks, one after another. -/
theorem forM_eq {lift : Except Rejection Unit → Run Unit} (hok : lift (.ok ()) = .ok ())
    (hbind : ∀ checked next, lift (checked >>= next) = (lift checked >>= fun x => lift (next x)))
    {R : α → β → Prop} {f : α → Run Unit} {g : β → Except Rejection Unit}
    (hfg : ∀ x y, R x y → f x = lift (g y)) {xs : List α} {ys : List β}
    (h : List.Forall₂ R xs ys) : xs.forM f = lift (ys.forM g) := by
  induction h with
  | nil => exact hok.symm
  | @cons x y xs ys hxy _ ih =>
    show (f x >>= fun _ => xs.forM f) = lift (g y >>= fun _ => ys.forM g)
    rw [hbind, hfg x y hxy, ih]

theorem rejecting_ofReading (read : Except SyntaxFault α) :
    rejecting (ofReading read) =
      ofCheck (match read with
        | .ok x => .ok x
        | .error fault => .error (.malformed fault)) := by
  cases read <;> rfl

/-! ### Blocks -/

/-- A block stands for a query. -/
def StandsFor (b : Block) (q : Query) : Prop := Fills b q.select q.limit q.refs q.joins

theorem splitClauses_select {block : List Token} {sections : List Section}
    (h : Sql.splitClauses block = .ok sections) :
    ∃ select, body? .select sections = some select := by
  obtain ⟨_, _, items, _, _, _, _, rfl⟩ := Sql.splitClauses_eq_ok h
  exact ⟨items, rfl⟩

/-- A block that is not empty is read as the query that it stands for. -/
theorem blockOf_follows {raw : List Token} (hraw : raw ≠ []) :
    Follows StandsFor (blockOf raw) (Query.ofBlock raw) := by
  obtain ⟨t, r, rfl⟩ := List.exists_cons_of_ne_nil hraw
  have hfirst : itemHas (t :: r) 0 (·.isKeyword .select) = .ok (t.isKeyword .select) := rfl
  rw [blockOf, hfirst, ok_bind, Query.ofBlock]
  by_cases hselect : (!t.isKeyword .select) = true
  · rw [if_pos hselect, if_pos hselect]
    exact .rejected _
  · rw [if_neg hselect, if_neg hselect, List.drop_one, List.tail_cons]
    by_cases hsubquery : r.any (·.isKeyword .select) = true
    · rw [if_pos hsubquery, if_pos hsubquery]
      exact .rejected _
    · rw [if_neg hsubquery, if_neg hsubquery, splitClauses_eq, rejecting_ofReading]
      cases hclauses : Sql.splitClauses (t :: r) with
      | error fault => exact .rejected _
      | ok sections =>
        obtain ⟨select, hbody⟩ := splitClauses_select hclauses
        have hselected : body .select sections = select := by rw [body, hbody]; rfl
        simp only [ofCheck, ok_bind, bodyOf, hbody, hselected]
        cases hfrom : body? .from_ sections with
        | none =>
          have hnone : body .from_ sections = [] := by rw [body, hfrom]; rfl
          rw [hnone]
          exact .ok (fills_ofSelect select _)
        | some ts =>
          have hts : body .from_ sections = ts := by rw [body, hfrom]; rfl
          rw [hts]
          cases ts with
          | nil => exact .ok (fills_ofSelect select _)
          | cons t r =>
            dsimp only
            have hread := readFrom_follows select (body? .limit sections) (t :: r)
            generalize sourceOf (t :: r) = found at hread
            generalize readFrom (t :: r) _ = run at hread
            cases hread with
            | ok hfills => exact .ok hfills
            | rejected why => exact .rejected why

/-- The blocks of a text are read as its queries, one after another. -/
theorem blocksOf_follows (text : List Char) :
    Follows (List.Forall₂ StandsFor) (blocksOf text) (queriesOf text) := by
  rw [blocksOf, queriesOf, tokensOf]
  cases tokenize text with
  | error fault => exact .rejected _
  | ok ts =>
    show Follows _ (rejecting (splitUnion ts) >>= _) _
    rw [splitUnion_eq, rejecting_ofReading]
    dsimp only
    cases hraws : Sql.splitUnion ts with
    | error fault => exact .rejected _
    | ok raws =>
      exact Follows.mapM fun raw hraw => blockOf_follows ((ne_nil_of_splitUnion hraws).2 raw hraw)

/-! ### Select lists -/

section Block

variable (a : AllowList) {b : Block} {q : Query}

theorem tables_eq (h : StandsFor b q) : b.tables = q.tables := h.tables_eq

theorem any_tables (h : StandsFor b q) (p : String → Bool) : b.tables.any p = q.tables.any p := by
  rw [tables_eq h]

section FromBehind

variable {xs front : List α} {before last : α} (h : xs.reverse = last :: before :: front)
include h

theorem eq_append_of_reverse : xs = front.reverse ++ [before, last] := by
  rw [← List.reverse_reverse xs, h, List.reverse_cons, List.reverse_cons, List.append_assoc]
  rfl

theorem length_of_reverse : xs.length = front.length + 2 := by
  rw [← List.length_reverse, h]
  rfl

theorem item_last_of_reverse : item xs (-1) = .ok last := by
  rw [eq_append_of_reverse h, List.append_cons]
  exact item_last _ _

theorem item_beforeLast_of_reverse : item xs (-2) = .ok before := by
  have hplace : (-2 : Int) + (xs.length : Nat) = front.length := by
    rw [length_of_reverse h]
    omega
  have hle : ¬(front.length : Int) < 0 := Int.not_lt.mpr (Int.natCast_nonneg _)
  have hitem : xs[front.length]? = some before := by
    rw [eq_append_of_reverse h]
    simp
  simp only [item, if_pos (by decide : (-2 : Int) < 0), hplace, if_neg hle, Int.toNat_natCast,
    hitem]

theorem take_beforeLast_of_reverse : xs.take (xs.length - 2) = front.reverse := by
  rw [length_of_reverse h, Nat.add_sub_cancel, eq_append_of_reverse h]
  exact List.take_left' List.length_reverse

theorem take_last_of_reverse : xs.take (xs.length - 1) = front.reverse ++ [before] := by
  rw [length_of_reverse h, eq_append_of_reverse h, List.append_cons]
  exact List.take_left' (by simp)

end FromBehind

/-- The last two tokens of a select item are read only if there are as many. -/
theorem withoutAlias_eq (xs : List Token) : withoutAlias xs = ofCheck (Guard.withoutAlias xs) := by
  rcases hreverse : xs.reverse with _ | ⟨last, _ | ⟨before, front⟩⟩
  · rw [List.reverse_eq_nil_iff.mp hreverse]
    rfl
  · rw [← List.reverse_reverse xs, hreverse]
    rfl
  · have hlength := length_of_reverse hreverse
    have htwo : decide (2 ≤ xs.length) = true := decide_eq_true (by omega)
    simp only [withoutAlias, itemHas, item_last_of_reverse hreverse,
      item_beforeLast_of_reverse hreverse, ok_bind, guarded_ok, take_last_of_reverse hreverse,
      take_beforeLast_of_reverse hreverse]
    rw [Guard.withoutAlias, hreverse, htwo, Bool.true_and]
    cases front with
    | nil =>
      have hshort : decide (3 ≤ xs.length) = false := decide_eq_false (by rw [hlength]; decide)
      rw [hshort, Bool.false_and, if_neg Bool.false_ne_true]
      dsimp only
      by_cases hname : (last.isPlainIdentifier && endsExpression before) = true
      · rw [if_pos hname, if_pos hname]
        rfl
      · rw [if_neg hname, if_neg hname]
        rfl
    | cons e more =>
      have hlong : decide (3 ≤ xs.length) = true := decide_eq_true (by rw [hlength]; simp)
      rw [hlong, Bool.true_and]
      dsimp only
      by_cases has : before.isKeyword .as_ = true
      · rw [if_pos has, if_pos has]
        by_cases halias : isAlias last = true
        · rw [if_pos halias, if_pos halias]
          rfl
        · rw [if_neg halias, if_neg halias]
          rfl
      · rw [if_neg has, if_neg has]
        by_cases hname : (last.isPlainIdentifier && endsExpression before) = true
        · rw [if_pos hname, if_pos hname, @List.reverse_cons _ before]
          rfl
        · rw [if_neg hname, if_neg hname]
          rfl

/-! ### Expressions -/

theorem columnAllowed_three (x y z : Token) :
    Guard.columnAllowed a q [x, y, z] = (y == .dot && qualifiedColumnAllowed a q x z) := by
  cases y <;> rfl

theorem columnAllowed_other {ref : List Token} (hone : ref.length ≠ 1) (hthree : ref.length ≠ 3) :
    Guard.columnAllowed a q ref = false := by
  rw [Guard.columnAllowed.eq_def]
  split
  · exact absurd rfl hone
  · exact absurd rfl hthree
  · rfl

theorem itemsMeet_qualified (x y z : Token) :
    itemsMeet [x, y, z] 0 [(·.isIdentifier), (· == .dot), (·.isIdentifier)] =
      .ok (x.isIdentifier && (y == .dot && z.isIdentifier)) := by
  refine (itemsMeet_front [x, y, z] ?_).trans ?_
  · exact Nat.le_refl 3
  · simp

theorem columnAllowed_eq (h : StandsFor b q) (ref : List Token) :
    columnAllowed a b ref = .ok (Guard.columnAllowed a q ref) := by
  by_cases hone : ref.length = 1
  · obtain ⟨x, rfl⟩ := List.length_eq_one_iff.mp hone
    show (if x.isIdentifier then .ok (b.tables.any fun t => (a.columns t).contains x.name)
      else .ok false : Run Bool) = .ok (bareColumnAllowed a q x)
    rw [any_tables h, bareColumnAllowed]
    cases x.isIdentifier <;> rfl
  · rw [columnAllowed, decide_eq_false hone, guarded_false, ok_bind, if_neg Bool.false_ne_true]
    by_cases hthree : ref.length = 3
    · obtain ⟨x, y, z, rfl⟩ := List.length_eq_three.mp hthree
      rw [decide_eq_true hthree, guarded_true, itemsMeet_qualified, ok_bind, columnAllowed_three,
        qualifiedColumnAllowed, Query.tableNamed?, ← h.lookup_eq]
      cases x.isIdentifier with
      | false => cases y == .dot <;> rfl
      | true =>
        cases y == .dot with
        | false => rfl
        | true =>
          cases z.isIdentifier with
          | false => rfl
          | true =>
            have hfirst : item [x, y, z] 0 = .ok x := rfl
            have hthird : item [x, y, z] 2 = .ok z := rfl
            simp only [hfirst, hthird, ok_bind]
            cases b.aliases.lookup x.name <;> rfl
    · rw [decide_eq_false hthree, guarded_false, ok_bind, if_neg Bool.false_ne_true,
        columnAllowed_other a hone hthree]

/-- Of a token behind an identifier there has to be another one behind it. -/
theorem guarded_next {ts r : List Token} {t : Token} {place : Nat} (hdrop : ts.drop place = t :: r)
    (p : Token → Bool) :
    guarded (place + 2 < ts.length) (itemHas ts (place + 1 : Nat) p) =
      .ok (decide (2 ≤ r.length) && r.head?.any p) := by
  have hlength := drop_length hdrop (Nat.le_of_lt (lt_of_drop hdrop))
  rw [List.length_cons] at hlength
  have hiff : place + 2 < ts.length ↔ 2 ≤ r.length := by omega
  rw [decide_eq_decide.mpr hiff]
  cases r with
  | nil => simp
  | cons d more =>
    rw [itemHas_of_drop (drop_succ hdrop), guarded_ok, List.head?_cons, Option.any_some]

theorem timeExpressionAllowed_eq (h : StandsFor b q) {ts us : List Token} {place : Nat}
    (hdrop : ts.drop place = us) :
    timeExpressionAllowed a b ts place = .ok (Guard.timeExpressionAllowed a q us) := by
  fun_induction Guard.timeExpressionAllowed a q us generalizing place with
  | case1 =>
    have hle : ¬place < ts.length := Nat.not_lt.mpr (List.drop_eq_nil_iff.mp hdrop)
    rw [timeExpressionAllowed, if_neg hle]
  | case2 t ht more =>
    rw [timeExpressionAllowed, if_pos (lt_of_drop hdrop), item_of_drop hdrop, ok_bind, if_pos ht,
      itemIs_of_drop (drop_succ hdrop)]
    rfl
  | case3 t ht c more ih =>
    have hqualifies : (decide (2 ≤ (Token.dot :: c :: more).length) &&
        (Token.dot :: c :: more).head?.any (· == .dot)) = true := by simp
    rw [timeExpressionAllowed, if_pos (lt_of_drop hdrop), item_of_drop hdrop, ok_bind, if_pos ht,
      itemIs_of_drop (drop_succ hdrop), guarded_next hdrop, slice_of_drop hdrop, hqualifies,
      columnAllowed_eq a h, ok_bind, ok_bind, if_neg (by decide), if_pos rfl, ok_bind]
    show (if Guard.columnAllowed a q [t, .dot, c] then _ else _) = _
    rw [columnAllowed_three, beq_self_eq_true, Bool.true_and]
    have hmore := ih (drop_succ (drop_succ (drop_succ hdrop)))
    cases qualifiedColumnAllowed a q t c with
    | false => rfl
    | true => exact hmore
  | case4 t ht r hcall hdot ih =>
    have hcalls : r.head?.any (· == .lparen) = false := by
      rcases r with _ | ⟨d, more⟩
      · rfl
      · exact beq_eq_false_iff_ne.mpr fun hd => hcall more (by rw [hd])
    have hqualifies : (decide (2 ≤ r.length) && r.head?.any (· == .dot)) = false := by
      rcases r with _ | ⟨d, _ | ⟨c, more⟩⟩
      · rfl
      · rfl
      · rw [Bool.and_eq_false_iff]
        exact .inr (beq_eq_false_iff_ne.mpr fun hd => hdot c more (by rw [hd]))
    rw [timeExpressionAllowed, if_pos (lt_of_drop hdrop), item_of_drop hdrop, ok_bind, if_pos ht,
      itemIs_eq, drop_succ hdrop, hcalls, guarded_next hdrop, hqualifies, ok_bind,
      if_neg Bool.false_ne_true, ok_bind, if_neg Bool.false_ne_true, columnAllowed_eq a h, ok_bind]
    have hmore := ih (drop_succ hdrop)
    show (if bareColumnAllowed a q t then _ else _) = _
    cases bareColumnAllowed a q t with
    | false => rfl
    | true => exact hmore
  | case5 t r ht hmark =>
    rw [timeExpressionAllowed, if_pos (lt_of_drop hdrop), item_of_drop hdrop, ok_bind, if_neg ht,
      if_pos hmark]
  | case6 t r ht hmark ih =>
    rw [timeExpressionAllowed, if_pos (lt_of_drop hdrop), item_of_drop hdrop, ok_bind, if_neg ht,
      if_neg hmark]
    exact ih (drop_succ hdrop)

theorem closingFrom_add (depth : Int) (place n : Nat) (ts : List Token) :
    closingFrom depth (place + n) ts = (closingFrom depth place ts).map (· + n) := by
  induction ts generalizing depth place with
  | nil => rfl
  | cons t r ih =>
    have hnext (d : Int) : closingFrom d (place + n + 1) r =
        (closingFrom d (place + 1) r).map (· + n) := by
      rw [Nat.add_right_comm]
      exact ih d (place + 1)
    cases t with
    | rparen =>
      rw [closingFrom, closingFrom]
      by_cases hdepth : depth = 1
      · rw [if_pos hdepth, if_pos hdepth]
        rfl
      · rw [if_neg hdepth, if_neg hdepth]
        exact hnext (depth - 1)
    | lparen => exact hnext (depth + 1)
    | _ => exact hnext depth

/-- The parenthesis of a call closes at its end, counted from the call or from its arguments. -/
theorem matchingParen_call (f : List Char) {r : List Token} (hr : r ≠ []) :
    (Sql.matchingParen (.word f :: .lparen :: r) 1 ==
        some ((Token.word f :: Token.lparen :: r).length - 1)) =
      decide (closingFrom 1 0 r = some (r.length - 1)) := by
  have hplace : Sql.matchingParen (.word f :: .lparen :: r) 1 =
      (closingFrom 1 0 r).map (· + 2) := closingFrom_add 1 0 2 r
  have hlength : (Token.word f :: Token.lparen :: r).length - 1 = r.length - 1 + 2 := by
    have := List.length_pos_of_ne_nil hr
    simp only [List.length_cons]
    omega
  rw [hplace, hlength]
  cases closingFrom 1 0 r with
  | none => rfl
  | some found =>
    rw [Bool.eq_iff_iff]
    simp

theorem call?_of_isWord {x : Token} (hword : isWord x = true) (r : List Token) :
    call? (x :: .lparen :: r) =
      if closingFrom 1 0 r = some (r.length - 1) then some (x, r.dropLast) else none := by
  cases x with
  | word f => rfl
  | _ => cases hword

theorem call?_other {x y : Token} {r : List Token} (h : (isWord x && y == .lparen) = false) :
    call? (x :: y :: r) = none := by
  rw [call?.eq_def]
  split
  · rename_i name more heq
    cases heq
    cases h
  · rfl

theorem itemsMeet_opening (x y : Token) (r : List Token) :
    itemsMeet (x :: y :: r) 0 [isWord, (· == .lparen)] = .ok (isWord x && y == .lparen) := by
  refine (itemsMeet_front (x :: y :: r) ?_).trans ?_
  · exact Nat.le_add_left 2 r.length
  · simp

theorem isCall_eq (e : List Token) : isCall e = .ok (call? e).isSome := by
  rcases e with _ | ⟨x, _ | ⟨y, r⟩⟩
  · rfl
  · cases x <;> rfl
  · rw [isCall, itemsMeet_opening, matchingParen_eq, ok_bind, ok_bind, guarded_ok, guarded_ok]
    cases hopens : isWord x && y == .lparen with
    | false =>
      rw [call?_other hopens, Bool.false_and, Bool.and_false]
      rfl
    | true =>
      obtain ⟨hword, hparen⟩ := Bool.and_eq_true_iff.mp hopens
      rw [beq_iff_eq.mp hparen, call?_of_isWord hword, Bool.true_and]
      cases r with
      | nil => rfl
      | cons z more =>
        cases x with
        | word f =>
          have hlong : decide (3 ≤ (Token.word f :: Token.lparen :: z :: more).length) = true :=
            decide_eq_true (Nat.le_add_left 3 more.length)
          rw [matchingParen_call f (List.cons_ne_nil z more), hlong, Bool.true_and]
          split
          · rename_i hclosing
            rw [decide_eq_true hclosing]
            rfl
          · rename_i hclosing
            rw [decide_eq_false hclosing]
            rfl
        | _ => cases hword

theorem arguments_of_call? {e arguments : List Token} {f : Token}
    (h : call? e = some (f, arguments)) :
    item e 0 = .ok f ∧ slice e 2 (e.length - 1) = arguments := by
  rw [call?.eq_def] at h
  split at h
  · rename_i name r
    split at h
    · cases h
      refine ⟨rfl, ?_⟩
      show (r.take (r.length + 1 + 1 - 1 - 2)) = r.dropLast
      rw [List.dropLast_eq_take]
      rfl
    · cases h
  · cases h

theorem guarded_and (c d : Bool) (test : Run Bool) :
    guarded (c && d) test = guarded c (guarded d test) := by
  cases c <;> rfl

/-- A token is compared with the only one of a list. -/
theorem guarded_only (ts : List Token) (t : Token) :
    guarded (ts.length = 1) (itemHas ts 0 (· == t)) = .ok (ts == [t]) := by
  rcases ts with _ | ⟨x, _ | ⟨y, r⟩⟩
  · rfl
  · show (Except.ok (x == t) : Run Bool) = .ok ([x] == [t])
    rw [List.cons_beq_cons, beq_self_eq_true, Bool.and_true]
  · show (Except.ok false : Run Bool) = .ok (x :: y :: r == [t])
    simp

theorem argumentsAllowed_eq (h : StandsFor b q) (f : Token) (arguments : List Token) :
    argumentsAllowed a b f arguments =
      .ok (if f.upperName == "COUNT" && arguments == [.star] then true
        else if a.timeFunctions.contains f.upperName then
          !arguments.isEmpty && Guard.timeExpressionAllowed a q arguments
        else Guard.columnAllowed a q (withoutDistinct arguments)) := by
  have hcounts : guarded (f.upperName == "COUNT" && decide (arguments.length = 1))
      (itemHas arguments 0 (· == .star)) = .ok (f.upperName == "COUNT" && arguments == [.star]) := by
    rw [guarded_and, guarded_only, guarded_ok]
  have hdistinct : guarded (!arguments.isEmpty) (itemHas arguments 0 (·.isKeyword .distinct)) =
      .ok (arguments.head?.any (·.isKeyword .distinct)) := by
    cases arguments <;> rfl
  have hrest : (if arguments.head?.any (·.isKeyword .distinct) then arguments.drop 1
      else arguments) = withoutDistinct arguments := by
    cases arguments <;> rfl
  rw [argumentsAllowed, hcounts, ok_bind, hdistinct, ok_bind, hrest,
    timeExpressionAllowed_eq a h List.drop_zero, guarded_ok, columnAllowed_eq a h]
  split
  · rfl
  · split <;> rfl

/-- The verdict on a select item is that on its expression. -/
theorem itemAllowed_eq (h : StandsFor b q) (xs : List Token) :
    itemAllowed a b xs = ofCheck (do
      let e ← Guard.withoutAlias xs
      .ok (expressionAllowed a q e)) := by
  rw [itemAllowed, withoutAlias_eq, ofCheck_bind]
  congr 1
  funext e
  rw [isCall_eq, ok_bind]
  show _ = (.ok (expressionAllowed a q e) : Run Bool)
  rw [expressionAllowed]
  cases hcall : call? e with
  | none =>
    rw [columnAllowed_eq a h]
    cases e with
    | nil => rfl
    | cons t r => rfl
  | some found =>
    obtain ⟨f, arguments⟩ := found
    obtain ⟨hf, harguments⟩ := arguments_of_call? hcall
    rw [hf, ok_bind, harguments, argumentsAllowed_eq a h]
    cases e with
    | nil => cases hcall
    | cons t r => rfl

theorem selectList_eq (select : List Token) :
    selectList select = .ok (Guard.selectList select) := by
  cases select with
  | nil => rfl
  | cons t r =>
    show (.ok (if t.isOneOf [.distinct, .all] then r else t :: r) : Run (List Token)) = _
    rfl

theorem ofCheck_refused (checked : Except Rejection (List (List Token × Bool))) :
    (ofCheck checked >>= fun checked =>
      match (checked.filter fun c => !c.2).map (·.1) with
      | [] => (.ok () : Run Unit)
      | refused => reject (.unknownColumns refused)) =
    ofCheck (match (checked >>= fun checked => pure ((checked.filter fun c => !c.2).map (·.1)) :
        Except Rejection (List (List Token))) with
      | .error e => .error e
      | .ok [] => .ok ()
      | .ok refused => .error (.unknownColumns refused)) := by
  cases checked with
  | error e => rfl
  | ok checked =>
    show (match (checked.filter fun c => !c.2).map (·.1) with | [] => _ | refused => _) =
      ofCheck (match Except.ok ((checked.filter fun c => !c.2).map (·.1)) with
        | .error e => .error e
        | .ok [] => .ok ()
        | .ok refused => .error (.unknownColumns refused))
    cases (checked.filter fun c => !c.2).map (·.1) <;> rfl

theorem checkProjection_eq (h : StandsFor b q) :
    checkProjection a b = ofCheck (Guard.checkProjection a q) := by
  have hitems (items : List (List Token)) :
      (items.mapM fun xs => do
        let allowed ← itemAllowed a b xs
        .ok (xs, allowed)) =
      ofCheck (items.mapM fun xs => do
        let e ← Guard.withoutAlias xs
        .ok (xs, expressionAllowed a q e)) := by
    rw [← ofCheck_mapM]
    congr 1
    funext xs
    rw [itemAllowed_eq a h]
    cases Guard.withoutAlias xs <;> rfl
  rw [checkProjection, selectList_eq, ok_bind, guarded_only, ok_bind, splitTopLevel_eq, ok_bind,
    hitems, Guard.checkProjection, refusedItems, h.select_eq]
  by_cases hstar : Guard.selectList q.select = [.star]
  · rw [if_pos hstar, if_pos (beq_iff_eq.mpr hstar)]
    rfl
  · rw [if_neg hstar, if_neg fun heq => hstar (beq_iff_eq.mp heq)]
    exact ofCheck_refused _

/-! ### Joins -/

/-- Whether tokens are an equality of two qualified columns. -/
def isEquality : List Token → Bool
  | [leftName, leftDot, leftColumn, equals, rightName, rightDot, rightColumn] =>
    leftName.isIdentifier && leftDot == .dot && leftColumn.isIdentifier && equals == .operator .eq &&
      rightName.isIdentifier && rightDot == .dot && rightColumn.isIdentifier
  | _ => false

theorem guarded_shape (on_ : List Token) :
    guarded (on_.length = 7) (itemsMeet on_ 0 conditionShape) = .ok (isEquality on_) := by
  rcases on_ with _ | ⟨x1, _ | ⟨x2, _ | ⟨x3, _ | ⟨x4, _ | ⟨x5, _ | ⟨x6, _ | ⟨x7, _ | ⟨x8, r⟩⟩⟩⟩⟩⟩⟩⟩
  all_goals try rfl
  · refine (itemsMeet_front _ ?_).trans ?_
    · exact Nat.le_refl 7
    · simp [conditionShape, isEquality, Bool.and_assoc]

theorem eq_of_isEquality {on_ : List Token} (h : isEquality on_ = true) :
    ∃ leftName leftColumn rightName rightColumn : Token,
      on_ = [leftName, .dot, leftColumn, .operator .eq, rightName, .dot, rightColumn] ∧
      [leftName, leftColumn, rightName, rightColumn].all Token.isIdentifier = true := by
  rw [isEquality.eq_def] at h
  split at h
  · simp only [Bool.and_eq_true, beq_iff_eq] at h
    obtain ⟨⟨⟨⟨⟨⟨hleft, rfl⟩, hcolumn⟩, rfl⟩, hright⟩, rfl⟩, hother⟩ := h
    exact ⟨_, _, _, _, rfl, by simp [hleft, hcolumn, hright, hother]⟩
  · cases h

theorem checkJoin_other {join : Join} (h : isEquality join.on_ = false) :
    Guard.checkJoin a q join = .error (.joinCondition join.on_) := by
  rw [Guard.checkJoin.eq_def]
  split
  · rename_i leftName leftColumn rightName rightColumn hon
    have hall : ¬[leftName, leftColumn, rightName, rightColumn].all Token.isIdentifier = true := by
      intro hall
      rw [hon] at h
      simp_all [isEquality]
    rw [if_neg hall, hon]
  · rfl

theorem checkJoin_eq (h : StandsFor b q) (join : Join) :
    checkJoin a b join.on_ = ofCheck (Guard.checkJoin a q join) := by
  rw [checkJoin, guarded_shape, ok_bind]
  cases hshape : isEquality join.on_ with
  | false =>
    rw [checkJoin_other a hshape]
    rfl
  | true =>
    obtain ⟨leftName, leftColumn, rightName, rightColumn, hon, hall⟩ := eq_of_isEquality hshape
    rw [hon, Guard.checkJoin.eq_def, hon]
    simp only [if_pos hall, Query.tableNamed?, ← h.lookup_eq]
    have hitem {place : Int} (t : Token) (hplace : item [leftName, .dot, leftColumn, .operator .eq,
        rightName, .dot, rightColumn] place = .ok t) (next : Token → Run Unit) :
        (item [leftName, .dot, leftColumn, .operator .eq, rightName, .dot, rightColumn] place >>=
          next) = next t := by
      rw [hplace, ok_bind]
    show (item _ 0 >>= _) = _
    rw [hitem leftName rfl, hitem leftColumn rfl, hitem rightName rfl, hitem rightColumn rfl]
    cases b.aliases.lookup leftName.name with
    | none => rfl
    | some leftTable =>
      cases b.aliases.lookup rightName.name with
      | none => rfl
      | some rightTable =>
        dsimp only
        split <;> rfl

theorem checkJoins_eq (h : StandsFor b q) : checkJoins a b = ofCheck (Guard.checkJoins a q) := by
  rw [checkJoins, h.joins_eq, Guard.checkJoins]
  refine forM_eq (R := fun entry join => entry = (join.ref.table, join.on_)) rfl ofCheck_bind ?_ ?_
  · rintro _ join rfl
    exact checkJoin_eq a h join
  · exact List.forall₂_map_left_iff.mpr (List.forall₂_same.mpr fun _ _ => rfl)

end Block

end Indexed
end QueryGate
