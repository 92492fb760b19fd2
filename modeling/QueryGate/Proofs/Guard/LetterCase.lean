import QueryGate.Proofs.Guard.SameBlocks
import QueryGate.Proofs.Sql.LetterCase

/-!
# The guard and letter case

The guard reads the same tables, joins and limits in a statement in small letters, and gives it the
same answer.  What differs are the tokens of the statement that a block keeps or a rejection
quotes, which are in small letters as well.
-/

namespace QueryGate

namespace Sql

theorem keeps_lowered : Keeps Token.lowered where
  keyword := Token.keyword?_lowered
  opens _ := Token.lowered_eq_iff rfl
  closes _ := Token.lowered_eq_iff rfl

theorem isKeyword_lowered (t : Token) (k : Keyword) : t.lowered.isKeyword k = t.isKeyword k :=
  isKeyword_map keeps_lowered t k

theorem isOneOf_lowered (t : Token) (ks : List Keyword) : t.lowered.isOneOf ks = t.isOneOf ks :=
  isOneOf_map keeps_lowered t ks

theorem map_lowered_eq_mark {ts : List Token} {u : Token} (hu : u.isMark = true) :
    ts.map Token.lowered = [u] ↔ ts = [u] := by
  rcases ts with _ | ⟨t, _ | ⟨v, r⟩⟩
  · simp
  · simp [Token.lowered_eq_iff hu]
  · simp

theorem eq_cons_of_map_lowered {ts more : List Token} {u : Token} (hu : u.isMark = true)
    (h : ts.map Token.lowered = u :: more) :
    ∃ rest, ts = u :: rest ∧ rest.map Token.lowered = more := by
  obtain ⟨t, rest, rfl, ht, hrest⟩ := List.map_eq_cons_iff.mp h
  exact ⟨rest, by rw [(Token.lowered_eq_iff hu).mp ht], hrest⟩

theorem mark_mem_map_lowered {ts : List Token} {u : Token} (hu : u.isMark = true) :
    u ∈ ts.map Token.lowered ↔ u ∈ ts := by
  rw [List.mem_map]
  constructor
  · rintro ⟨t, ht, heq⟩
    rwa [← (Token.lowered_eq_iff hu).mp heq]
  · intro h
    exact ⟨u, h, (Token.lowered_eq_iff hu).mpr rfl⟩

section Keeps

variable {f : Token → Token} (hf : Keeps f)
include hf

omit hf in
theorem consFirst_map (t : Token) (parts : List (List Token)) :
    consFirst (f t) (parts.map (·.map f)) = (consFirst t parts).map (·.map f) := by
  cases parts <;> rfl

theorem splitTopLevelFrom_map (separates : Token → Bool)
    (hsep : ∀ t, separates (f t) = separates t) (depth : Int) (ts : List Token) :
    splitTopLevelFrom separates depth (ts.map f) =
      (splitTopLevelFrom separates depth ts).map (·.map f) := by
  induction ts generalizing depth with
  | nil => rfl
  | cons t r ih =>
    simp only [List.map_cons, splitTopLevelFrom, depthAt_map hf, depthAfter_map hf, hsep, ih]
    split
    · rfl
    · exact consFirst_map t _

end Keeps

theorem closingFrom_lowered (depth : Int) (place : Nat) (ts : List Token) :
    closingFrom depth place (ts.map Token.lowered) = closingFrom depth place ts := by
  induction ts generalizing depth place with
  | nil => rfl
  | cons t r ih => cases t <;> simp only [List.map_cons, Token.lowered, closingFrom, ih]

end Sql

namespace Guard

open Sql

/-! ### Results in small letters -/

/-- A join with its condition in small letters. -/
def Join.lowered (join : Join) : Join := ⟨join.ref, join.on_.map Token.lowered⟩

/-- The tables of a block with their conditions in small letters. -/
def Source.lowered (s : Source) : Source := ⟨s.first, s.joins.map Join.lowered⟩

/-- A query block in small letters. -/
def Query.lowered (q : Query) : Query :=
  ⟨q.select.map Token.lowered, q.source.map Source.lowered, q.limit.map (·.map Token.lowered)⟩

/-- A rejection that quotes tokens in small letters. -/
def Rejection.lowered : Rejection → Rejection
  | .notATable near => .notATable near.lowered
  | .qualifiedTable written => .qualifiedTable (written.map Token.lowered)
  | .unsupportedFrom near => .unsupportedFrom near.lowered
  | .badAlias near => .badAlias near.lowered
  | .unknownColumns items => .unknownColumns (items.map (·.map Token.lowered))
  | .joinCondition on_ => .joinCondition (on_.map Token.lowered)
  | .joinQualifier leftName leftColumn rightName rightColumn =>
    .joinQualifier leftName.lowered leftColumn.lowered rightName.lowered rightColumn.lowered
  | why => why

/-- The outcome of a run in small letters, where `f` puts its result in small letters. -/
def loweredRun {α β : Type} (f : α → β) : Except Rejection α → Except Rejection β
  | .error why => .error why.lowered
  | .ok x => .ok (f x)

section Runs

variable {α β γ δ : Type}

theorem loweredRun_bind {x : Except Rejection α} {run : α → Except Rejection β} {f : α → γ}
    {g : β → δ} {run' : γ → Except Rejection δ} (h : ∀ y, run' (f y) = loweredRun g (run y)) :
    loweredRun f x >>= run' = loweredRun g (x >>= run) := by
  cases x with
  | error why => rfl
  | ok y => exact h y

theorem loweredRun_mapM {run : α → Except Rejection β} {f : α → γ} {g : β → δ}
    {run' : γ → Except Rejection δ} (h : ∀ x, run' (f x) = loweredRun g (run x)) (xs : List α) :
    (xs.map f).mapM run' = loweredRun (·.map g) (xs.mapM run) := by
  induction xs with
  | nil => rfl
  | cons x xs ih =>
    rw [List.map_cons, List.mapM_cons, List.mapM_cons, h, ih]
    apply loweredRun_bind
    intro y
    apply loweredRun_bind
    intro ys
    rfl

theorem loweredRun_forM {run : α → Except Rejection Unit} {f : α → γ}
    {run' : γ → Except Rejection Unit} (h : ∀ x, run' (f x) = loweredRun id (run x))
    (xs : List α) : (xs.map f).forM run' = loweredRun id (xs.forM run) := by
  induction xs with
  | nil => rfl
  | cons x xs ih =>
    show (run' (f x) >>= fun _ => (xs.map f).forM run') =
      loweredRun id (run x >>= fun _ => xs.forM run)
    rw [h]
    apply loweredRun_bind
    intro _
    exact ih

end Runs

/-! ### The tables of a block -/

/-- What a reader of tables has found and what is left, in small letters. -/
def loweredRest (found : TableRef × List Token) : TableRef × List Token :=
  (found.1, found.2.map Token.lowered)

theorem withRef_lowered (seen : List TableRef) (ref : TableRef) (rest : List Token) :
    withRef seen ref (rest.map Token.lowered) = loweredRun loweredRest (withRef seen ref rest) := by
  unfold withRef
  split
  · rfl
  cases ref.aliasName with
  | none => rfl
  | some name =>
    dsimp only
    split <;> rfl

theorem aliasFrom_lowered (seen : List TableRef) (table : String) (ts : List Token) :
    aliasFrom seen table (ts.map Token.lowered) =
      loweredRun loweredRest (aliasFrom seen table ts) := by
  cases ts with
  | nil => exact withRef_lowered seen ⟨table, none⟩ []
  | cons t r =>
    simp only [List.map_cons, aliasFrom, isKeyword_lowered, Token.isPlainIdentifier_lowered,
      Token.name_lowered]
    split
    · cases r with
      | nil => rfl
      | cons n rest =>
        simp only [List.map_cons, Token.isIdentifier_lowered, Token.name_lowered]
        split
        · exact withRef_lowered seen _ rest
        · rfl
    split
    · exact withRef_lowered seen _ r
    · exact withRef_lowered seen _ (t :: r)

theorem tableRefFrom_lowered (seen : List TableRef) (ts : List Token) :
    tableRefFrom seen (ts.map Token.lowered) = loweredRun loweredRest (tableRefFrom seen ts) := by
  cases ts with
  | nil => rfl
  | cons t r =>
    simp only [List.map_cons, tableRefFrom, Token.lowered_eq_iff (u := .lparen) rfl,
      Token.isPlainIdentifier_lowered, Token.name_lowered]
    split
    · rfl
    split
    · have hread := aliasFrom_lowered seen t.name r
      rcases r with _ | ⟨d, more⟩
      · exact hread
      · cases d with
        | dot => simp [Token.lowered, loweredRun, Rejection.lowered, List.map_take]
        | _ => exact hread
    · rfl

/-- The word `JOIN` that the tokens have to start with is found in any letter case. -/
theorem joinWord_lowered (t : Token) (rest : List Token) :
    (match rest.map Token.lowered with
      | [] => .error (.unsupportedFrom t.lowered)
      | j :: more => if j.isKeyword .join then .ok more else .error (.unsupportedFrom j)) =
    loweredRun (·.map Token.lowered)
      (match rest with
      | [] => .error (.unsupportedFrom t)
      | j :: more => if j.isKeyword .join then .ok more else .error (.unsupportedFrom j)) := by
  cases rest with
  | nil => rfl
  | cons j more =>
    simp only [List.map_cons, isKeyword_lowered]
    split <;> rfl

theorem joinWords_lowered (t : Token) (r : List Token) :
    joinWords t.lowered (r.map Token.lowered) =
      loweredRun (·.map Token.lowered) (joinWords t r) := by
  simp only [joinWords, Token.lowered_eq_iff (u := .comma) rfl, isKeyword_lowered,
    isOneOf_lowered]
  by_cases hcomma : t = .comma
  · simp only [if_pos hcomma]
    rfl
  by_cases hinner : t.isKeyword .inner = true
  · simp only [if_neg hcomma, if_pos hinner]
    exact joinWord_lowered t r
  by_cases hside : t.isOneOf [.left, .right] = true
  · simp only [if_neg hcomma, if_neg hinner, if_pos hside]
    cases r with
    | nil => rfl
    | cons o more =>
      simp only [List.map_cons, isKeyword_lowered]
      by_cases houter : o.isKeyword .outer = true
      · simp only [if_pos houter]
        exact joinWord_lowered t more
      · simp only [if_neg houter]
        exact joinWord_lowered t (o :: more)
  · simp only [if_neg hcomma, if_neg hinner, if_neg hside]
    exact joinWord_lowered t (t :: r)

theorem startsJoin_lowered (t : Token) : startsJoin t.lowered = startsJoin t :=
  isOneOf_lowered t _

theorem joinsFrom_lowered (seen : List TableRef) (ts : List Token) :
    joinsFrom seen (ts.map Token.lowered) =
      loweredRun (·.map Join.lowered) (joinsFrom seen ts) := by
  have hstarts : (fun u => !startsJoin u) ∘ Token.lowered = fun u => !startsJoin u := by
    funext u
    exact congrArg Bool.not (startsJoin_lowered u)
  have hcomma (ts : List Token) :
      (ts.map Token.lowered).contains .comma = ts.contains .comma := by
    rw [Bool.eq_iff_iff, List.contains_iff_mem, List.contains_iff_mem, mark_mem_map_lowered rfl]
  induction hn : ts.length using Nat.strongRecOn generalizing seen ts with
  | ind n ih =>
    cases ts with
    | nil => rw [List.map_nil, joinsFrom]; rfl
    | cons t r =>
      rw [List.map_cons, joinsFrom_cons, joinsFrom_cons, joinWords_lowered]
      cases hwords : joinWords t r with
      | error why => rfl
      | ok named =>
        simp only [loweredRun, tableRefFrom_lowered]
        rcases hread : tableRefFrom seen named with why | ⟨ref, _ | ⟨o, rest⟩⟩
        · rfl
        · rfl
        · have hshorter : (rest.dropWhile fun u => !startsJoin u).length < n := by
            have hnamed := joinWords_length_le hwords
            have hrest := tableRefFrom_length_lt hread
            have hdrop := (List.dropWhile_sublist (l := rest) fun u => !startsJoin u).length_le
            simp only [List.length_cons] at hn hrest
            omega
          have hmore := ih _ hshorter (seen ++ [ref]) _ rfl
          simp only [loweredRest, List.map_cons, isKeyword_lowered, List.takeWhile_map,
            List.dropWhile_map, hstarts, hcomma, hmore]
          split
          · split
            · rfl
            · cases joinsFrom (seen ++ [ref]) (rest.dropWhile fun u => !startsJoin u) <;> rfl
          · rfl

theorem sourceOf_lowered (ts : List Token) :
    sourceOf (ts.map Token.lowered) = loweredRun Source.lowered (sourceOf ts) := by
  unfold sourceOf
  rw [tableRefFrom_lowered]
  cases tableRefFrom [] ts with
  | error why => rfl
  | ok found =>
    simp only [loweredRun, loweredRest]
    rw [joinsFrom_lowered]
    cases joinsFrom [found.1] found.2 <;> rfl

/-! ### Blocks -/

theorem ofBlock_lowered (block : List Token) :
    Query.ofBlock (block.map Token.lowered) = loweredRun Query.lowered (Query.ofBlock block) := by
  cases block with
  | nil => rfl
  | cons t r =>
    have hclauses := splitClauses_map keeps_lowered (t :: r)
    have hselect : (fun u : Token => u.isKeyword .select) ∘ Token.lowered =
        fun u => u.isKeyword .select := funext fun u => isKeyword_lowered u .select
    rw [List.map_cons] at hclauses
    simp only [List.map_cons, Query.ofBlock, isKeyword_lowered, List.any_map, hselect, hclauses]
    split
    · rfl
    split
    · rfl
    cases splitClauses (t :: r) with
    | error fault => rfl
    | ok sections =>
      have hsource := sourceOf_lowered (body .from_ sections)
      simp only [Except.map, body_map, body?_map]
      cases hfrom : body .from_ sections with
      | nil => rfl
      | cons u us =>
        rw [hfrom, List.map_cons] at hsource
        simp only [List.map_cons, hsource]
        cases sourceOf (u :: us) <;> rfl

/-- The guard reads a text in small letters as it reads the text. -/
theorem queriesOf_map_toLower (text : List Char) :
    queriesOf (text.map Char.toLower) = loweredRun (·.map Query.lowered) (queriesOf text) := by
  unfold queriesOf
  rw [tokenize_map_toLower]
  cases tokenize text with
  | error fault => rfl
  | ok ts =>
    simp only [Except.map, splitUnion_map keeps_lowered]
    cases splitUnion ts with
    | error fault => rfl
    | ok blocks => exact loweredRun_mapM ofBlock_lowered blocks

section Query

variable (a : AllowList) (q : Query)

theorem refs_lowered : q.lowered.refs = q.refs := by
  obtain ⟨select, source, limit⟩ := q
  cases source with
  | none => rfl
  | some s =>
    simp [Query.refs, Query.lowered, Source.lowered, Source.refs, Join.lowered, Function.comp_def]

theorem tables_lowered : q.lowered.tables = q.tables := by
  rw [Query.tables, Query.tables, refs_lowered]

theorem tableNamed?_lowered (name : String) : q.lowered.tableNamed? name = q.tableNamed? name := by
  rw [Query.tableNamed?, Query.tableNamed?, refs_lowered]

theorem joins_lowered : q.lowered.joins = q.joins.map Join.lowered := by
  obtain ⟨select, source, limit⟩ := q
  cases source <;> rfl

/-! ### Select items -/

theorem bareColumnAllowed_lowered (c : Token) :
    bareColumnAllowed a q.lowered c.lowered = bareColumnAllowed a q c := by
  rw [bareColumnAllowed, bareColumnAllowed, Token.isIdentifier_lowered, Token.name_lowered,
    tables_lowered]

theorem qualifiedColumnAllowed_lowered (name c : Token) :
    qualifiedColumnAllowed a q.lowered name.lowered c.lowered =
      qualifiedColumnAllowed a q name c := by
  rw [qualifiedColumnAllowed, qualifiedColumnAllowed, Token.isIdentifier_lowered,
    Token.isIdentifier_lowered, Token.name_lowered, Token.name_lowered, tableNamed?_lowered]

theorem columnAllowed_lowered (e : List Token) :
    columnAllowed a q.lowered (e.map Token.lowered) = columnAllowed a q e := by
  rcases e with _ | ⟨c, _ | ⟨d, _ | ⟨e, _ | ⟨u, more⟩⟩⟩⟩
  · rfl
  · exact bareColumnAllowed_lowered a q c
  · cases d <;> rfl
  · cases d with
    | dot => exact qualifiedColumnAllowed_lowered a q c e
    | _ => rfl
  · cases d <;> rfl

theorem timeExpressionAllowed_lowered (ts : List Token) :
    timeExpressionAllowed a q.lowered (ts.map Token.lowered) = timeExpressionAllowed a q ts := by
  have hid {t : Token} {b : Bool} (h : t.isIdentifier = b) : t.lowered.isIdentifier = b := by
    rw [Token.isIdentifier_lowered, h]
  fun_induction timeExpressionAllowed a q ts with
  | case1 => rfl
  | case2 t ht more => exact timeExpressionAllowed_call (hid ht) _
  | case3 t ht c more ih =>
    rw [← ih, ← qualifiedColumnAllowed_lowered]
    exact timeExpressionAllowed_qualified (hid ht) _ _
  | case4 t ht r hcall hdot ih =>
    rw [← ih, ← bareColumnAllowed_lowered]
    apply timeExpressionAllowed_bare (hid ht)
    · intro more hmore
      obtain ⟨rest, rfl, _⟩ := eq_cons_of_map_lowered rfl hmore
      exact hcall rest rfl
    · intro c more hmore
      obtain ⟨rest, rfl, hrest⟩ := eq_cons_of_map_lowered rfl hmore
      obtain ⟨c, rest, rfl, _⟩ := List.map_eq_cons_iff.mp hrest
      exact hdot c rest rfl
  | case5 t r ht hmark =>
    rw [← Token.isIdentifier_lowered] at ht
    simp only [List.map_cons, timeExpressionAllowed_other ht,
      Token.lowered_eq_iff (u := .lparen) rfl, Token.lowered_eq_iff (u := .rparen) rfl,
      Token.lowered_eq_iff (u := .dot) rfl, if_pos hmark]
  | case6 t r ht hmark ih =>
    rw [← Token.isIdentifier_lowered] at ht
    simp only [List.map_cons, timeExpressionAllowed_other ht,
      Token.lowered_eq_iff (u := .lparen) rfl, Token.lowered_eq_iff (u := .rparen) rfl,
      Token.lowered_eq_iff (u := .dot) rfl, if_neg hmark, ih]

theorem endsExpression_lowered (t : Token) : endsExpression t.lowered = endsExpression t := by
  cases t <;> rfl

theorem isAlias_lowered (t : Token) : isAlias t.lowered = isAlias t := by
  cases t <;> rfl

theorem withoutAlias_lowered (item : List Token) :
    withoutAlias (item.map Token.lowered) =
      loweredRun (·.map Token.lowered) (withoutAlias item) := by
  rw [withoutAlias, withoutAlias, ← List.map_reverse]
  rcases item.reverse with _ | ⟨last, _ | ⟨before, _ | ⟨e, more⟩⟩⟩
  · rfl
  · rfl
  · simp only [List.map_cons, List.map_nil, Token.isPlainIdentifier_lowered,
      endsExpression_lowered]
    split <;> rfl
  · simp only [List.map_cons, isKeyword_lowered, isAlias_lowered, Token.isPlainIdentifier_lowered,
      endsExpression_lowered]
    split
    · split
      · simp [loweredRun, List.map_reverse]
      · rfl
    split
    · simp [loweredRun, List.map_reverse]
    · rfl

theorem call?_lowered (e : List Token) :
    call? (e.map Token.lowered) =
      (call? e).map fun c => (c.1.lowered, c.2.map Token.lowered) := by
  rcases e with _ | ⟨f, _ | ⟨p, r⟩⟩
  · rfl
  · cases f <;> rfl
  cases f with
  | word letters =>
    cases p with
    | lparen =>
      simp only [List.map_cons, Token.lowered, call?, closingFrom_lowered, List.length_map]
      split
      · simp [List.map_dropLast]
      · rfl
    | _ => rfl
  | _ => rfl

theorem withoutDistinct_lowered (arguments : List Token) :
    withoutDistinct (arguments.map Token.lowered) =
      (withoutDistinct arguments).map Token.lowered := by
  cases arguments with
  | nil => rfl
  | cons t r =>
    simp only [List.map_cons, withoutDistinct, isKeyword_lowered]
    split <;> rfl

theorem expressionAllowed_lowered (e : List Token) :
    expressionAllowed a q.lowered (e.map Token.lowered) = expressionAllowed a q e := by
  rw [expressionAllowed, expressionAllowed, call?_lowered]
  cases call? e with
  | none => exact columnAllowed_lowered a q e
  | some c =>
    obtain ⟨f, arguments⟩ := c
    have hstar : (arguments.map Token.lowered == [.star]) = (arguments == [.star]) := by
      rw [Bool.eq_iff_iff, beq_iff_eq, beq_iff_eq, map_lowered_eq_mark rfl]
    simp only [Option.map_some, Token.upperName_lowered, hstar, List.isEmpty_map,
      timeExpressionAllowed_lowered, withoutDistinct_lowered, columnAllowed_lowered]

theorem selectList_map {f : Token → Token} (hf : Keeps f) (select : List Token) :
    selectList (select.map f) = (selectList select).map f := by
  cases select with
  | nil => rfl
  | cons t r =>
    simp only [List.map_cons, selectList, isOneOf_map hf]
    split <;> rfl

theorem refusedItems_lowered (items : List (List Token)) :
    refusedItems a q.lowered (items.map (·.map Token.lowered)) =
      loweredRun (·.map (·.map Token.lowered)) (refusedItems a q items) := by
  rw [refusedItems, refusedItems]
  rw [loweredRun_mapM (g := fun c : List Token × Bool => (c.1.map Token.lowered, c.2))]
  · apply loweredRun_bind
    intro checked
    simp [pure, Except.pure, loweredRun, List.filter_map, Function.comp_def]
  · intro item
    rw [withoutAlias_lowered]
    apply loweredRun_bind
    intro e
    rw [expressionAllowed_lowered]
    rfl

theorem checkProjection_lowered :
    checkProjection a q.lowered = loweredRun id (checkProjection a q) := by
  have hcomma (t : Token) : (t.lowered == .comma) = (t == .comma) := by
    rw [Bool.eq_iff_iff, beq_iff_eq, beq_iff_eq, Token.lowered_eq_iff rfl]
  have hselect : selectList q.lowered.select = (selectList q.select).map Token.lowered :=
    selectList_map keeps_lowered q.select
  have hitems := splitTopLevelFrom_map keeps_lowered (· == .comma) hcomma 0
  simp only [checkProjection, hselect, map_lowered_eq_mark (u := .star) rfl, splitTopLevel,
    hitems, refusedItems_lowered]
  split
  · rfl
  cases refusedItems a q (splitTopLevelFrom (· == .comma) 0 (selectList q.select)) with
  | error why => rfl
  | ok refused => cases refused <;> rfl

/-! ### Joins and limits -/

variable {a q} in
theorem checkJoin_of_ne {join : Join}
    (h : ∀ leftName leftColumn rightName rightColumn, join.on_ ≠
      [leftName, .dot, leftColumn, .operator .eq, rightName, .dot, rightColumn]) :
    checkJoin a q join = .error (.joinCondition join.on_) := by
  unfold checkJoin
  split
  · rename_i hon
    exact absurd hon (h _ _ _ _)
  · rfl

theorem checkJoin_lowered (join : Join) :
    checkJoin a q.lowered join.lowered = loweredRun id (checkJoin a q join) := by
  by_cases hequality : ∃ leftName leftColumn rightName rightColumn, join.on_ =
      [leftName, .dot, leftColumn, .operator .eq, rightName, .dot, rightColumn]
  · obtain ⟨leftName, leftColumn, rightName, rightColumn, hon⟩ := hequality
    have hlowered : join.lowered.on_ = [leftName.lowered, .dot, leftColumn.lowered,
        .operator .eq, rightName.lowered, .dot, rightColumn.lowered] := by
      rw [Join.lowered, hon]
      rfl
    simp only [checkJoin, hon, hlowered, List.all_cons, List.all_nil,
      Token.isIdentifier_lowered, Token.name_lowered, tableNamed?_lowered]
    split
    · cases q.tableNamed? leftName.name with
      | none => rfl
      | some leftTable =>
        cases q.tableNamed? rightName.name with
        | none => rfl
        | some rightTable =>
          dsimp only
          split <;> rfl
    · rfl
  · have hother : ∀ leftName leftColumn rightName rightColumn, join.lowered.on_ ≠
        [leftName, .dot, leftColumn, .operator .eq, rightName, .dot, rightColumn] := by
      intro _ _ _ _ hlowered
      obtain ⟨leftName, _, hon, _, htail⟩ := List.map_eq_cons_iff.mp hlowered
      obtain ⟨_, rfl, hequal⟩ := eq_cons_of_map_lowered rfl htail
      obtain ⟨leftColumn, _, rfl, _, hright⟩ := List.map_eq_cons_iff.mp hequal
      obtain ⟨_, rfl, hname⟩ := eq_cons_of_map_lowered rfl hright
      obtain ⟨rightName, _, rfl, _, hdot⟩ := List.map_eq_cons_iff.mp hname
      obtain ⟨_, rfl, hcolumn⟩ := eq_cons_of_map_lowered rfl hdot
      obtain ⟨rightColumn, _, rfl, _, hend⟩ := List.map_eq_cons_iff.mp hcolumn
      rw [List.map_eq_nil_iff.mp hend] at hon
      exact hequality ⟨leftName, leftColumn, rightName, rightColumn, hon⟩
    rw [checkJoin_of_ne hother, checkJoin_of_ne fun _ _ _ _ hon => hequality ⟨_, _, _, _, hon⟩]
    rfl

theorem checkJoins_lowered : checkJoins a q.lowered = loweredRun id (checkJoins a q) := by
  rw [checkJoins, checkJoins, joins_lowered]
  exact loweredRun_forM (checkJoin_lowered a q) q.joins

theorem rowCount?_lowered (t : Token) : rowCount? t.lowered = rowCount? t := by
  cases t with
  | number digits =>
    simp only [Token.lowered, rowCount?, Text.isDigits_map_toLower, List.length_map]
    split
    · rename_i h
      rw [Text.map_toLower_of_isDigits (Bool.and_eq_true_iff.mp h).1]
    · rfl
  | _ => rfl

theorem limitRows?_lowered (limit : List Token) :
    limitRows? (limit.map Token.lowered) = limitRows? limit := by
  rcases limit with _ | ⟨m, _ | ⟨between, _ | ⟨n, _ | ⟨u, more⟩⟩⟩⟩
  · rfl
  · exact rowCount?_lowered m
  · rfl
  · simp only [List.map_cons, List.map_nil, limitRows?, rowCount?_lowered,
      Token.lowered_eq_iff (u := .comma) rfl, isKeyword_lowered]
  · rfl

theorem checkRows_lowered : checkRows a q.lowered = loweredRun id (checkRows a q) := by
  obtain ⟨select, source, limit⟩ := q
  cases limit with
  | none => rfl
  | some limit =>
    simp only [checkRows, Query.lowered, Option.map_some, limitRows?_lowered]
    cases limitRows? limit with
    | none => rfl
    | some rows =>
      dsimp only
      split <;> rfl

end Query

/-! ### Statements -/

variable (a : AllowList) (queries : List Query)

theorem checkTables_lowered :
    checkTables a (queries.map Query.lowered) = loweredRun id (checkTables a queries) := by
  have hempty : (fun q : Query => q.tables.isEmpty) ∘ Query.lowered = fun q => q.tables.isEmpty := by
    funext q
    exact congrArg List.isEmpty (tables_lowered q)
  simp only [checkTables, List.any_map, hempty, List.flatMap_map, tables_lowered]
  split
  · rfl
  cases (queries.flatMap Query.tables).filter fun table => !a.hasTable table <;> rfl

theorem checkLimit_lowered :
    checkLimit a (queries.map Query.lowered) = loweredRun id (checkLimit a queries) := by
  have hrows := loweredRun_forM (checkRows_lowered a) queries
  rw [checkLimit, checkLimit, List.getLast?_map]
  cases queries.getLast? with
  | none => rfl
  | some q =>
    obtain ⟨select, source, limit⟩ := q
    cases limit with
    | none => rfl
    | some limit => exact hrows

theorem checkQueries_lowered :
    checkQueries a (queries.map Query.lowered) = loweredRun id (checkQueries a queries) := by
  rw [checkQueries, checkQueries, checkTables_lowered]
  apply loweredRun_bind
  intro _
  rw [loweredRun_forM (checkProjection_lowered a)]
  apply loweredRun_bind
  intro _
  rw [loweredRun_forM (checkJoins_lowered a)]
  apply loweredRun_bind
  intro _
  exact checkLimit_lowered a queries

theorem checkShape_map_toLower (text : List Char) :
    checkShape (text.map Char.toLower) = loweredRun id (checkShape text) := by
  have hnone : (terminators.all fun part => part.toList.all fun k => !k.isAlpha) = true := by decide
  have hletters : ∀ part ∈ terminators, ∀ k ∈ part.toList, k.isAlpha = false := by
    simpa using hnone
  have hparts : (terminators.any fun part => Text.containsText part.toList
      (text.map Char.toLower)) = terminators.any fun part => Text.containsText part.toList text := by
    rw [Bool.eq_iff_iff, List.any_eq_true, List.any_eq_true]
    refine exists_congr fun part => and_congr_right fun hpart => ?_
    rw [Text.containsText_map_toLower (hletters part hpart)]
  simp only [checkShape, List.isEmpty_map, Text.upper_map_toLower, hparts]
  split
  · rfl
  split
  · rfl
  split <;> rfl

theorem checkKeywords_map_toLower (text : List Char) :
    checkKeywords a (text.map Char.toLower) = loweredRun id (checkKeywords a text) := by
  simp only [checkKeywords, Text.containsWord_map_toLower]
  split <;> rfl

/-- The guard answers a statement in small letters as it answers the statement, and a rejection
says the same of it. -/
theorem check_map_toLower (sql : List Char) :
    check a (sql.map Char.toLower) = loweredRun id (check a sql) := by
  rw [check, check, Text.squeeze_map_toLower, checkShape_map_toLower]
  apply loweredRun_bind
  intro _
  rw [checkKeywords_map_toLower]
  apply loweredRun_bind
  intro _
  rw [queriesOf_map_toLower]
  apply loweredRun_bind
  intro queries
  exact checkQueries_lowered a queries

theorem accepts_map_toLower (sql : List Char) :
    accepts a (sql.map Char.toLower) = accepts a sql := by
  rw [accepts, accepts, check_map_toLower]
  cases check a sql <;> rfl

theorem tablesOf_map_toLower (sql : List Char) :
    tablesOf (sql.map Char.toLower) = tablesOf sql := by
  rw [tablesOf, tablesOf, Text.squeeze_map_toLower, queriesOf_map_toLower]
  cases queriesOf (Text.squeeze sql) with
  | error why => rfl
  | ok queries =>
    simp only [loweredRun, List.flatMap_map, tables_lowered]

end Guard
end QueryGate
