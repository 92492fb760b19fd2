import QueryGate.Proofs.Guard.Acceptance
import QueryGate.Proofs.Guard.Wording
import QueryGate.Proofs.Scope.SameStatement

/-!
# What an accepted statement selects

A select list is a star, or a list of items between commas in which every identifier plays a known
part: it names its item, calls a function, qualifies a column or is a column itself.  A column is
always one that the allow-list has for the table it is taken from.
-/

namespace QueryGate

namespace Sql

/-! ### Lists between separators -/

theorem intercalate_consFirst (sep : List Token) (t : Token) {parts : List (List Token)}
    (hne : parts ≠ []) : sep.intercalate (consFirst t parts) = t :: sep.intercalate parts := by
  obtain ⟨part, more, rfl⟩ := List.exists_cons_of_ne_nil hne
  cases more <;> simp [consFirst, List.intercalate]

theorem splitTopLevelFrom_ne_nil (separates : Token → Bool) (depth : Int) (ts : List Token) :
    splitTopLevelFrom separates depth ts ≠ [] := by
  cases ts with
  | nil => simp [splitTopLevelFrom]
  | cons t r =>
    rw [splitTopLevelFrom]
    split
    · simp
    · cases splitTopLevelFrom separates (depthAfter depth t) r <;> simp [consFirst]

/-- The parts of a list with the separators put back between them are the list. -/
theorem intercalate_splitTopLevelFrom (sep : Token) (depth : Int) (ts : List Token) :
    [sep].intercalate (splitTopLevelFrom (· == sep) depth ts) = ts := by
  induction ts generalizing depth with
  | nil => rfl
  | cons t r ih =>
    have hne := splitTopLevelFrom_ne_nil (· == sep) (depthAfter depth t) r
    rw [splitTopLevelFrom]
    split
    · rename_i hsep
      obtain ⟨part, more, hparts⟩ := List.exists_cons_of_ne_nil hne
      have hrest := ih (depthAfter depth t)
      rw [hparts] at hrest
      rw [hparts, List.intercalate_cons_cons, hrest, eq_of_beq hsep.2]
      rfl
    · rw [intercalate_consFirst _ _ hne, ih]

/-- A token of a list that is put together of two stands in the one or in the other. -/
theorem append_cons_eq_append {front back u w : List Token} {t : Token}
    (h : front ++ t :: back = u ++ w) :
    (∃ more, u = front ++ t :: more ∧ back = more ++ w) ∨
      ∃ more, front = u ++ more ∧ w = more ++ t :: back := by
  rcases List.append_eq_append_iff.mp h with ⟨more, rfl, hw⟩ | ⟨more, rfl, hw⟩
  · cases more with
    | nil => exact Or.inr ⟨[], by simp, hw.symm⟩
    | cons s more =>
      obtain ⟨rfl, hback⟩ := List.cons.inj hw
      exact Or.inl ⟨more, rfl, hback⟩
  · exact Or.inr ⟨more, rfl, hw⟩

theorem rparen_of_closingFrom {depth : Int} {place found : Nat} {ts : List Token}
    (h : closingFrom depth place ts = some found) :
    ∃ i, found = place + i ∧ ts[i]? = some .rparen := by
  fun_induction closingFrom depth place ts with
  | case1 => cases h
  | case2 depth place r ih =>
    obtain ⟨i, rfl, hi⟩ := ih h
    exact ⟨i + 1, by omega, hi⟩
  | case3 =>
    cases h
    exact ⟨0, rfl, rfl⟩
  | case4 depth place r hdepth ih =>
    obtain ⟨i, rfl, hi⟩ := ih h
    exact ⟨i + 1, by omega, hi⟩
  | case5 depth place t r _ _ ih =>
    obtain ⟨i, rfl, hi⟩ := ih h
    exact ⟨i + 1, by omega, hi⟩

end Sql

namespace Guard

open Sql

/-! ### The parts of identifiers -/

/-- Whether a token names the item in front of it: behind `AS`, or behind the end of an expression
when it is no reserved word. -/
def namesItem (front : List Token) (n : Token) : Prop :=
  ∃ e last, (front = e ++ [last] ∧ endsExpression last = true ∧ n.isPlainIdentifier = true) ∨
    ∃ w : Word .as_, front = e ++ [last, w.1] ∧ isAlias n = true

/-- The part that an identifier of a select item plays, with what stands in front of it and behind
it in the item. -/
inductive Plays (a : AllowList) (q : Query) (front : List Token) (t : Token) (back : List Token) :
    Prop where
  /-- It is the name of the item. -/
  | itemName (last : back = []) (names : namesItem front t)
  /-- It is the word in front of the name. -/
  | as_ (n : Token) (word : t.isKeyword .as_ = true) (last : back = [n])
    (names : namesItem (front ++ [t]) n)
  /-- It is the function that the item calls. -/
  | function (first : front = []) (rest : List Token) (calls : back = .lparen :: rest)
  /-- It is the word in front of the argument of a function. -/
  | distinct (f : Token) (word : t.isKeyword .distinct = true) (inside : front = [f, .lparen])
  /-- It stands for a table of the block and qualifies a column. -/
  | qualifier (rest : List Token) (qualifies : back = .dot :: rest) (table : String)
    (named : q.tableNamed? t.name = some table)
  /-- It is a listed column of the table that its qualifier stands for. -/
  | qualifiedColumn (before : List Token) (n : Token) (qualified : front = before ++ [n, .dot])
    (table : String) (named : q.tableNamed? n.name = some table)
    (listed : t.name ∈ a.columns table)
  /-- It is a listed column of a table of the block and has no qualifier. -/
  | column (bare : front.getLast? ≠ some .dot) (table : String) (inBlock : table ∈ q.tables)
    (listed : t.name ∈ a.columns table)

variable {a : AllowList} {q : Query}

/-! ### Columns -/

theorem plays_of_bareColumnAllowed {lead : List Token} (hlead : lead.getLast? ≠ some .dot)
    {c : Token} (h : bareColumnAllowed a q c = true) (back : List Token) :
    Plays a q lead c back := by
  simp only [bareColumnAllowed, Bool.and_eq_true, List.any_eq_true, List.contains_iff_mem] at h
  obtain ⟨_, table, htable, hcolumn⟩ := h
  exact .column hlead table htable hcolumn

theorem table_of_qualifiedColumnAllowed {n c : Token}
    (h : qualifiedColumnAllowed a q n c = true) :
    ∃ table, q.tableNamed? n.name = some table ∧ c.name ∈ a.columns table := by
  unfold qualifiedColumnAllowed at h
  rw [Bool.and_eq_true] at h
  cases htable : q.tableNamed? n.name with
  | none => simp [htable] at h
  | some table => exact ⟨table, rfl, by simpa [htable] using h.2⟩

/-- Every identifier of `ts` plays a part when `ts` stands behind `lead`. -/
def PlaysAll (a : AllowList) (q : Query) (lead ts : List Token) : Prop :=
  ∀ front t back, ts = front ++ t :: back → t.isIdentifier = true →
    ∀ more, Plays a q (lead ++ front) t (back ++ more)

theorem playsAll_nil (lead : List Token) : PlaysAll a q lead [] := by
  intro front t back h
  simp at h

/-- A token that is no identifier, or plays a part, in front of others that do. -/
theorem PlaysAll.cons {lead ts : List Token} {t : Token}
    (ht : t.isIdentifier = true → ∀ more, Plays a q lead t (ts ++ more))
    (hts : PlaysAll a q (lead ++ [t]) ts) : PlaysAll a q lead (t :: ts) := by
  intro front u back h hu more
  cases front with
  | nil =>
    obtain ⟨rfl, rfl⟩ := List.cons.inj h
    rw [List.append_nil]
    exact ht hu more
  | cons s front =>
    obtain ⟨rfl, rfl⟩ := List.cons.inj h
    have hplays := hts front u back rfl hu more
    rwa [List.append_assoc] at hplays

theorem PlaysAll.cons_other {lead ts : List Token} {t : Token} (ht : t.isIdentifier = false)
    (hts : PlaysAll a q (lead ++ [t]) ts) : PlaysAll a q lead (t :: ts) := by
  refine PlaysAll.cons ?_ hts
  intro hid
  rw [ht] at hid
  cases hid

theorem PlaysAll.concat {lead ts : List Token} {t : Token} (ht : t.isIdentifier = false)
    (hts : PlaysAll a q lead ts) : PlaysAll a q lead (ts ++ [t]) := by
  intro front u back h hu more
  rcases append_cons_eq_append h.symm with ⟨inner, rfl, rfl⟩ | ⟨inner, rfl, hlast⟩
  · have hplays := hts front u inner rfl hu (t :: more)
    rwa [List.append_assoc]
  · have hu' : u ∈ [t] := by
      rw [hlast]
      simp
    rw [List.mem_singleton.mp hu', ht] at hu
    cases hu

theorem playsAll_qualified {lead ts : List Token} {n c : Token}
    (h : qualifiedColumnAllowed a q n c = true) (hts : PlaysAll a q (lead ++ [n, .dot, c]) ts) :
    PlaysAll a q lead (n :: .dot :: c :: ts) := by
  obtain ⟨table, hnamed, hlisted⟩ := table_of_qualifiedColumnAllowed h
  apply PlaysAll.cons
  · intro _ more
    exact .qualifier _ rfl table hnamed
  apply PlaysAll.cons_other rfl
  apply PlaysAll.cons
  · intro _ more
    exact .qualifiedColumn lead n (by simp) table hnamed hlisted
  · simpa using hts

theorem playsAll_of_columnAllowed {lead e : List Token} (hlead : lead.getLast? ≠ some .dot)
    (h : columnAllowed a q e = true) : PlaysAll a q lead e := by
  unfold columnAllowed at h
  split at h
  · apply PlaysAll.cons
    · intro _ more
      exact plays_of_bareColumnAllowed hlead h _
    · exact playsAll_nil _
  · exact playsAll_qualified h (playsAll_nil _)
  · cases h

theorem getLast?_ne_dot (lead : List Token) {t : Token} (h : t ≠ .dot) :
    (lead ++ [t]).getLast? ≠ some .dot := by
  rw [List.getLast?_concat]
  intro hdot
  exact h (Option.some.inj hdot)

theorem playsAll_of_timeExpressionAllowed {lead ts : List Token}
    (hlead : lead.getLast? ≠ some .dot) (h : timeExpressionAllowed a q ts = true) :
    PlaysAll a q lead ts := by
  have ne_dot {t : Token} (hid : t.isIdentifier = true) : t ≠ .dot := by
    rintro rfl
    cases hid
  fun_induction timeExpressionAllowed a q ts generalizing lead with
  | case1 => exact playsAll_nil lead
  | case2 => cases h
  | case3 t hid c more ih =>
    rw [Bool.and_eq_true] at h
    have hc : c.isIdentifier = true := by
      have hcolumn := h.1
      simp only [qualifiedColumnAllowed, Bool.and_eq_true] at hcolumn
      exact hcolumn.1.2
    apply playsAll_qualified h.1
    have hnext := getLast?_ne_dot (lead ++ [t, .dot]) (ne_dot hc)
    rw [List.append_assoc] at hnext
    exact ih hnext h.2
  | case4 t hid rest _ _ ih =>
    rw [Bool.and_eq_true] at h
    apply PlaysAll.cons
    · intro _ more
      exact plays_of_bareColumnAllowed hlead h.1 _
    · exact ih (getLast?_ne_dot _ (ne_dot hid)) h.2
  | case5 => cases h
  | case6 t r hid hplain ih =>
    apply PlaysAll.cons_other (by simpa using hid)
    exact ih (getLast?_ne_dot _ fun hdot => hplain (Or.inr (Or.inr hdot))) h

/-! ### Expressions -/

/-- A call is a function, an opening parenthesis, the arguments and a closing one. -/
theorem eq_of_call? {e arguments : List Token} {f : Token} (h : call? e = some (f, arguments)) :
    e = f :: .lparen :: (arguments ++ [.rparen]) := by
  unfold call? at h
  split at h
  · rename_i f' r
    split at h
    · rename_i hclosing
      cases h
      obtain ⟨i, hi, hlast⟩ := rparen_of_closingFrom hclosing
      have hplace : i = r.length - 1 := by omega
      rw [hplace, ← List.getLast?_eq_getElem?] at hlast
      obtain ⟨arguments, rfl⟩ := List.getLast?_eq_some_iff.mp hlast
      simp
    · cases h
  · cases h

/-- The arguments of an allowed call play a part behind the opening parenthesis. -/
theorem playsAll_of_arguments {f : Token} {arguments : List Token}
    (h : (if f.upperName == "COUNT" && arguments == [.star] then true
      else if a.timeFunctions.contains f.upperName then
        !arguments.isEmpty && timeExpressionAllowed a q arguments
      else columnAllowed a q (withoutDistinct arguments)) = true) :
    PlaysAll a q [f, .lparen] arguments := by
  have hopen : [f, Token.lparen].getLast? ≠ some .dot := by simp
  split at h
  · rename_i hcount
    rw [Bool.and_eq_true, beq_iff_eq, beq_iff_eq] at hcount
    rw [hcount.2]
    exact PlaysAll.cons_other rfl (playsAll_nil _)
  split at h
  · rw [Bool.and_eq_true] at h
    exact playsAll_of_timeExpressionAllowed hopen h.2
  unfold withoutDistinct at h
  split at h
  · split at h
    · rename_i t r hdistinct
      apply PlaysAll.cons
      · intro _ more
        exact .distinct f hdistinct rfl
      · apply playsAll_of_columnAllowed (getLast?_ne_dot _ _) h
        rintro rfl
        cases hdistinct
    · exact playsAll_of_columnAllowed hopen h
  · exact playsAll_nil _

theorem playsAll_of_expressionAllowed {e : List Token} (h : expressionAllowed a q e = true) :
    PlaysAll a q [] e := by
  unfold expressionAllowed at h
  split at h
  · exact playsAll_of_columnAllowed nofun h
  · rename_i f arguments hcall
    rw [eq_of_call? hcall]
    apply PlaysAll.cons
    · intro _ more
      exact .function rfl _ rfl
    · exact PlaysAll.cons_other rfl (PlaysAll.concat rfl (playsAll_of_arguments h))

/-! ### Items -/

/-- An item is an expression, alone or with a name behind it. -/
theorem item_of_withoutAlias {item e : List Token} (h : withoutAlias item = .ok e) :
    item = e ∨ (∃ n, item = e ++ [n] ∧ namesItem e n) ∨
      ∃ (w : Word .as_) (n : Token), item = e ++ [w.1, n] ∧ namesItem (e ++ [w.1]) n := by
  unfold withoutAlias at h
  split at h
  · rename_i last before x more hreverse
    have hitem : item = more.reverse ++ [x, before, last] := by
      rw [← List.reverse_reverse item, hreverse]
      simp
    split at h
    · rename_i has
      split at h
      · rename_i halias
        cases h
        right; right
        refine ⟨⟨before, has⟩, last, by simp [hitem], more.reverse, x, Or.inr ?_⟩
        exact ⟨⟨before, has⟩, by simp, halias⟩
      · cases h
    · split at h
      · rename_i hname
        cases h
        rw [Bool.and_eq_true] at hname
        right; left
        refine ⟨last, by simp [hitem], more.reverse ++ [x], before, Or.inl ⟨?_, hname.2, hname.1⟩⟩
        simp
      · cases h
        exact Or.inl rfl
  · rename_i last before hreverse
    have hitem : item = [before, last] := by
      rw [← List.reverse_reverse item, hreverse]
      rfl
    split at h
    · rename_i hname
      cases h
      rw [Bool.and_eq_true] at hname
      right; left
      exact ⟨last, hitem, [], before, Or.inl ⟨rfl, hname.2, hname.1⟩⟩
    · cases h
      exact Or.inl rfl
  · cases h
    exact Or.inl rfl

/-- Every identifier of an item that may be selected plays a part. -/
theorem plays_of_isSelectable {item : List Token} (h : isSelectable a q item)
    {front back : List Token} {t : Token} (hitem : item = front ++ t :: back)
    (ht : t.isIdentifier = true) : Plays a q front t back := by
  obtain ⟨e, he, hallowed⟩ := h
  have hexpression := playsAll_of_expressionAllowed hallowed
  rcases item_of_withoutAlias he with rfl | ⟨n, rfl, hn⟩ | ⟨w, n, rfl, hn⟩
  · simpa using hexpression front t back hitem ht []
  · rcases append_cons_eq_append hitem.symm with ⟨more, hfront, rfl⟩ | ⟨more, rfl, hback⟩
    · exact hexpression front t more hfront ht [n]
    · cases more with
      | nil =>
        obtain ⟨rfl, rfl⟩ := List.cons.inj hback
        exact .itemName rfl (by rwa [List.append_nil])
      | cons s more => simp at hback
  · rcases append_cons_eq_append hitem.symm with ⟨more, hfront, rfl⟩ | ⟨more, rfl, hback⟩
    · exact hexpression front t more hfront ht [w.1, n]
    · cases more with
      | nil =>
        obtain ⟨hw, rfl⟩ := List.cons.inj hback
        refine .as_ n ?_ rfl ?_
        · rw [← hw]
          exact w.2
        · rwa [List.append_nil, ← hw]
      | cons s more =>
        obtain ⟨hs, hrest⟩ := List.cons.inj hback
        subst hs
        cases more with
        | nil =>
          obtain ⟨rfl, rfl⟩ := List.cons.inj hrest
          exact .itemName rfl hn
        | cons s more => simp at hrest

/-- Whether a block selects everything, or a list of items in which every identifier plays a
part. -/
def selectsListed (a : AllowList) (q : Query) : Prop :=
  selectList q.select = [.star] ∨
    ([Token.comma].intercalate (splitTopLevel (· == .comma) (selectList q.select)) =
        selectList q.select ∧
      ∀ item ∈ splitTopLevel (· == .comma) (selectList q.select), item ≠ [] ∧
        ∀ front t back, item = front ++ t :: back → t.isIdentifier = true →
          Plays a q front t back)

theorem selectsListed_of_isAllowed (h : IsAllowed a q) : selectsListed a q := by
  rcases h.projection with hstar | hitems
  · exact Or.inl hstar
  · right
    refine ⟨intercalate_splitTopLevelFrom .comma 0 _, ?_⟩
    intro item hitem
    have hselectable := hitems item hitem
    constructor
    · rintro rfl
      obtain ⟨e, he, hallowed⟩ := hselectable
      cases he
      cases hallowed
    · intro front t back hsplit ht
      exact plays_of_isSelectable hselectable hsplit ht

/-! ### The statement as a whole -/

/-- The select lists of an accepted statement.  Block by block the guard has read the clauses of the
statement as it stands, up to the blanks inside quotes, and of names that show no blank even these
are the same.  Every select list is a star, or a list of items between commas in which each
identifier names its item, calls a function, qualifies a column or is a listed column. -/
theorem selection_of_accepted_statement {a : AllowList} {sql : List Char}
    (haccepted : accepts a sql = true) :
    ∃ ts blocks queries, Scope.blocksOf sql = .ok (ts, blocks) ∧
      queriesOf (Text.squeeze sql) = .ok queries ∧
      List.Forall₂ Scope.ReadsAlike blocks queries ∧
      (∀ t ∈ ts, t.isIdentifier = true → ' ' ∉ t.collapsed.name.toList →
        t.collapsed.name = t.name) ∧
      ∀ q ∈ queries, selectsListed a q := by
  obtain ⟨ts, parts, blocks, queries, hts, hparts, hsplit, hqueries, halike, _, hallowed⟩ :=
    Scope.blocks_of_accepts haccepted
  have hblocks : Scope.blocksOf sql = .ok (ts, blocks) :=
    Scope.blocksOf_eq_ok_iff.mpr ⟨parts, hts, hparts, hsplit⟩
  refine ⟨ts, blocks, queries, hblocks, hqueries, halike, ?_, ?_⟩
  · intro t _ hid hblank
    exact name_collapsed hid hblank
  · intro q hq
    exact selectsListed_of_isAllowed (hallowed q hq)

/-- A statement whose items use every way to name a column. -/
def manyItemsText : List Char :=
  "SELECT DISTINCT d.note AS remark, COUNT(DISTINCT id) amount, COUNT(*), ".toList
    ++ "FROM_UNIXTIME(d.date, '%H') hour FROM daily_check d ".toList
    ++ "WHERE d.restaurant_id = 74 LIMIT 5".toList

theorem selection_of_manyItems :
    accepts Policy.shipped manyItemsText = true ∧
      ∃ queries, queriesOf (Text.squeeze manyItemsText) = .ok queries ∧
        ∀ q ∈ queries, selectsListed Policy.shipped q := by
  have haccepted : accepts Policy.shipped manyItemsText = true :=
    accepts_of_isQuietQuery (by decide +kernel)
  obtain ⟨_, _, queries, _, hqueries, _, _, hall⟩ := selection_of_accepted_statement haccepted
  exact ⟨haccepted, queries, hqueries, hall⟩

end Guard
end QueryGate
