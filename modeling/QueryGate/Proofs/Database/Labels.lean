import QueryGate.Proofs.Database.Rows
import QueryGate.Proofs.Guard.LetterCase
import QueryGate.Proofs.Guard.Selection

/-!
# The labels of a result

The columns of a result are labelled by the items that were selected: with the name that an item
was given, else with the column or the text of the call that it consists of.  The guard accepts
statements whose items have one label; of their rows not every cell is handed on.
-/

namespace QueryGate

namespace Sql

open Text

/-- A text of tokens: what is written for them, with blanks anywhere between. -/
inductive IsText : List Token → List Char → Prop
  | nil : IsText [] []
  | blank {ts : List Token} {cs : List Char} {b : Char} (hb : isBlank b = true)
      (h : IsText ts cs) : IsText ts (b :: cs)
  | token {t : Token} {ts : List Token} {cs : List Char} (h : IsText ts cs) :
      IsText (t :: ts) (t.written ++ cs)

theorem isText_written (ts : List Token) : IsText ts (ts.flatMap Token.written) := by
  induction ts with
  | nil => exact .nil
  | cons t ts ih =>
    rw [List.flatMap_cons]
    exact .token ih

/-- A text in which doubled quotes stand for one. -/
def undoubled (quote : Char) : List Char → List Char
  | c :: d :: r =>
    if c = quote ∧ d = quote then quote :: undoubled quote r else c :: undoubled quote (d :: r)
  | cs => cs

/-- The name that a token gives to an item. -/
def Token.given : Token → List Char
  | literal quote body => undoubled quote.char body
  | t => t.inner

end Sql

namespace Guard

open Sql

/-- The label of a select item. -/
inductive IsLabel : List Token → String → Prop
  /-- An item that was given a name is labelled with it. -/
  | name {front : List Token} {n : Token} (h : namesItem front n) :
      IsLabel (front ++ [n]) (String.ofList n.given)
  /-- A column is labelled as it is written. -/
  | column {c : Token} (h : c.isIdentifier = true) : IsLabel [c] (String.ofList c.inner)
  /-- The qualifier of a column is no part of its label. -/
  | qualifiedColumn {n c : Token} (h : c.isIdentifier = true) :
      IsLabel [n, .dot, c] (String.ofList c.inner)
  /-- A call is labelled with its text. -/
  | call {f : Token} {arguments : List Token} {cs : List Char}
      (h : IsText (f :: .lparen :: (arguments ++ [.rparen])) cs) :
      IsLabel (f :: .lparen :: (arguments ++ [.rparen])) (String.ofList cs)

/-- What an expression that may be selected consists of. -/
inductive IsExpression : List Token → Prop
  | column {c : Token} (h : c.isIdentifier = true) : IsExpression [c]
  | qualifiedColumn {n c : Token} (h : c.isIdentifier = true) : IsExpression [n, .dot, c]
  | call (f : Token) (arguments : List Token) :
      IsExpression (f :: .lparen :: (arguments ++ [.rparen]))

variable {a : AllowList} {q : Query}

theorem isExpression_of_expressionAllowed {e : List Token} (h : expressionAllowed a q e = true) :
    IsExpression e := by
  unfold expressionAllowed at h
  split at h
  · unfold columnAllowed at h
    split at h
    · rw [bareColumnAllowed, Bool.and_eq_true] at h
      exact .column h.1
    · simp only [qualifiedColumnAllowed, Bool.and_eq_true] at h
      exact .qualifiedColumn h.1.2
    · cases h
  · rename_i f arguments hcall
    rw [eq_of_call? hcall]
    exact .call f arguments

/-! ### Items in the collapsed text -/

theorem collapsed_eq_iff {t u : Token} (hu : u.isMark = true) : t.collapsed = u ↔ t = u := by
  cases t with
  | quotedName name | literal quote body =>
    constructor
    · rintro rfl
      cases hu
    · rintro rfl
      cases hu
  | _ => rfl

theorem namesItem_of_collapsed {front : List Token} {n : Token}
    (h : namesItem (front.map Token.collapsed) n.collapsed) : namesItem front n := by
  obtain ⟨e, last, ⟨hfront, hends, hplain⟩ | ⟨w, hfront, halias⟩⟩ := h
  · obtain ⟨e, ends, rfl, rfl, hends'⟩ := List.map_eq_append_iff.mp hfront
    obtain ⟨last, rfl, rfl⟩ := List.map_eq_singleton_iff.mp hends'
    refine ⟨e, last, Or.inl ⟨rfl, ?_, by simpa using hplain⟩⟩
    cases last <;> first | rfl | exact hends
  · obtain ⟨e, behind, rfl, rfl, hbehind⟩ := List.map_eq_append_iff.mp hfront
    obtain ⟨last, words, rfl, rfl, hwords⟩ := List.map_eq_cons_iff.mp hbehind
    obtain ⟨word, rfl, hword⟩ := List.map_eq_singleton_iff.mp hwords
    have has : word.isKeyword .as_ = true := by
      rw [← isKeyword_collapsed, hword]
      exact w.2
    refine ⟨e, last, Or.inr ⟨⟨word, has⟩, rfl, ?_⟩⟩
    cases n <;> first | rfl | exact halias

/-- An expression of the collapsed text is one of the text itself, and so it has a label. -/
theorem exists_label_of_isExpression {item : List Token}
    (h : IsExpression (item.map Token.collapsed)) : ∃ label, IsLabel item label := by
  generalize hmapped : item.map Token.collapsed = e at h
  cases h with
  | column hc =>
    obtain ⟨c, rfl, rfl⟩ := List.map_eq_singleton_iff.mp hmapped
    exact ⟨_, .column (by simpa using hc)⟩
  | qualifiedColumn hc =>
    obtain ⟨n, behind, rfl, rfl, hbehind⟩ := List.map_eq_cons_iff.mp hmapped
    obtain ⟨between, rest, rfl, hdot, hrest⟩ := List.map_eq_cons_iff.mp hbehind
    obtain ⟨c, rfl, rfl⟩ := List.map_eq_singleton_iff.mp hrest
    obtain rfl := (collapsed_eq_iff rfl).mp hdot
    exact ⟨_, .qualifiedColumn (by simpa using hc)⟩
  | call f arguments =>
    obtain ⟨f, behind, rfl, rfl, hbehind⟩ := List.map_eq_cons_iff.mp hmapped
    obtain ⟨opens, rest, rfl, hopens, hrest⟩ := List.map_eq_cons_iff.mp hbehind
    obtain ⟨arguments, last, rfl, rfl, hlast⟩ := List.map_eq_append_iff.mp hrest
    obtain ⟨closes, rfl, hcloses⟩ := List.map_eq_singleton_iff.mp hlast
    obtain rfl := (collapsed_eq_iff rfl).mp hopens
    obtain rfl := (collapsed_eq_iff rfl).mp hcloses
    exact ⟨_, .call (isText_written _)⟩

theorem exists_label_of_namesItem {item front : List Token} {n : Token}
    (hmapped : item.map Token.collapsed = front ++ [n]) (h : namesItem front n) :
    ∃ label, IsLabel item label := by
  obtain ⟨front, names, rfl, rfl, hnames⟩ := List.map_eq_append_iff.mp hmapped
  obtain ⟨n, rfl, rfl⟩ := List.map_eq_singleton_iff.mp hnames
  exact ⟨_, .name (namesItem_of_collapsed h)⟩

/-- Every item that may be selected has a label. -/
theorem exists_label_of_isSelectable {item : List Token}
    (h : isSelectable a q (item.map Token.collapsed)) : ∃ label, IsLabel item label := by
  obtain ⟨e, he, hallowed⟩ := h
  rcases item_of_withoutAlias he with hself | ⟨n, hitem, hn⟩ | ⟨w, n, hitem, hn⟩
  · rw [← hself] at hallowed
    exact exists_label_of_isExpression (isExpression_of_expressionAllowed hallowed)
  · exact exists_label_of_namesItem hitem hn
  · rw [List.append_cons] at hitem
    exact exists_label_of_namesItem hitem hn

end Guard

namespace Database

open Sql Guard

/-- The items that a block selects. -/
def selectItems (sections : List Section) : List (List Token) :=
  splitTopLevel (· == .comma) (selectList (body .select sections))

/-- The items that the guard has read are those of the block, collapsed. -/
theorem selectItems_collapsed {q : Query} {sections : List Section}
    (hselect : q.select = (body .select sections).map Token.collapsed) :
    selectList q.select = (selectList (body .select sections)).map Token.collapsed ∧
      splitTopLevel (· == .comma) (selectList q.select) =
        (selectItems sections).map (·.map Token.collapsed) := by
  have hcomma (t : Token) : (t.collapsed == .comma) = (t == .comma) := by
    rw [Bool.eq_iff_iff, beq_iff_eq, beq_iff_eq, collapsed_eq_iff rfl]
  have hlist : selectList q.select = (selectList (body .select sections)).map Token.collapsed := by
    rw [hselect, selectList_map keeps_collapsed]
  refine ⟨hlist, ?_⟩
  rw [hlist]
  exact splitTopLevelFrom_map keeps_collapsed (· == .comma) hcomma 0 _

/-- The items of an accepted block all have labels. -/
theorem exists_label_of_isAllowed {a : AllowList} {q : Query} (hq : IsAllowed a q)
    {sections : List Section} (hselect : q.select = (body .select sections).map Token.collapsed)
    (hstar : selectList (body .select sections) ≠ [.star]) :
    ∀ item ∈ selectItems sections, ∃ label, IsLabel item label := by
  obtain ⟨hlist, hitems⟩ := selectItems_collapsed hselect
  intro item hitem
  rcases hq.projection with hall | hselectable
  · rw [hlist] at hall
    obtain ⟨t, ht, hcollapsed⟩ := List.map_eq_singleton_iff.mp hall
    rw [(collapsed_eq_iff rfl).mp hcollapsed] at ht
    exact absurd ht hstar
  · apply exists_label_of_isSelectable
    apply hselectable
    rw [hitems]
    exact List.mem_map_of_mem hitem

/-- The rows of an accepted statement.  Each item of a select list that is no star has a label.  A
result whose columns are labelled so is handed on row by row, and each row has for every label the
value of the last cell with it; it has an entry for every item, in their order, just when the labels
are distinct. -/
theorem rows_of_accepted_statement {a : AllowList} {sql : String}
    (haccepted : accepts a sql.toList = true) :
    ∃ ts blocks, Scope.blocksOf sql.toList = .ok (ts, blocks) ∧
      ∀ sections ∈ blocks, selectList (body .select sections) ≠ [.star] →
        (∀ item ∈ selectItems sections, ∃ label, IsLabel item label) ∧
        ∀ db limit trace rows, List.Forall₂ IsLabel (selectItems sections) db.table.columns →
          (∀ cells ∈ db.table.rows, cells.length = (selectItems sections).length) →
          (execute db sql limit trace).1 = .ok rows →
          List.Forall₂ (fun cells row => HoldsLast db.table.columns cells row ∧
            (HoldsEvery db.table.columns cells row ↔ db.table.columns.Nodup))
              db.table.rows rows := by
  obtain ⟨ts, parts, blocks, queries, hts, hparts, hsplit, _, halike, _, hallowed⟩ :=
    Scope.blocks_of_accepts haccepted
  refine ⟨ts, blocks, Scope.blocksOf_eq_ok_iff.mpr ⟨parts, hts, hparts, hsplit⟩, ?_⟩
  intro sections hsections hstar
  constructor
  · obtain ⟨q, hq, hread⟩ := exists_of_forall₂ halike hsections
    exact exists_label_of_isAllowed (hallowed q hq) hread.select hstar
  · intro db limit trace rows hlabels hcells hrows
    have hrun := rowOf_of_execute hrows
    rw [List.forall₂_iff_zip] at hrun ⊢
    refine ⟨hrun.1, ?_⟩
    intro cells row hpair
    apply rowOf_spec _ (hrun.2 hpair)
    rw [hcells cells (List.of_mem_zip hpair).1, hlabels.length_eq]

/-! ### Two statements -/

/-- A statement of one block, of which something has been read. -/
theorem exists_single_block {α : Type} (f : List Section → α) (sql : List Char) (x : α)
    (h : (Scope.blocksOf sql).toOption.map (fun read => read.2.map f) = some [x]) :
    ∃ ts sections, Scope.blocksOf sql = .ok (ts, [sections]) ∧ f sections = x := by
  cases hread : Scope.blocksOf sql with
  | error fault =>
    rw [hread] at h
    cases h
  | ok read =>
    rw [hread] at h
    obtain ⟨sections, hblocks, hsections⟩ := List.map_eq_singleton_iff.mp (Option.some.inj h)
    exact ⟨read.1, sections, congrArg _ (Prod.ext rfl hblocks), hsections⟩

theorem exists_block (sql : List Char) (items : List (List Token))
    (h : (Scope.blocksOf sql).toOption.map (fun read => read.2.map selectItems) = some [items]) :
    ∃ ts sections, Scope.blocksOf sql = .ok (ts, [sections]) ∧ selectItems sections = items :=
  exists_single_block selectItems sql items h

theorem ne_star_of_selectItems {sections : List Section} {item : List Token}
    {items : List (List Token)} (h : selectItems sections = item :: items) (hitem : item ≠ [.star]) :
    selectList (body .select sections) ≠ [.star] := by
  intro hstar
  rw [selectItems, hstar] at h
  exact hitem (List.cons.inj h).1.symm

/-- A statement that selects a column, and one that is given a name. -/
def namedNote : String := "SELECT id, note AS n FROM check LIMIT 1"

/-- Its items. -/
def namedNoteItems : List (List Token) :=
  [[.word ['i', 'd']], [.word ['n', 'o', 't', 'e'], .word ['A', 'S'], .word ['n']]]

/-- What a database answers to it. -/
def noteTable : ResultTable := ⟨["id", "n"], [[.int 1, .text "done"]]⟩

theorem isLabel_namedNote : List.Forall₂ IsLabel namedNoteItems noteTable.columns := by
  have hid : IsLabel [.word ['i', 'd']] "id" := .column rfl
  have hnames : namesItem [.word ['n', 'o', 't', 'e'], .word ['A', 'S']] (.word ['n']) :=
    ⟨[], .word ['n', 'o', 't', 'e'], Or.inr ⟨⟨.word ['A', 'S'], rfl⟩, rfl, rfl⟩⟩
  exact .cons hid (.cons (.name hnames) .nil)

/-- Both cells of the row are handed on. -/
theorem rows_of_namedNote :
    accepts Policy.shipped namedNote.toList = true ∧
      (execute (answering noteTable none) namedNote (.int 10000) []).1 =
        .ok [[("id", .int 1), ("n", .text "done")]] ∧
      HoldsEvery noteTable.columns [.int 1, .text "done"]
        [("id", .int 1), ("n", .text "done")] := by
  have haccepted : accepts Policy.shipped namedNote.toList = true :=
    accepts_of_isQuietQuery (by decide +kernel)
  have hrows : (execute (answering noteTable none) namedNote (.int 10000) []).1 =
      .ok [[("id", .int 1), ("n", .text "done")]] := rfl
  obtain ⟨_, blocks, hblocks, hall⟩ := rows_of_accepted_statement haccepted
  obtain ⟨_, sections, hread, hitems⟩ :=
    exists_block namedNote.toList namedNoteItems (by decide +kernel)
  rw [hblocks] at hread
  cases hread
  obtain ⟨_, hkept⟩ := hall sections List.mem_cons_self
    (ne_star_of_selectItems hitems (by decide))
  rw [hitems] at hkept
  have hrun := hkept (answering noteTable none) (.int 10000) [] _ isLabel_namedNote
    (List.forall_mem_singleton.mpr rfl) hrows
  cases hrun with
  | cons hrow _ => exact ⟨haccepted, hrows, hrow.2.mpr (by decide)⟩

/-- A statement that selects a column of each of two joined tables, with one label. -/
def bothIds : String :=
  "SELECT d.id, t.id FROM daily_check d JOIN template t ON d.qid = t.id " ++
    "WHERE d.restaurant_id = 74 LIMIT 10"

/-- Its items. -/
def bothIdsItems : List (List Token) :=
  [[.word ['d'], .dot, .word ['i', 'd']], [.word ['t'], .dot, .word ['i', 'd']]]

/-- The number of the check is lost: the statement is accepted, its items are both labelled `id`,
and of a row with the numbers 1 and 2 only the last is handed on. -/
theorem first_id_lost :
    accepts Policy.shipped bothIds.toList = true ∧
      (∃ ts sections, Scope.blocksOf bothIds.toList = .ok (ts, [sections]) ∧
        List.Forall₂ IsLabel (selectItems sections) ["id", "id"]) ∧
      (execute (answering ⟨["id", "id"], [[.int 1, .int 2]]⟩ none) bothIds (.int 10000) []).1 =
        .ok [[("id", .int 2)]] ∧
      ¬ HoldsEvery ["id", "id"] [.int 1, .int 2] [("id", .int 2)] := by
  refine ⟨accepts_of_isQuietQuery (by decide +kernel), ?_, rfl, ?_⟩
  · obtain ⟨ts, sections, hread, hitems⟩ :=
      exists_block bothIds.toList bothIdsItems (by decide +kernel)
    refine ⟨ts, sections, hread, ?_⟩
    rw [hitems]
    exact .cons (.qualifiedColumn rfl) (.cons (.qualifiedColumn rfl) .nil)
  · intro h
    exact absurd h.labelled (by decide)

end Database
end QueryGate
