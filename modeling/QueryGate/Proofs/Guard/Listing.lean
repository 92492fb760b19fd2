import QueryGate.Proofs.Guard.SameBlocks
import QueryGate.Proofs.Text.Case

/-!
# The tables that the guard reads

The guard reads the tables of a block just as they are listed: no table is left out or added, and
every condition of a join is the equality that is written.
-/

namespace QueryGate

namespace Sql

open Guard

/-- A table as the guard reads it. -/
def Entry.ref (e : Entry) : TableRef := ⟨e.tableName, e.naming.alias?⟩

/-- A joined table as the guard reads it. -/
def Joined.join (j : Joined) : Join := ⟨j.entry.ref, j.condition.tokens⟩

/-- The tables of a block as the guard reads them. -/
def Listing.source (l : Listing) : Source := ⟨l.first.ref, l.joins.map Joined.join⟩

end Sql

namespace Guard

open Sql

variable {seen : List TableRef}

theorem withRef_eq_ok {ref got : TableRef} {rest left : List Token}
    (h : withRef seen ref rest = .ok (got, left)) : got = ref ∧ left = rest := by
  unfold withRef at h
  split at h
  · cases h
  · split at h
    · cases h
      exact ⟨rfl, rfl⟩
    · split at h
      · cases h
      · cases h
        exact ⟨rfl, rfl⟩

/-- Whether a table can be added does not depend on what follows it. -/
theorem withRef_eq (ref : TableRef) (rest : List Token) :
    withRef seen ref rest =
      match withRef seen ref [] with
      | .error e => .error e
      | .ok _ => .ok (ref, rest) := by
  unfold withRef
  split
  · rfl
  · split
    · rfl
    · split <;> rfl

/-- Whether tokens cannot belong to the table in front of them. -/
def endsTable (rest : List Token) : Prop :=
  ∀ t r, rest = t :: r → t.isReserved = true ∧ t.isKeyword .as_ = false

theorem endsTable_word {k : Keyword} (w : Word k) (r : List Token) (hk : k.reserved = true)
    (has : k ≠ .as_) : endsTable (w.1 :: r) := by
  have hkey := keyword?_of_isKeyword w.2
  rintro t r ⟨⟩
  simp [Token.isReserved, Token.isKeyword, hkey, hk, has]

theorem not_isKeyword_of_plain (n : PlainName) {k : Keyword} (hk : k.reserved = true) :
    n.1.isKeyword k = false := by
  rw [Bool.eq_false_iff]
  intro hkey
  have hn := n.2
  simp [Token.isPlainIdentifier, Token.isReserved, keyword?_of_isKeyword hkey, hk] at hn

theorem aliasFrom_naming (table : String) (n : Naming) {rest : List Token} (h : endsTable rest) :
    aliasFrom seen table (n.tokens ++ rest) = withRef seen ⟨table, n.alias?⟩ rest := by
  cases n with
  | own =>
    cases rest with
    | nil => rfl
    | cons t r =>
      obtain ⟨hreserved, has⟩ := h t r rfl
      simp [Naming.tokens, Naming.alias?, aliasFrom, has, Token.isPlainIdentifier, hreserved]
  | plain n =>
    have has : n.1.isKeyword .as_ = false := not_isKeyword_of_plain n rfl
    simp [Naming.tokens, Naming.alias?, aliasFrom, has, n.2]
  | as_ w n => simp [Naming.tokens, Naming.alias?, aliasFrom, w.2, n.2]

theorem isIdentifier_of_plain (n : PlainName) : n.1.isIdentifier = true := by
  have h := n.2
  simp only [Token.isPlainIdentifier, Bool.and_eq_true] at h
  exact h.1

theorem head_ne_dot (n : Naming) {rest : List Token} (h : endsTable rest) (more : List Token) :
    n.tokens ++ rest ≠ .dot :: more := by
  intro hdot
  cases n with
  | own =>
    obtain ⟨hreserved, _⟩ := h .dot more hdot
    cases hreserved
  | plain n =>
    have hn := isIdentifier_of_plain n
    rw [(List.cons.inj hdot).1] at hn
    cases hn
  | as_ w n =>
    have hw := w.2
    rw [(List.cons.inj hdot).1] at hw
    cases hw

theorem tableRefFrom_entry (e : Entry) {rest : List Token} (h : endsTable rest) :
    tableRefFrom seen (e.tokens ++ rest) = withRef seen e.ref rest := by
  have hopen : e.table.1 ≠ .lparen := by
    intro hopen
    have hid := isIdentifier_of_plain e.table
    rw [hopen] at hid
    cases hid
  show tableRefFrom seen (e.table.1 :: (e.naming.tokens ++ rest)) = _
  rw [tableRefFrom, if_neg hopen, if_pos e.table.2]
  · exact aliasFrom_naming _ e.naming h
  · exact fun more hdot => head_ne_dot e.naming h more hdot

theorem not_isKeyword_of_isKeyword {t : Token} {k l : Keyword} (h : t.isKeyword k = true)
    (hne : k ≠ l) : t.isKeyword l = false := by
  simp [Token.isKeyword, keyword?_of_isKeyword h, hne]

/-- The words of a join are read up to its table. -/
theorem joinWords_tokens (w : JoinWords) (rest : List Token) :
    ∃ t r, w.tokens ++ rest = t :: r ∧ joinWords t r = .ok rest ∧ startsJoin t = true := by
  have comma {k : Keyword} (w : Word k) : w.1 ≠ .comma := by
    rintro hw
    have hk := w.2
    rw [hw] at hk
    cases hk
  have sided (w : Token) (hw : w ≠ .comma) (hinner : w.isKeyword .inner = false)
      (hside : w.isOneOf [.left, .right] = true) (o : Option (Word .outer)) (j : Word .join) :
      joinWords w (o.toList.map (·.1) ++ [j.1] ++ rest) = .ok rest := by
    have houter := not_isKeyword_of_isKeyword j.2 (l := .outer) (by decide)
    cases o with
    | none => simp [joinWords, hw, hinner, hside, houter, j.2]
    | some o => simp [joinWords, hw, hinner, hside, o.2, j.2]
  cases w with
  | plain j =>
    have hinner := not_isKeyword_of_isKeyword j.2 (l := .inner) (by decide)
    have hleft := not_isKeyword_of_isKeyword j.2 (l := .left) (by decide)
    have hright := not_isKeyword_of_isKeyword j.2 (l := .right) (by decide)
    refine ⟨j.1, rest, rfl, ?_, ?_⟩
    · simp [joinWords, comma j, hinner, hleft, hright, Token.isOneOf, j.2]
    · simp [startsJoin, Token.isOneOf, j.2]
  | inner w j =>
    refine ⟨w.1, j.1 :: rest, rfl, ?_, ?_⟩
    · simp [joinWords, comma w, w.2, j.2]
    · simp [startsJoin, Token.isOneOf, w.2]
  | left w o j =>
    have hinner := not_isKeyword_of_isKeyword w.2 (l := .inner) (by decide)
    exact ⟨w.1, _, rfl, sided w.1 (comma w) hinner (by simp [Token.isOneOf, w.2]) o j,
      by simp [startsJoin, Token.isOneOf, w.2]⟩
  | right w o j =>
    have hinner := not_isKeyword_of_isKeyword w.2 (l := .inner) (by decide)
    exact ⟨w.1, _, rfl, sided w.1 (comma w) hinner (by simp [Token.isOneOf, w.2]) o j,
      by simp [startsJoin, Token.isOneOf, w.2]⟩

theorem startsJoin_of_joins {js : List Joined} {t : Token} {r : List Token}
    (h : js.flatMap Joined.tokens = t :: r) : startsJoin t = true := by
  cases js with
  | nil => cases h
  | cons j js =>
    obtain ⟨t', r', heq, _, hstarts⟩ :=
      joinWords_tokens j.words (j.entry.tokens ++ j.on_.1 :: j.condition.tokens ++
        js.flatMap Joined.tokens)
    rw [List.flatMap_cons, Joined.tokens, List.append_assoc, heq] at h
    rw [← (List.cons.inj h).1]
    exact hstarts

/-- The condition of a join ends where the next join starts. -/
theorem takeWhile_condition (e : Equality) (js : List Joined) :
    (e.tokens ++ js.flatMap Joined.tokens).takeWhile (fun t => !startsJoin t) = e.tokens ∧
      (e.tokens ++ js.flatMap Joined.tokens).dropWhile (fun t => !startsJoin t) =
        js.flatMap Joined.tokens := by
  have hall : ∀ t ∈ e.tokens, (!startsJoin t) = true := by
    have name (n : InnerName) : startsJoin n.1 = false := n.2.2
    intro t ht
    simp only [Equality.tokens, List.mem_cons, List.not_mem_nil, or_false] at ht
    rcases ht with rfl | rfl | rfl | rfl | rfl | rfl | rfl <;>
      first | rw [name]; rfl | rfl
  rw [List.takeWhile_append_of_pos hall, List.dropWhile_append_of_pos hall]
  cases hjs : js.flatMap Joined.tokens with
  | nil => exact ⟨by simp, rfl⟩
  | cons t r =>
    have ht := startsJoin_of_joins hjs
    exact ⟨by simp [ht], by simp [ht]⟩

theorem comma_not_mem_condition (e : Equality) : e.tokens.contains .comma = false := by
  have name (n : InnerName) : n.1 ≠ .comma := by
    rintro hcomma
    have hid := n.2.1
    rw [hcomma] at hid
    cases hid
  rw [Bool.eq_false_iff, ne_eq, List.contains_iff_mem]
  intro hmem
  simp only [Equality.tokens, List.mem_cons, List.not_mem_nil, or_false] at hmem
  rcases hmem with h | h | h | h | h | h | h
  · exact name e.leftTable h.symm
  · cases h
  · exact name e.leftColumn h.symm
  · cases h
  · exact name e.rightTable h.symm
  · cases h
  · exact name e.rightColumn h.symm

/-- A joined table is read, then those behind it. -/
theorem joinsFrom_joined (j : Joined) (js : List Joined) :
    joinsFrom seen ((j :: js).flatMap Joined.tokens) =
      match withRef seen j.entry.ref [] with
      | .error e => .error e
      | .ok _ =>
        match joinsFrom (seen ++ [j.entry.ref]) (js.flatMap Joined.tokens) with
        | .error e => .error e
        | .ok more => .ok (j.join :: more) := by
  have htokens : (j :: js).flatMap Joined.tokens = j.words.tokens ++ (j.entry.tokens ++ j.on_.1 ::
      (j.condition.tokens ++ js.flatMap Joined.tokens)) := by
    simp [Joined.tokens]
  obtain ⟨t, r, heq, hwords, _⟩ := joinWords_tokens j.words (j.entry.tokens ++ j.on_.1 ::
      (j.condition.tokens ++ js.flatMap Joined.tokens))
  have hends := endsTable_word j.on_ (j.condition.tokens ++ js.flatMap Joined.tokens) rfl (by decide)
  obtain ⟨htake, hdrop⟩ := takeWhile_condition j.condition js
  rw [htokens, heq, joinsFrom_cons, hwords]
  dsimp only
  rw [tableRefFrom_entry j.entry hends, withRef_eq]
  cases withRef seen j.entry.ref [] with
  | error e => rfl
  | ok read =>
    dsimp only
    rw [if_pos j.on_.2, htake, hdrop, comma_not_mem_condition, if_neg (by simp)]
    rfl

/-- The guard reads the joined tables just as they are listed. -/
theorem joinsFrom_joins {js : List Joined} {found : List Join}
    (h : joinsFrom seen (js.flatMap Joined.tokens) = .ok found) : found = js.map Joined.join := by
  induction js generalizing seen found with
  | nil =>
    rw [List.flatMap_nil, joinsFrom] at h
    cases h
    rfl
  | cons j js ih =>
    rw [joinsFrom_joined] at h
    split at h
    · cases h
    · split at h
      · cases h
      · rename_i more hmore
        cases h
        rw [ih hmore]
        rfl

/-- A table ends where a joined one starts. -/
theorem endsTable_joins (js : List Joined) : endsTable (js.flatMap Joined.tokens) := by
  intro t r htr
  have hstarts := startsJoin_of_joins htr
  simp only [startsJoin, Token.isOneOf, List.any_cons, List.any_nil, Bool.or_false,
    Bool.or_eq_true] at hstarts
  have hreserved {k : Keyword} (h : t.isKeyword k = true) (hk : k.reserved = true)
      (has : k ≠ .as_) : t.isReserved = true ∧ t.isKeyword .as_ = false := by
    simpa using endsTable_word ⟨t, h⟩ r hk has t r rfl
  rcases hstarts with h | h | h | h <;> exact hreserved h rfl (by decide)

/-- The guard reads the tables of a block just as they are listed. -/
theorem sourceOf_listing {l : Listing} {s : Source} (h : sourceOf l.tokens = .ok s) :
    s = l.source := by
  obtain ⟨first, rest, joins, hfirst, hjoins, rfl⟩ := sourceOf_eq_ok h
  rw [Listing.tokens, tableRefFrom_entry l.first (endsTable_joins l.joins)] at hfirst
  obtain ⟨rfl, rfl⟩ := withRef_eq_ok hfirst
  rw [joinsFrom_joins hjoins]
  rfl

end Guard

/-! ### Collapsed tokens -/

namespace Sql

@[simp] theorem isKeyword_collapsed (t : Token) (k : Keyword) :
    t.collapsed.isKeyword k = t.isKeyword k := isKeyword_map keeps_collapsed t k

@[simp] theorem isOneOf_collapsed (t : Token) (ks : List Keyword) :
    t.collapsed.isOneOf ks = t.isOneOf ks := isOneOf_map keeps_collapsed t ks

@[simp] theorem isIdentifier_collapsed (t : Token) :
    t.collapsed.isIdentifier = t.isIdentifier := by
  cases t <;> rfl

@[simp] theorem isPlainIdentifier_collapsed (t : Token) :
    t.collapsed.isPlainIdentifier = t.isPlainIdentifier := by
  cases t <;> rfl

theorem collapsed_word {k : Keyword} (w : Word k) : w.1.collapsed = w.1 := by
  obtain ⟨t, ht⟩ := w
  cases t with
  | word letters => rfl
  | _ => cases ht

/-- A name without blanks in the collapsed text is the name itself. -/
theorem name_collapsed {t : Token} (hid : t.isIdentifier = true)
    (h : ' ' ∉ t.collapsed.name.toList) : t.collapsed.name = t.name := by
  cases t with
  | quotedName name =>
    have hlower : ' ' ∉ Text.lower (Text.collapse name) := by
      simpa [Token.collapsed, Token.name, Token.inner] using h
    have hsame := Text.collapse_of_not_mem fun hmem => hlower (Text.mem_lower_of_isBlank (by decide) hmem)
    rw [Token.collapsed, hsame]
  | word letters => rfl
  | _ => cases hid

/-- A naming as it stands in the collapsed text. -/
def Naming.collapsed : Naming → Naming
  | own => own
  | plain n => plain ⟨n.1.collapsed, by simpa using n.2⟩
  | as_ w n => as_ w ⟨n.1.collapsed, by simpa using n.2⟩

/-- A table as it stands in the collapsed text. -/
def Entry.collapsed (e : Entry) : Entry :=
  ⟨⟨e.table.1.collapsed, by simpa using e.table.2⟩, e.naming.collapsed⟩

theorem tokens_collapsed_entry (e : Entry) : e.collapsed.tokens = e.tokens.map Token.collapsed := by
  obtain ⟨table, naming⟩ := e
  cases naming <;> simp [Entry.tokens, Entry.collapsed, Naming.tokens, Naming.collapsed,
    collapsed_word]

/-- A name as it stands in the collapsed text. -/
def collapsedName (n : InnerName) : InnerName :=
  ⟨n.1.collapsed, by simpa using n.2.1, by simpa [announcesJoin] using n.2.2⟩

/-- An equality as it stands in the collapsed text. -/
def Equality.collapsed (e : Equality) : Equality :=
  ⟨collapsedName e.leftTable, collapsedName e.leftColumn, collapsedName e.rightTable,
    collapsedName e.rightColumn⟩

/-- A joined table as it stands in the collapsed text. -/
def Joined.collapsed (j : Joined) : Joined :=
  ⟨j.words, j.entry.collapsed, j.on_, j.condition.collapsed⟩

theorem tokens_collapsed_joined (j : Joined) :
    j.collapsed.tokens = j.tokens.map Token.collapsed := by
  have hwords : j.words.tokens.map Token.collapsed = j.words.tokens := by
    cases j.words with
    | plain j => simp [JoinWords.tokens, collapsed_word]
    | inner w j => simp [JoinWords.tokens, collapsed_word]
    | left w o j => cases o <;> simp [JoinWords.tokens, collapsed_word]
    | right w o j => cases o <;> simp [JoinWords.tokens, collapsed_word]
  simp only [Joined.tokens, Joined.collapsed, List.map_append, List.map_cons, hwords,
    tokens_collapsed_entry, collapsed_word]
  rfl

/-- A listing as it stands in the collapsed text. -/
def Listing.collapsed (l : Listing) : Listing := ⟨l.first.collapsed, l.joins.map Joined.collapsed⟩

theorem tokens_collapsed (l : Listing) : l.collapsed.tokens = l.tokens.map Token.collapsed := by
  simp only [Listing.tokens, Listing.collapsed, List.map_append, tokens_collapsed_entry,
    List.flatMap_map, List.map_flatMap, tokens_collapsed_joined]

end Sql

namespace Guard

open Sql

variable {seen : List TableRef} {a : AllowList} {q : Query}

theorem isNamed_of_tableNamed? {refs : List TableRef} {n table : String}
    (h : tableNamed? refs n = some table) : ∃ r ∈ refs, r.isNamed n = true ∧ r.table = table := by
  obtain ⟨r, hr, rfl⟩ := Option.map_eq_some_iff.mp h
  have hnamed := List.find?_some hr
  exact ⟨r, List.mem_of_find?_eq_some hr, hnamed, rfl⟩

/-- An allowed condition of a join is an equality between columns of tables of the block. -/
theorem checkJoin_eq_ok {join : Join} (h : checkJoin a q join = .ok ()) :
    ∃ leftName leftColumn rightName rightColumn : Name, ∃ leftTable rightTable,
      join.on_ = [leftName.1, .dot, leftColumn.1, .operator .eq, rightName.1, .dot,
        rightColumn.1] ∧
      q.tableNamed? leftName.1.name = some leftTable ∧
      q.tableNamed? rightName.1.name = some rightTable ∧
      (a.findJoin leftTable leftColumn.1.name rightTable rightColumn.1.name).isSome = true := by
  unfold checkJoin at h
  split at h
  · rename_i leftName leftColumn rightName rightColumn hon
    split at h
    · rename_i hnames
      simp only [List.all_cons, List.all_nil, Bool.and_true, Bool.and_eq_true] at hnames
      split at h
      · rename_i leftTable rightTable hleft hright
        split at h
        · rename_i hshape
          exact ⟨⟨_, hnames.1⟩, ⟨_, hnames.2.1⟩, ⟨_, hnames.2.2.1⟩, ⟨_, hnames.2.2.2⟩, leftTable,
            rightTable, hon, hleft, hright, hshape⟩
        · cases h
      · cases h
    · cases h
  · cases h

/-! ### Every accepted list of tables is a listing -/

/-- A change of tokens that shows neither in the nesting and the keywords nor in what tables and
the conditions of joins consist of. -/
structure KeepsNames (f : Token → Token) : Prop extends Keeps f where
  identifier : ∀ t, (f t).isIdentifier = t.isIdentifier
  dot : ∀ t, f t = .dot → t = .dot
  equals : ∀ t, f t = .operator .eq → t = .operator .eq

theorem KeepsNames.isPlainIdentifier {f : Token → Token} (hf : KeepsNames f) (t : Token) :
    (f t).isPlainIdentifier = t.isPlainIdentifier := by
  simp only [Token.isPlainIdentifier, Token.isReserved, hf.identifier, hf.keyword]

theorem keepsNames_id : KeepsNames id where
  keyword _ := rfl
  opens _ := Iff.rfl
  closes _ := Iff.rfl
  identifier _ := rfl
  dot _ h := h
  equals _ h := h

theorem keepsNames_collapsed : KeepsNames Token.collapsed where
  toKeeps := keeps_collapsed
  identifier := isIdentifier_collapsed
  dot t h := by cases t <;> first | rfl | cases h
  equals t h := by
    cases t with
    | operator op => exact h
    | _ => cases h

section Listed

variable {f : Token → Token} (hf : KeepsNames f)
include hf

theorem naming_of_aliasFrom {table : String} {ts left : List Token} {ref : TableRef}
    (h : aliasFrom seen table (ts.map f) = .ok (ref, left)) :
    ∃ (n : Naming) (rest : List Token), ts = n.tokens ++ rest ∧
      left = rest.map f := by
  cases ts with
  | nil => exact ⟨.own, [], rfl, (withRef_eq_ok h).2⟩
  | cons t r =>
    simp only [List.map_cons, aliasFrom, isKeyword_map hf.toKeeps, hf.isPlainIdentifier] at h
    split at h
    · rename_i has
      cases r with
      | nil => cases h
      | cons n rest =>
        simp only [List.map_cons, hf.identifier] at h
        split at h
        · rename_i hn
          exact ⟨.as_ ⟨t, has⟩ ⟨n, hn⟩, rest, rfl, (withRef_eq_ok h).2⟩
        · cases h
    · split at h
      · rename_i hplain
        exact ⟨.plain ⟨t, hplain⟩, r, rfl, (withRef_eq_ok h).2⟩
      · exact ⟨.own, t :: r, rfl, (withRef_eq_ok h).2⟩

theorem entry_of_tableRefFrom {ts left : List Token} {ref : TableRef}
    (h : tableRefFrom seen (ts.map f) = .ok (ref, left)) :
    ∃ (e : Entry) (rest : List Token), ts = e.tokens ++ rest ∧
      left = rest.map f := by
  cases ts with
  | nil => cases h
  | cons t r =>
    simp only [List.map_cons, tableRefFrom, hf.isPlainIdentifier] at h
    split at h
    · cases h
    · split at h
      · rename_i hplain
        split at h
        · cases h
        · obtain ⟨n, rest, rfl, hleft⟩ := naming_of_aliasFrom hf h
          exact ⟨⟨⟨t, hplain⟩, n⟩, rest, rfl, hleft⟩
      · cases h

/-- Tokens that are read on behind the word `JOIN` start with it. -/
theorem joinWord_of_readOn (t : Token) (rest : List Token) {left : List Token}
    (h : (match rest.map f with
      | [] => Except.error (Rejection.unsupportedFrom (f t))
      | j :: more =>
        if j.isKeyword .join then .ok more else .error (Rejection.unsupportedFrom j)) =
      .ok left) :
    ∃ (j : Word .join) (more : List Token), rest = j.1 :: more ∧
      left = more.map f := by
  cases rest with
  | nil => cases h
  | cons j more =>
    simp only [List.map_cons, isKeyword_map hf.toKeeps] at h
    split at h
    · rename_i hj
      cases h
      exact ⟨⟨j, hj⟩, more, rfl, rfl⟩
    · cases h

theorem words_of_joinWords {t : Token} {r left : List Token}
    (h : joinWords (f t) (r.map f) = .ok left) :
    ∃ (w : JoinWords) (rest : List Token), t :: r = w.tokens ++ rest ∧
      left = rest.map f := by
  unfold joinWords at h
  split at h
  · cases h
  simp only [isKeyword_map hf.toKeeps, isOneOf_map hf.toKeeps] at h
  by_cases hinner : t.isKeyword .inner = true
  · rw [if_pos hinner] at h
    obtain ⟨j, more, rfl, rfl⟩ := joinWord_of_readOn hf t _ h
    exact ⟨.inner ⟨t, hinner⟩ j, more, rfl, rfl⟩
  rw [if_neg hinner] at h
  by_cases hside : t.isOneOf [.left, .right] = true
  · rw [if_pos hside] at h
    have sided (o : Option (Word .outer)) (j : Word .join) : ∃ w : JoinWords,
        w.tokens = t :: (o.toList.map (·.1) ++ [j.1]) := by
      simp only [Token.isOneOf, List.any_cons, List.any_nil, Bool.or_false, Bool.or_eq_true] at hside
      rcases hside with hleft | hright
      · exact ⟨.left ⟨t, hleft⟩ o j, rfl⟩
      · exact ⟨.right ⟨t, hright⟩ o j, rfl⟩
    cases r with
    | nil => cases h
    | cons o r =>
      simp only [List.map_cons, isKeyword_map hf.toKeeps] at h
      by_cases houter : o.isKeyword .outer = true
      · rw [if_pos houter] at h
        obtain ⟨j, more, rfl, rfl⟩ := joinWord_of_readOn hf t _ h
        obtain ⟨w, hw⟩ := sided (some ⟨o, houter⟩) j
        exact ⟨w, more, by rw [hw]; rfl, rfl⟩
      · rw [if_neg houter] at h
        obtain ⟨j, more, hr, rfl⟩ := joinWord_of_readOn hf t (o :: r) h
        obtain ⟨w, hw⟩ := sided none j
        exact ⟨w, more, by rw [hw, hr]; rfl, rfl⟩
  · rw [if_neg hside] at h
    obtain ⟨j, more, hr, rfl⟩ := joinWord_of_readOn hf t (t :: r) h
    exact ⟨.plain j, more, hr, rfl⟩

/-- Tokens that are changed to those of an equality are those of an equality. -/
theorem equality_of_map {ts : List Token} (hnames : ∀ t ∈ ts, startsJoin t = false)
    {leftName leftColumn rightName rightColumn : Name}
    (h : ts.map f = [leftName.1, .dot, leftColumn.1, .operator .eq, rightName.1, .dot,
      rightColumn.1]) : ∃ e : Equality, ts = e.tokens := by
  have name {t : Token} {n : Name} (ht : t ∈ ts) (h : f t = n.1) :
      t.isIdentifier = true ∧ announcesJoin t = false := by
    refine ⟨?_, hnames t ht⟩
    rw [← hf.identifier, h]
    exact n.2
  obtain ⟨l, ts, rfl, hl, h⟩ := List.map_eq_cons_iff.mp h
  obtain ⟨d, ts, rfl, hd, h⟩ := List.map_eq_cons_iff.mp h
  obtain ⟨lc, ts, rfl, hlc, h⟩ := List.map_eq_cons_iff.mp h
  obtain ⟨o, ts, rfl, ho, h⟩ := List.map_eq_cons_iff.mp h
  obtain ⟨r, ts, rfl, hr, h⟩ := List.map_eq_cons_iff.mp h
  obtain ⟨d', ts, rfl, hd', h⟩ := List.map_eq_cons_iff.mp h
  obtain ⟨rc, ts, rfl, hrc, h⟩ := List.map_eq_cons_iff.mp h
  obtain rfl := List.map_eq_nil_iff.mp h
  obtain rfl := hf.dot d hd
  obtain rfl := hf.equals o ho
  obtain rfl := hf.dot d' hd'
  exact ⟨⟨⟨l, name (by simp) hl⟩, ⟨lc, name (by simp) hlc⟩, ⟨r, name (by simp) hr⟩,
    ⟨rc, name (by simp) hrc⟩⟩, rfl⟩

theorem joins_of_joinsFrom {ts : List Token} {joins : List Join}
    (h : joinsFrom seen (ts.map f) = .ok joins)
    (hjoins : ∀ join ∈ joins, checkJoin a q join = .ok ()) :
    ∃ js : List Joined, ts = js.flatMap Joined.tokens := by
  generalize hus : ts.map f = us at h
  fun_induction joinsFrom seen us generalizing ts joins with
  | case1 => exact ⟨[], List.map_eq_nil_iff.mp hus⟩
  | case7 seen t r named hwords ref o behind hread hon on_ hcomma more hmore =>
    rename_i ih
    cases h
    obtain ⟨first, others, rfl, rfl, rfl⟩ := List.map_eq_cons_iff.mp hus
    obtain ⟨w, rest, htokens, rfl⟩ := words_of_joinWords hf hwords
    obtain ⟨e, left, rfl, hleft⟩ := entry_of_tableRefFrom hf hread
    obtain ⟨o, condition, rfl, rfl, rfl⟩ := List.map_eq_cons_iff.mp hleft.symm
    have hstarts : (fun t => !startsJoin t) ∘ f = fun t => !startsJoin t :=
      funext fun t => by simp [startsJoin, isOneOf_map hf.toKeeps]
    obtain ⟨js, hjs⟩ := ih (fun join hjoin => hjoins join (List.mem_cons_of_mem _ hjoin))
      (by rw [List.dropWhile_map, hstarts]) hmore
    obtain ⟨_, _, _, _, _, _, heq, _⟩ := checkJoin_eq_ok (hjoins _ List.mem_cons_self)
    have hmapped : (condition.takeWhile fun t => !startsJoin t).map f = on_ := by
      simp only [on_, List.takeWhile_map, hstarts]
    obtain ⟨e', hcondition⟩ := equality_of_map hf (fun t ht => by
      simpa using List.all_eq_true.mp List.all_takeWhile t ht) (hmapped.trans heq)
    refine ⟨⟨w, e, ⟨o, by rwa [isKeyword_map hf.toKeeps] at hon⟩, e'⟩ :: js, ?_⟩
    have hsplit := List.takeWhile_append_dropWhile (p := fun t => !startsJoin t) (l := condition)
    rw [hcondition, hjs] at hsplit
    rw [htokens, List.flatMap_cons, Joined.tokens, ← hsplit]
    simp
  | _ => cases h

/-- Tables that the guard has read without a fault are a listing. -/
theorem listing_of_sourceOf {ts : List Token} {source : Source}
    (h : sourceOf (ts.map f) = .ok source)
    (hjoins : ∀ join ∈ source.joins, checkJoin a q join = .ok ()) :
    ∃ l : Listing, ts = l.tokens := by
  obtain ⟨first, left, joins, hfirst, hread, rfl⟩ := sourceOf_eq_ok h
  obtain ⟨e, rest, rfl, rfl⟩ := entry_of_tableRefFrom hf hfirst
  obtain ⟨js, rfl⟩ := joins_of_joinsFrom hf hread hjoins
  exact ⟨⟨e, js⟩, rfl⟩

end Listed

theorem refs_collapsed (l : Listing) :
    l.collapsed.source.refs = l.entries.map fun e => e.collapsed.ref := by
  simp [Source.refs, Listing.source, Listing.collapsed, Listing.entries, Joined.join,
    Joined.collapsed]

section Accepted

variable {sql : List Char} (haccepted : accepts a sql = true) {ts : List Token}
  {blocks : List (List Section)} (hblocks : Scope.blocksOf sql = .ok (ts, blocks))
  {sections : List Section} (hsections : sections ∈ blocks)
include haccepted hblocks hsections

/-- The tables of every block of an accepted statement are a listing. -/
theorem exists_listing : ∃ l : Listing, body .from_ sections = l.tokens := by
  obtain ⟨q, source, _, hread, _, hjoins⟩ := source_of_accepts haccepted hblocks hsections
  exact listing_of_sourceOf keepsNames_collapsed hread hjoins

/-- The guard has read the listing in the collapsed text: the tables are allowed, and so are the
conditions of the joins. -/
theorem read_of_accepts {l : Listing} (hfrom : body .from_ sections = l.tokens) :
    ∃ q : Query, q.refs = l.entries.map (fun e => e.collapsed.ref) ∧
      sourceOf l.collapsed.tokens = .ok l.collapsed.source ∧
      (∀ e ∈ l.entries, a.hasTable e.collapsed.tableName = true) ∧
      ∀ j ∈ l.joins, checkJoin a q j.collapsed.join = .ok () := by
  obtain ⟨q, source, hq, hread, hallowed, hjoins⟩ :=
    source_of_accepts haccepted hblocks hsections
  rw [hfrom, ← tokens_collapsed] at hread
  obtain rfl := sourceOf_listing hread
  rw [refs_collapsed] at hallowed
  refine ⟨q, ?_, hread, ?_, ?_⟩
  · rw [← refs_collapsed]
    simp [Query.refs, hq]
  · intro e he
    exact hallowed e.collapsed.ref (List.mem_map_of_mem he)
  · intro j hj
    exact hjoins _ (List.mem_map_of_mem (List.mem_map_of_mem hj))

end Accepted

end Guard
end QueryGate
