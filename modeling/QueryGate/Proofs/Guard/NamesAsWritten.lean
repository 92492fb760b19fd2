import Mathlib.Data.Bool.AllAny
import QueryGate.Proofs.Database.Labels
import QueryGate.Proofs.Scope.OneTenant

/-!
# Names as they are written

The guard looks tables and columns up by their lowered names, the database reads the names as they
are written.  The names of the shipped allow-list are ASCII, so what is written differs from what
was looked up in the case of ASCII letters only, but for one character: the sign for kelvin lowers
to an ASCII letter as well.
-/

namespace QueryGate

namespace Text

/-- The sign for kelvin, which is not the letter. -/
def kelvin : Char := '\u212a'

/-- The ASCII character that a character is matched with. -/
def matched (c : Char) : Char := if c = kelvin then 'k' else c.toLower

/-- Whether a character is one of the first 128 and not the very first. -/
def IsAscii (c : Char) : Prop := c.toNat ≠ 0 ∧ c.toNat < 128

instance (c : Char) : Decidable (IsAscii c) := inferInstanceAs (Decidable (_ ∧ _))

theorem matched_of_isAscii_lowerChar {c : Char} (h : IsAscii (lowerChar c)) :
    matched c = lowerChar c := by
  by_cases hc : c.toNat < 128
  · have hne : c ≠ kelvin := by
      rintro rfl
      revert hc
      decide
    rw [matched, if_neg hne, lowerChar, if_pos hc]
  · have hkelvin : c = kelvin := Char.toNat_inj.mp (toNat_eq_kelvin (by omega) h.1 h.2)
    rw [hkelvin]
    decide +kernel

/-- A text that lowers to ASCII is matched with what it lowers to, character by character. -/
theorem map_matched_of_lowerFrom {before cs listed : List Char} (h : lowerFrom before cs = listed)
    (hascii : ∀ c ∈ listed, IsAscii c) : cs.map matched = listed := by
  subst h
  induction cs generalizing before with
  | nil => rfl
  | cons c cs ih =>
    rw [lowerFrom] at hascii ⊢
    split at hascii
    · obtain ⟨hsigma, _⟩ := List.forall_mem_cons.mp hascii
      have hno : ∀ c ∈ ['\u03c2', '\u03c3'], ¬ IsAscii c :=
        List.all_iff_forall_prop.mp (by decide)
      refine absurd hsigma (hno _ ?_)
      unfold lowerSigma
      split <;> decide
    · rename_i hsigma
      rw [if_neg hsigma]
      split at hascii
      · obtain ⟨_, hrest⟩ := List.forall_mem_cons.mp hascii
        exact absurd (List.forall_mem_cons.mp hrest).1 (by decide)
      · rename_i hdotted
        rw [if_neg hdotted]
        obtain ⟨hc, hrest⟩ := List.forall_mem_cons.mp hascii
        rw [List.map_cons, matched_of_isAscii_lowerChar hc, ih hrest]

/-- What is written stands for a listed name: character by character it is matched with the name,
and the two differ in the case of ASCII letters only, unless a sign for kelvin is written. -/
structure StandsFor (written : List Char) (listed : String) : Prop where
  matched : written.map matched = listed.toList
  sameLetters_iff : written.map Char.toLower = listed.toList ↔ kelvin ∉ written

theorem standsFor_of_lower {written : List Char} {listed : String}
    (h : lower written = listed.toList) (hascii : ∀ c ∈ listed.toList, IsAscii c) :
    StandsFor written listed := by
  have hmatched : written.map Text.matched = listed.toList := map_matched_of_lowerFrom h hascii
  refine ⟨hmatched, ?_⟩
  constructor
  · intro hlower hmem
    have hkelvin : kelvin.toLower ∈ listed.toList := by
      rw [← hlower]
      exact List.mem_map_of_mem hmem
    exact absurd (hascii _ hkelvin) (by decide)
  · intro hmem
    rw [← hmatched]
    apply List.map_congr_left
    intro c hc
    have hne : c ≠ kelvin := by
      rintro rfl
      exact hmem hc
    rw [Text.matched, if_neg hne]

end Text

namespace Guard

open Sql Text
open Database (selectItems)

/-! ### Listed names -/

/-- Whether a name is written in ASCII without spaces. -/
def isPlainName (name : String) : Bool :=
  name.toList.all fun c => decide (IsAscii c ∧ c ≠ ' ')

theorem isPlainName_shipped : ∀ entry ∈ Policy.shippedTables,
    isPlainName entry.1 = true ∧ ∀ column ∈ entry.2, isPlainName column = true := by
  decide +kernel

theorem forall_of_isPlainName {name : String} (h : isPlainName name = true) :
    ∀ c ∈ name.toList, IsAscii c ∧ c ≠ ' ' :=
  List.all_iff_forall_prop.mp h

theorem isAscii_of_hasTable {table : String} (h : Policy.shipped.hasTable table = true) :
    ∀ c ∈ table.toList, IsAscii c ∧ c ≠ ' ' := by
  obtain ⟨columns, hmem⟩ := AllowList.exists_mem_of_hasTable h
  exact forall_of_isPlainName (isPlainName_shipped _ hmem).1

theorem isAscii_of_mem_columns {table column : String}
    (h : column ∈ Policy.shipped.columns table) : ∀ c ∈ column.toList, IsAscii c ∧ c ≠ ' ' := by
  unfold AllowList.columns at h
  cases hlookup : Policy.shipped.tables.lookup table with
  | none =>
    rw [hlookup] at h
    cases h
  | some columns =>
    rw [hlookup] at h
    obtain ⟨before, after, htables, _⟩ := List.lookup_eq_some_iff.mp hlookup
    have hmem : (table, columns) ∈ Policy.shippedTables := by
      rw [show Policy.shippedTables = before ++ (table, columns) :: after from htables]
      simp
    exact forall_of_isPlainName ((isPlainName_shipped _ hmem).2 column h)

/-- A token whose name in the collapsed text is listed stands for the listed name as it is. -/
theorem standsFor_of_collapsed {t : Token} (hid : t.isIdentifier = true) {listed : String}
    (hname : t.collapsed.name = listed) (hlisted : ∀ c ∈ listed.toList, IsAscii c ∧ c ≠ ' ') :
    StandsFor t.inner listed := by
  have hspace : ' ' ∉ t.collapsed.name.toList := by
    rw [hname]
    intro hmem
    exact (hlisted _ hmem).2 rfl
  rw [name_collapsed hid hspace] at hname
  apply standsFor_of_lower
  · rw [← hname, Token.name, String.toList_ofList]
  · intro c hc
    exact (hlisted c hc).1

/-! ### References to columns -/

/-- An identifier of an item reads a column: it calls nothing, qualifies nothing, is no word of the
item's own and not its name. -/
structure ReadsColumn (front : List Token) (t : Token) (back : List Token) : Prop where
  identifier : t.isIdentifier = true
  notFunction : ∀ rest, back ≠ .lparen :: rest
  notQualifier : ∀ rest, back ≠ .dot :: rest
  notDistinct : t.isKeyword .distinct = true → ∀ f, front ≠ [f, .lparen]
  notAs : t.isKeyword .as_ = true → ∀ n, back = [n] → ¬ namesItem (front ++ [t]) n
  notName : back = [] → ¬ namesItem front t

theorem eq_cons_of_map_collapsed {ts rest : List Token} {u : Token} (hu : u.isMark = true)
    (h : ts.map Token.collapsed = u :: rest) : ∃ more, ts = u :: more := by
  obtain ⟨t, more, rfl, ht, _⟩ := List.map_eq_cons_iff.mp h
  exact ⟨more, by rw [(collapsed_eq_iff hu).mp ht]⟩

variable {a : AllowList} {q : Query}

/-- What reads a column has been found to be one, in a table of the block. -/
theorem column_of_plays {front back : List Token} {t : Token} (ht : ReadsColumn front t back)
    (h : Plays a q (front.map Token.collapsed) t.collapsed (back.map Token.collapsed)) :
    ∃ table ∈ q.tables, t.collapsed.name ∈ a.columns table := by
  cases h with
  | itemName last names =>
    exact absurd (namesItem_of_collapsed names) (ht.notName (List.map_eq_nil_iff.mp last))
  | as_ n word last names =>
    obtain ⟨n, rfl, rfl⟩ := List.map_eq_singleton_iff.mp last
    rw [isKeyword_collapsed] at word
    apply absurd (namesItem_of_collapsed _) (ht.notAs word n rfl)
    simpa using names
  | function first rest calls =>
    obtain ⟨more, hback⟩ := eq_cons_of_map_collapsed rfl calls
    exact absurd hback (ht.notFunction more)
  | distinct f word inside =>
    obtain ⟨f, behind, rfl, _, hbehind⟩ := List.map_eq_cons_iff.mp inside
    obtain ⟨opens, rfl, hopens⟩ := List.map_eq_singleton_iff.mp hbehind
    obtain rfl := (collapsed_eq_iff rfl).mp hopens
    rw [isKeyword_collapsed] at word
    exact absurd rfl (ht.notDistinct word f)
  | qualifier rest qualifies table named =>
    obtain ⟨more, hback⟩ := eq_cons_of_map_collapsed rfl qualifies
    exact absurd hback (ht.notQualifier more)
  | qualifiedColumn before n qualified table named listed =>
    obtain ⟨r, hr, _, rfl⟩ := isNamed_of_tableNamed? named
    exact ⟨r.table, List.mem_map_of_mem hr, listed⟩
  | column bare table inBlock listed => exact ⟨table, inBlock, listed⟩

/-- The tables of a block are those that are listed in it. -/
theorem refs_of_readsAlike {sections : List Section} (h : Scope.ReadsAlike sections q) {l : Listing}
    (hfrom : body .from_ sections = l.tokens) :
    q.refs = l.entries.map fun e => e.collapsed.ref := by
  obtain ⟨source, hsource, hread, _⟩ := h.source
  rw [hfrom, ← tokens_collapsed] at hread
  rw [Query.refs, hsource, sourceOf_listing hread]
  exact refs_collapsed l

/-- Every identifier of an item plays its part in the collapsed text. -/
theorem plays_of_mem_selectItems {sections : List Section} (hq : IsAllowed a q)
    (hselect : q.select = (body .select sections).map Token.collapsed) {front back : List Token}
    {t : Token} (hitem : front ++ t :: back ∈ selectItems sections)
    (ht : t.isIdentifier = true) :
    Plays a q (front.map Token.collapsed) t.collapsed (back.map Token.collapsed) := by
  obtain ⟨_, hitems⟩ := Database.selectItems_collapsed hselect
  have hmem := List.mem_map_of_mem (f := (·.map Token.collapsed)) hitem
  rw [← hitems, List.map_append, List.map_cons] at hmem
  rcases hq.projection with hstar | hselectable
  · -- a star is no identifier
    rw [hstar] at hmem
    have hsingle := List.mem_singleton.mp hmem
    have hmark : t.collapsed ∈ [Token.star] := by
      rw [← hsingle]
      simp
    rw [(collapsed_eq_iff rfl).mp (List.mem_singleton.mp hmark)] at ht
    cases ht
  · exact plays_of_isSelectable (hselectable _ hmem) rfl (by rwa [isIdentifier_collapsed])

/-! ### The statement as a whole -/

/-- The names in an accepted statement.  Every table that it reads and every column that it selects
stands for a listed one: it is written in the same letters, up to the case of ASCII letters, unless
a sign for kelvin is written. -/
theorem names_of_accepted_statement {sql : List Char}
    (haccepted : accepts Policy.shipped sql = true) :
    ∃ ts blocks, Scope.blocksOf sql = .ok (ts, blocks) ∧
      ∀ sections ∈ blocks, ∃ l : Listing, body .from_ sections = l.tokens ∧
        (∀ e ∈ l.entries, ∃ table, Policy.shipped.hasTable table = true ∧
          StandsFor e.table.1.inner table) ∧
        ∀ front t back, front ++ t :: back ∈ selectItems sections → ReadsColumn front t back →
          ∃ e ∈ l.entries, ∃ table, StandsFor e.table.1.inner table ∧
            ∃ column ∈ Policy.shipped.columns table, StandsFor t.inner column := by
  obtain ⟨ts, parts, blocks, queries, hts, hparts, hsplit, _, halike, _, hallowed⟩ :=
    Scope.blocks_of_accepts haccepted
  have hblocks : Scope.blocksOf sql = .ok (ts, blocks) :=
    Scope.blocksOf_eq_ok_iff.mpr ⟨parts, hts, hparts, hsplit⟩
  refine ⟨ts, blocks, hblocks, ?_⟩
  intro sections hsections
  obtain ⟨l, hfrom⟩ := exists_listing haccepted hblocks hsections
  obtain ⟨q, hq, hread⟩ := exists_of_forall₂ halike hsections
  have hrefs := refs_of_readsAlike hread hfrom
  have htables : ∀ e ∈ l.entries, Policy.shipped.hasTable e.collapsed.tableName = true ∧
      StandsFor e.table.1.inner e.collapsed.tableName := by
    intro e he
    have hlisted : Policy.shipped.hasTable e.collapsed.tableName = true := by
      apply (hallowed q hq).tables
      rw [Query.tables, hrefs, List.map_map]
      exact List.mem_map_of_mem (f := fun e : Entry => e.collapsed.ref.table) he
    refine ⟨hlisted, ?_⟩
    exact standsFor_of_collapsed (isIdentifier_of_plain e.table) rfl (isAscii_of_hasTable hlisted)
  refine ⟨l, hfrom, fun e he => ⟨_, htables e he⟩, ?_⟩
  intro front t back hitem ht
  obtain ⟨table, htable, hcolumn⟩ := column_of_plays ht
    (plays_of_mem_selectItems (hallowed q hq) hread.select hitem ht.identifier)
  rw [Query.tables, hrefs, List.map_map] at htable
  obtain ⟨e, he, rfl⟩ := List.mem_map.mp htable
  refine ⟨e, he, _, (htables e he).2, _, hcolumn, ?_⟩
  exact standsFor_of_collapsed ht.identifier rfl (isAscii_of_mem_columns hcolumn)

/-- A statement that writes its names in capitals. -/
def capitalsText : List Char := "SELECT NOTE FROM \x60Check\x60 LIMIT 1".toList

theorem readsColumn_alone (c : List Char) : ReadsColumn [] (.word c) [] where
  identifier := rfl
  notFunction := nofun
  notQualifier := nofun
  notDistinct := nofun
  notAs := nofun
  notName := by
    rintro _ ⟨e, last, ⟨hfront, _⟩ | ⟨w, hfront, _⟩⟩
    · simp at hfront
    · simp at hfront

theorem names_of_capitals :
    accepts Policy.shipped capitalsText = true ∧
      ∃ table column, column ∈ Policy.shipped.columns table ∧
        StandsFor ['N', 'O', 'T', 'E'] column ∧
        ['N', 'O', 'T', 'E'].map Char.toLower = column.toList := by
  have haccepted : accepts Policy.shipped capitalsText = true :=
    accepts_of_isQuietQuery (by decide +kernel)
  obtain ⟨ts, blocks, hblocks, hall⟩ := names_of_accepted_statement haccepted
  obtain ⟨_, sections, hread, hitems⟩ := Database.exists_single_block selectItems capitalsText
    [[.word ['N', 'O', 'T', 'E']]] (by decide +kernel)
  rw [hblocks] at hread
  cases hread
  obtain ⟨l, _, _, hcolumns⟩ := hall sections List.mem_cons_self
  have hitem : [] ++ .word ['N', 'O', 'T', 'E'] :: [] ∈ selectItems sections := by
    rw [hitems]
    exact List.mem_singleton.mpr rfl
  obtain ⟨_, _, table, _, column, hlisted, hstands⟩ :=
    hcolumns [] (.word ['N', 'O', 'T', 'E']) [] hitem (readsColumn_alone _)
  exact ⟨haccepted, table, column, hlisted, hstands, hstands.sameLetters_iff.mpr (by decide)⟩

/-- A statement that writes a sign for kelvin in the name of its table. -/
def kelvinText : List Char := "SELECT id FROM \x60chec\u212a\x60 LIMIT 1".toList

/-- The statement is accepted, but no table of the allow-list is written in the letters of its
name. -/
theorem name_with_kelvin :
    accepts Policy.shipped kelvinText = true ∧
      (∃ ts sections, Scope.blocksOf kelvinText = .ok (ts, [sections]) ∧
        body .from_ sections = [.quotedName ['c', 'h', 'e', 'c', kelvin]]) ∧
      ∀ table, Policy.shipped.hasTable table = true →
        ['c', 'h', 'e', 'c', kelvin].map Char.toLower ≠ table.toList := by
  refine ⟨by decide +kernel, ?_, ?_⟩
  · exact Database.exists_single_block (body .from_) kelvinText
      [.quotedName ['c', 'h', 'e', 'c', kelvin]] (by decide +kernel)
  · intro table htable hletters
    have hkelvin : kelvin ∈ table.toList := by
      rw [← hletters]
      decide
    exact absurd (isAscii_of_hasTable htable _ hkelvin).1 (by decide)

end Guard
end QueryGate
