import QueryGate.Proofs.Guard.Acceptance
import QueryGate.Proofs.Guard.Fragment

/-!
# Blocks that are pinned to a tenant

The tokens of a query block whose condition is a conjunction that starts with the tenant column
equal to a number.  A statement made of such blocks, with unions between them, passes the scope
check for that number and for no other, and the guard looks at nothing but the select list, the
tables and the limit of each block.
-/

namespace QueryGate
namespace Template

open Sql Guard Scope

/-! ### Conjunctions -/

/-- Conditions with `AND` between them. -/
def joined : List (List Token) → List Token
  | [] => []
  | [u] => u
  | u :: v :: more => u ++ Keyword.and.token.1 :: joined (v :: more)

theorem joined_cons (u : List Token) {us : List (List Token)} (h : us ≠ []) :
    joined (u :: us) = u ++ Keyword.and.token.1 :: joined us := by
  cases us with
  | nil => exact absurd rfl h
  | cons v us => rfl

theorem joined_append {us vs : List (List Token)} (hus : us ≠ []) (hvs : vs ≠ []) :
    joined (us ++ vs) = joined us ++ Keyword.and.token.1 :: joined vs := by
  induction us with
  | nil => exact absurd rfl hus
  | cons u us ih =>
    by_cases h : us = []
    · subst h
      exact joined_cons u hvs
    · rw [List.cons_append, joined_cons u h, joined_cons u (by simp [h]), ih h]
      simp

theorem passes_joined {us : List (List Token)} (h : ∀ u ∈ us, Passes isAtomic u) :
    Passes staysInClause (joined us) := by
  induction us with
  | nil => exact .nil
  | cons u us ih =>
    have hu : Passes staysInClause u := (h u (by simp)).mono fun t => staysInClause_of_isAtomic
    by_cases hus : us = []
    · subst hus
      exact hu
    · have hand := passes_word Keyword.and.token (staysInClause_of_isKeyword Keyword.and.token.2)
      rw [joined_cons u hus]
      exact hu.append (hand.cons (ih fun v hv => h v (by simp [hv])))

/-- The conjuncts of a conjunction are its parts. -/
theorem conjuncts_joined {us : List (List Token)} (hne : us ≠ [])
    (h : ∀ u ∈ us, Passes isAtomic u) : conjuncts (joined us) = some us := by
  have hrun {u : List Token} (hu : Passes isAtomic u) (rest : List Token) :
      conjunctsFrom 0 false (u ++ rest) = (conjunctsFrom 0 false rest).map (prepend u) := by
    have htogether : Passes staysTogether u := hu.mono fun t => staysTogether_of_isAtomic
    exact conjunctsFrom_run rest htogether.closed htogether.shows
  unfold conjuncts
  induction us with
  | nil => exact absurd rfl hne
  | cons u us ih =>
    have hu := h u (by simp)
    by_cases hus : us = []
    · subst hus
      have hlast := hrun hu []
      rw [List.append_nil] at hlast
      rw [joined, hlast, conjunctsFrom, Option.map_some, prepend_cons, List.append_nil]
    · have hand : conjunctsFrom 0 false (Keyword.and.token.1 :: joined us) =
          some ([] :: us) := by
        simp only [conjunctsFrom, depthAt_word, depthAfter_word, ↓reduceIte,
          keyword?_of_isKeyword Keyword.and.token.2, Bool.false_eq_true,
          ih hus fun v hv => h v (by simp [hv]), Option.map_some]
      rw [joined_cons u hus, hrun hu, hand, Option.map_some, prepend_cons, List.append_nil]

/-! ### Blocks -/

/-- The fixed part of a block: its select list, its tables, the tenant column with its qualifier,
and what comes behind the condition. -/
structure Frame where
  items : List Token
  tables : List Token
  owner : Token
  column : Token
  ending : List Token

/-- A block: a frame and the conditions behind the one that pins the tenant column. -/
structure Block where
  frame : Frame
  others : List (List Token)

/-- The condition that pins the tenant column. -/
def Frame.pin (f : Frame) (digits : List Char) : List Token :=
  [f.owner, .dot, f.column, .operator .eq, .number digits]

namespace Block

/-- The condition of a block. -/
def condition (digits : List Char) (b : Block) : List Token :=
  joined (b.frame.pin digits :: b.others)

/-- The tokens of a block. -/
def tokens (digits : List Char) (b : Block) : List Token :=
  Keyword.select.token.1 :: (b.frame.items ++ Keyword.from_.token.1 :: (b.frame.tables ++
    Keyword.where_.token.1 :: (b.condition digits ++ b.frame.ending)))

/-- A block with nothing behind its condition. -/
def cut (b : Block) : Block := ⟨{ b.frame with ending := [] }, b.others⟩

end Block

/-- Whether a token is something else than the tenant column. -/
def isForeign (t : Token) : Bool := !(t.isIdentifier && t.name == Policy.shipped.tenantColumn)

/-- Whether a token neither opens a block nor is the tenant column. -/
def isPlain (t : Token) : Bool := isForeign t && !t.isKeyword .select

namespace Frame

/-- The tables of a frame as the guard reads them. -/
def source (f : Frame) : Source := (sourceOf f.tables).toOption.getD ⟨⟨"", none⟩, []⟩

/-- The clauses behind the condition. -/
def rest (f : Frame) : List Section :=
  ((sectionsFrom .where_ 0 f.ending).toOption.map (·.2)).getD []

/-- The block as the guard reads it. -/
def query (f : Frame) : Query := ⟨f.items, some f.source, body? .limit f.rest⟩

/-- The parts of a frame stay in their clauses, and nothing reads them in another way. -/
structure Holds (f : Frame) : Prop where
  items : Passes staysInClause f.items
  tables : Passes staysInClause f.tables
  pin : Passes isAtomic (f.pin [])
  ending : Passes inBlock f.ending
  rest : (sectionsFrom .where_ 0 f.ending).toOption = some ([], f.rest)

/-- The tenant column of a frame belongs to its first table and stands nowhere else. -/
structure Names (f : Frame) : Prop where
  column : f.column.isIdentifier = true ∧ f.column.name = Policy.shipped.tenantColumn ∧
    f.column.isKeyword .select = false
  owner : f.owner.isIdentifier = true ∧ (firstNames f.tables).contains f.owner.name = true
  plain : ∀ t ∈ f.items ++ f.tables ++ f.ending ++ [f.owner], isPlain t = true

/-- The guard allows what a frame reads. -/
structure Allowed (f : Frame) : Prop where
  source : (sourceOf f.tables).toOption = some f.source
  tables : (checkTables Policy.shipped [f.query]).toOption = some ()
  items : (checkProjection Policy.shipped f.query).toOption = some ()
  joins : (checkJoins Policy.shipped f.query).toOption = some ()
  rows : (checkRows Policy.shipped f.query).toOption = some ()

/-- A frame that both checks accept around a condition. -/
structure Fits (f : Frame) : Prop where
  holds : f.Holds
  names : f.Names
  allowed : f.Allowed

instance (f : Frame) : Decidable f.Holds :=
  decidable_of_iff
    (Passes staysInClause f.items ∧ Passes staysInClause f.tables ∧ Passes isAtomic (f.pin []) ∧
      Passes inBlock f.ending ∧
      (sectionsFrom .where_ 0 f.ending).toOption = some ([], f.rest))
    ⟨fun ⟨h₁, h₂, h₃, h₄, h₅⟩ => ⟨h₁, h₂, h₃, h₄, h₅⟩,
      fun ⟨h₁, h₂, h₃, h₄, h₅⟩ => ⟨h₁, h₂, h₃, h₄, h₅⟩⟩

instance (f : Frame) : Decidable f.Names :=
  decidable_of_iff
    ((f.column.isIdentifier = true ∧ f.column.name = Policy.shipped.tenantColumn ∧
        f.column.isKeyword .select = false) ∧
      (f.owner.isIdentifier = true ∧ (firstNames f.tables).contains f.owner.name = true) ∧
      ∀ t ∈ f.items ++ f.tables ++ f.ending ++ [f.owner], isPlain t = true)
    ⟨fun ⟨h₁, h₂, h₃⟩ => ⟨h₁, h₂, h₃⟩, fun ⟨h₁, h₂, h₃⟩ => ⟨h₁, h₂, h₃⟩⟩

instance (f : Frame) : Decidable f.Allowed :=
  decidable_of_iff
    ((sourceOf f.tables).toOption = some f.source ∧
      (checkTables Policy.shipped [f.query]).toOption = some () ∧
      (checkProjection Policy.shipped f.query).toOption = some () ∧
      (checkJoins Policy.shipped f.query).toOption = some () ∧
      (checkRows Policy.shipped f.query).toOption = some ())
    ⟨fun ⟨h₁, h₂, h₃, h₄, h₅⟩ => ⟨h₁, h₂, h₃, h₄, h₅⟩,
      fun ⟨h₁, h₂, h₃, h₄, h₅⟩ => ⟨h₁, h₂, h₃, h₄, h₅⟩⟩

instance (f : Frame) : Decidable f.Fits :=
  decidable_of_iff (f.Holds ∧ f.Names ∧ f.Allowed)
    ⟨fun ⟨h₁, h₂, h₃⟩ => ⟨h₁, h₂, h₃⟩, fun ⟨h₁, h₂, h₃⟩ => ⟨h₁, h₂, h₃⟩⟩

end Frame

/-- A condition behind the one that pins the tenant column. -/
structure IsCondition (u : List Token) : Prop where
  atomic : Passes isAtomic u
  plain : ∀ t ∈ u, isPlain t = true

/-- A block that both checks can read. -/
structure Block.Fits (b : Block) : Prop where
  frame : b.frame.Fits
  others : ∀ u ∈ b.others, IsCondition u

theorem eq_ok_of_toOption {ε α : Type} {e : Except ε α} {x : α} (h : e.toOption = some x) :
    e = .ok x := by
  cases e with
  | error e => cases h
  | ok y =>
    cases h
    rfl

/-! ### The clauses of a block -/

section Split

variable {b : Block} (hb : b.Fits) (digits : List Char)

/-- A number passes like any other. -/
theorem pin_pass {f : Frame} (h : Passes isAtomic (f.pin [])) : Passes isAtomic (f.pin digits) := by
  refine ⟨h.closed, ?_⟩
  have hshow := h.shows
  simpa [Frame.pin, showsOnly, isAtomic, Token.isOneOf, Token.isKeyword, Token.keyword?,
    Token.clause?] using hshow

include hb

theorem conditions_pass : ∀ u ∈ b.frame.pin digits :: b.others, Passes isAtomic u := by
  intro u hu
  rcases List.mem_cons.mp hu with rfl | hu
  · exact pin_pass digits hb.frame.holds.pin
  · exact (hb.others u hu).atomic

/-- The clauses of a block. -/
def Block.sections (digits : List Char) (b : Block) : List Section :=
  ⟨.select, b.frame.items⟩ :: ⟨.from_, b.frame.tables⟩ :: ⟨.where_, b.condition digits⟩ ::
    b.frame.rest

theorem splitClauses_block : splitClauses (b.tokens digits) = .ok (b.sections digits) :=
  splitClauses_clauses _ _ _ hb.frame.holds.items hb.frame.holds.tables
    (passes_joined (conditions_pass hb digits)) (eq_ok_of_toOption hb.frame.holds.rest)

theorem passes_block : Passes inBlock (b.tokens digits) :=
  passes_clauses _ _ _ hb.frame.holds.items hb.frame.holds.tables
    (passes_joined (conditions_pass hb digits)) hb.frame.holds.ending

end Split

/-! ### Statements -/

/-- Query blocks with `UNION ALL` between them. -/
def united : List (List Token) → List Token
  | [] => []
  | [u] => u
  | u :: v :: more => u ++ Keyword.union.token.1 :: Keyword.all.token.1 :: united (v :: more)

theorem united_cons (u : List Token) {us : List (List Token)} (h : us ≠ []) :
    united (u :: us) = u ++ Keyword.union.token.1 :: Keyword.all.token.1 :: united us := by
  cases us with
  | nil => exact absurd rfl h
  | cons v us => rfl

theorem blocksFrom_united {us : List (List Token)} (hne : us ≠ [])
    (h : ∀ u ∈ us, Passes inBlock u) : blocksFrom false 0 (united us) = us := by
  have hrun {u : List Token} (hu : Passes inBlock u) (rest : List Token) :
      blocksFrom false 0 (u ++ rest) = prepend u (blocksFrom false 0 rest) :=
    blocksFrom_run rest hu.closed hu.shows
  have hall : Keyword.all.token.1.isOneOf [.all, .distinct] = true := by decide
  induction us with
  | nil => exact absurd rfl hne
  | cons u us ih =>
    have hu := h u (by simp)
    by_cases hus : us = []
    · subst hus
      have hlast := hrun hu []
      rw [List.append_nil] at hlast
      rw [united, hlast, blocksFrom, prepend_cons, List.append_nil]
    · have hunion : blocksFrom false 0
          (Keyword.union.token.1 :: Keyword.all.token.1 :: united us) = [] :: us := by
        simp only [blocksFrom, Bool.false_and, Bool.false_eq_true, ↓reduceIte, depthAt_word,
          Keyword.union.token.2, and_self, depthAfter_word, hall, Bool.and_self,
          ih hus fun v hv => h v (by simp [hv])]
      rw [united_cons u hus, hrun hu, hunion, prepend_cons, List.append_nil]

/-- The tokens of a statement. -/
def statement (digits : List Char) (blocks : List Block) : List Token :=
  united (blocks.map (Block.tokens digits))

theorem mapM_eq_ok {ε α β : Type} {f : α → Except ε β} {g : α → β} {xs : List α}
    (h : ∀ x ∈ xs, f x = .ok (g x)) : xs.mapM f = .ok (xs.map g) := by
  induction xs with
  | nil => rfl
  | cons x xs ih =>
    rw [List.mapM_cons, h x (by simp), ih fun y hy => h y (by simp [hy])]
    rfl

section Statement

variable {blocks : List Block} (hne : blocks ≠ []) (hblocks : ∀ b ∈ blocks, b.Fits)
  (digits : List Char)
include hne hblocks

theorem splitUnion_statement :
    splitUnion (statement digits blocks) = .ok (blocks.map (Block.tokens digits)) := by
  have hpass : ∀ u ∈ blocks.map (Block.tokens digits), Passes inBlock u := by
    intro u hu
    obtain ⟨b, hb, rfl⟩ := List.mem_map.mp hu
    exact passes_block (hblocks b hb) digits
  have hsplit := blocksFrom_united (by simpa using hne) hpass
  have hnonempty : (blocks.map (Block.tokens digits)).any List.isEmpty = false := by
    simp [Block.tokens]
  unfold splitUnion statement
  rw [hsplit]
  simp only [hnonempty, Bool.false_eq_true, ↓reduceIte]

/-! ### The scope check -/

theorem blocksOf_statement {cs : List Char} (h : tokenize cs = .ok (statement digits blocks)) :
    blocksOf cs = .ok (statement digits blocks, blocks.map (Block.sections digits)) := by
  have hmap : (blocks.map (Block.tokens digits)).mapM splitClauses =
      .ok (blocks.map (Block.sections digits)) := by
    rw [List.mapM_map]
    exact mapM_eq_ok fun b hb => splitClauses_block (hblocks b hb) digits
  exact blocksOf_eq_ok_iff.mpr ⟨_, h, splitUnion_statement hne hblocks digits, hmap⟩

end Statement

section Scope

variable (tenant : Int)

theorem isForeign_of_isPlain {t : Token} (h : isPlain t = true) : isForeign t = true :=
  (Bool.and_eq_true _ _ ▸ h).1

/-- Tokens that are not the tenant column make no difference. -/
theorem usesPinned_foreign {u : List Token} (hu : ∀ t ∈ u, isForeign t = true)
    (before rest : List Token) :
    usesPinned Policy.shipped.tenantColumn tenant before (u ++ rest) =
      usesPinned Policy.shipped.tenantColumn tenant (u.reverse ++ before) rest := by
  induction u generalizing before with
  | nil => rfl
  | cons t u ih =>
    have ht : isColumn Policy.shipped.tenantColumn t (u ++ rest) = false := by
      have hforeign := hu t (by simp)
      simp only [isForeign, Bool.not_eq_true'] at hforeign
      simp only [isColumn, hforeign, Bool.false_and]
    rw [List.cons_append, usesPinned, ht, ih fun v hv => hu v (by simp [hv])]
    simp

/-- The pinning condition of a block is used for the number that it writes. -/
theorem usesPinned_pin {f : Frame} (hf : f.Names) (digits : List Char) (before rest : List Token) :
    usesPinned Policy.shipped.tenantColumn tenant (Keyword.where_.token.1 :: before)
        (f.pin digits ++ rest) =
      (isTenant tenant (.number digits) &&
        usesPinned Policy.shipped.tenantColumn tenant
          ((f.pin digits).reverse ++ Keyword.where_.token.1 :: before) rest) := by
  obtain ⟨hid, hname, _⟩ := hf.column
  have howner := isForeign_of_isPlain (hf.plain f.owner (by simp))
  simp only [isForeign, Bool.not_eq_true'] at howner
  have hcolumn (r : List Token) :
      isColumn Policy.shipped.tenantColumn f.column (.operator .eq :: r) = true := by
    simp [isColumn, hid, hname]
  have hplain (r : List Token) : isColumn Policy.shipped.tenantColumn f.owner r = false := by
    simp only [isColumn, howner, Bool.false_and]
  have hwhere : comparesBefore Keyword.where_.token.1 = false := by decide
  simp only [Frame.pin, List.cons_append, List.nil_append, usesPinned, hplain, hcolumn]
  simp [isColumn, Token.isIdentifier, leftNeighbour, hwhere, pinnedAfter]

/-- The conditions of a block behind the one that pins the tenant column, with what comes behind
them. -/
def Block.back (b : Block) : List Token :=
  (if b.others = [] then [] else Keyword.and.token.1 :: joined b.others) ++ b.frame.ending

theorem tokens_eq (digits : List Char) (b : Block) :
    b.tokens digits = (Keyword.select.token.1 :: (b.frame.items ++ Keyword.from_.token.1 ::
      b.frame.tables)) ++ Keyword.where_.token.1 :: (b.frame.pin digits ++ b.back) := by
  unfold Block.tokens Block.condition Block.back
  by_cases h : b.others = []
  · simp [h, joined]
  · simp [h, joined_cons]

theorem mem_joined {us : List (List Token)} {t : Token} (h : t ∈ joined us) :
    (∃ u ∈ us, t ∈ u) ∨ t = Keyword.and.token.1 := by
  induction us with
  | nil => cases h
  | cons u us ih =>
    by_cases hus : us = []
    · subst hus
      exact Or.inl ⟨u, by simp, h⟩
    · rw [joined_cons u hus, List.mem_append, List.mem_cons] at h
      rcases h with h | rfl | h
      · exact Or.inl ⟨u, by simp, h⟩
      · exact Or.inr rfl
      · exact (ih h).imp (fun ⟨v, hv, ht⟩ => ⟨v, by simp [hv], ht⟩) id

section Block

variable {b : Block} (hb : b.Fits)
include hb

theorem isPlain_of_mem_back {t : Token} (h : t ∈ b.back) : isPlain t = true := by
  have hand : isPlain Keyword.and.token.1 = true := by decide
  unfold Block.back at h
  rcases List.mem_append.mp h with h | h
  · split at h
    · cases h
    · rcases List.mem_cons.mp h with rfl | h
      · exact hand
      · rcases mem_joined h with ⟨u, hu, ht⟩ | rfl
        · exact (hb.others u hu).plain t ht
        · exact hand
  · exact hb.frame.names.plain t (by simp [h])

theorem usesPinned_block (digits : List Char) (before rest : List Token) :
    usesPinned Policy.shipped.tenantColumn tenant before (b.tokens digits ++ rest) =
      (isTenant tenant (.number digits) &&
        usesPinned Policy.shipped.tenantColumn tenant ((b.tokens digits).reverse ++ before)
          rest) := by
  have hfront : ∀ t ∈ Keyword.select.token.1 :: (b.frame.items ++ Keyword.from_.token.1 ::
      b.frame.tables), isForeign t = true := by
    have hselect : isForeign Keyword.select.token.1 = true := by decide
    have hfrom : isForeign Keyword.from_.token.1 = true := by decide
    intro t ht
    simp only [List.mem_cons, List.mem_append] at ht
    rcases ht with rfl | ht | rfl | ht
    · exact hselect
    · exact isForeign_of_isPlain (hb.frame.names.plain t (by simp [ht]))
    · exact hfrom
    · exact isForeign_of_isPlain (hb.frame.names.plain t (by simp [ht]))
  have hwhere : ∀ t ∈ [Keyword.where_.token.1], isForeign t = true := by decide
  have hback : ∀ t ∈ b.back, isForeign t = true :=
    fun t ht => isForeign_of_isPlain (isPlain_of_mem_back hb ht)
  have hstep (before rest : List Token) :
      usesPinned Policy.shipped.tenantColumn tenant before (Keyword.where_.token.1 :: rest) =
        usesPinned Policy.shipped.tenantColumn tenant (Keyword.where_.token.1 :: before) rest :=
    usesPinned_foreign tenant hwhere before rest
  rw [tokens_eq, List.append_assoc, usesPinned_foreign tenant hfront, List.cons_append, hstep,
    List.append_assoc, usesPinned_pin tenant hb.frame.names, usesPinned_foreign tenant hback]
  simp

end Block

theorem usesPinned_statement {blocks : List Block} (hne : blocks ≠ [])
    (hblocks : ∀ b ∈ blocks, b.Fits) (digits : List Char) (before : List Token) :
    usesPinned Policy.shipped.tenantColumn tenant before (statement digits blocks) =
      isTenant tenant (.number digits) := by
  have hlast (b : Block) (hb : b.Fits) (before : List Token) :
      usesPinned Policy.shipped.tenantColumn tenant before (b.tokens digits) =
        isTenant tenant (.number digits) := by
    have hblock := usesPinned_block tenant hb digits before []
    simpa [usesPinned] using hblock
  have hunion : ∀ t ∈ [Keyword.union.token.1, Keyword.all.token.1], isForeign t = true := by
    decide
  unfold statement
  induction blocks generalizing before with
  | nil => exact absurd rfl hne
  | cons b blocks ih =>
    have hb := hblocks b (by simp)
    by_cases h : blocks = []
    · subst h
      exact hlast b hb before
    · have hrest := ih h (fun c hc => hblocks c (by simp [hc]))
      have hstep := usesPinned_foreign tenant hunion
      rw [List.map_cons, united_cons _ (by simpa using h), usesPinned_block tenant hb]
      exact (congrArg _ ((hstep _ _).trans (hrest _))).trans (Bool.and_self _)

theorem isTenant_digits {digits : List Char} (hdigits : Text.isDigits digits = true) :
    isTenant tenant (.number digits) = true ↔ (Text.digitsValue digits : Int) = tenant := by
  simp [isTenant, digitsOf?, hdigits]

theorem pins_pin {f : Frame} (hf : f.Names) {digits : List Char}
    (h : isTenant tenant (.number digits) = true) :
    pins Policy.shipped.tenantColumn tenant (firstNames f.tables) (f.pin digits) = true := by
  obtain ⟨hid, hname, _⟩ := hf.column
  have hcolumn (r : List Token) :
      isColumn Policy.shipped.tenantColumn f.column (.operator .eq :: r) = true := by
    simp [isColumn, hid, hname]
  simp only [pins, Frame.pin, hf.owner.1, hf.owner.2, hcolumn, bindsTenant, h, Bool.and_self]

theorem checkBlock_block {b : Block} (hb : b.Fits) {digits : List Char}
    (h : isTenant tenant (.number digits) = true) :
    checkBlock Policy.shipped.tenantColumn tenant (b.sections digits) = .ok () := by
  have hconjuncts := conjuncts_joined (List.cons_ne_nil _ _) (conditions_pass hb digits)
  have hne : b.condition digits ≠ [] := by
    unfold Block.condition
    by_cases hothers : b.others = []
    · simp [hothers, joined, Frame.pin]
    · simp [joined_cons _ hothers, Frame.pin]
  have hpin := pins_pin tenant hb.frame.names h
  have hfrom : body .from_ (b.sections digits) = b.frame.tables := rfl
  have hwhere : body .where_ (b.sections digits) = b.condition digits := rfl
  unfold checkBlock
  rw [hwhere, hfrom]
  split
  · exact absurd (by assumption) hne
  · rw [Block.condition, hconjuncts]
    simp [hpin]

/-- A statement of pinned blocks is scoped to the tenant whose number it writes, and to no other. -/
theorem holds_statement {blocks : List Block} (hne : blocks ≠ []) (hblocks : ∀ b ∈ blocks, b.Fits)
    {digits cs : List Char} (hdigits : Text.isDigits digits = true)
    (hcs : tokenize cs = .ok (statement digits blocks)) (htrim : (Text.trim cs).isEmpty = false) :
    Scope.holds Policy.shipped.tenantColumn tenant cs = true ↔
      (Text.digitsValue digits : Int) = tenant := by
  rw [← isTenant_digits tenant hdigits]
  have hblocksOf := blocksOf_statement hne hblocks digits hcs
  have huses := usesPinned_statement tenant hne hblocks digits []
  unfold Scope.holds Scope.check
  simp only [htrim, Bool.false_eq_true, ↓reduceIte, hblocksOf, huses]
  cases h : isTenant tenant (.number digits) with
  | false => simp
  | true =>
    have hall : (blocks.map (Block.sections digits)).forM
        (checkBlock Policy.shipped.tenantColumn tenant) = .ok () := by
      refine forM_eq_ok_iff.mpr ?_
      intro sections hsections
      obtain ⟨b, hb, rfl⟩ := List.mem_map.mp hsections
      exact checkBlock_block tenant (hblocks b hb) h
    simp [hall]

end Scope

/-! ### The guard -/

section Guard

variable {b : Block} (hb : b.Fits) (digits : List Char)
include hb

/-- No second `SELECT` stands in a block. -/
theorem no_select_block : ∀ t ∈ (b.tokens digits).tail, t.isKeyword .select = false := by
  have hfrom : Keyword.from_.token.1.isKeyword .select = false := by decide
  have hwhere : Keyword.where_.token.1.isKeyword .select = false := by decide
  have plain {t : Token} (h : isPlain t = true) : t.isKeyword .select = false := by
    simp only [isPlain, Bool.and_eq_true, Bool.not_eq_true'] at h
    exact h.2
  have hnames := hb.frame.names
  intro t ht
  rw [tokens_eq, List.cons_append, List.tail_cons] at ht
  simp only [List.mem_append, List.mem_cons, Frame.pin, List.not_mem_nil, or_false] at ht
  rcases ht with (ht | rfl | ht) | rfl | (rfl | rfl | rfl | rfl | rfl) | ht
  · exact plain (hnames.plain t (by simp [ht]))
  · exact hfrom
  · exact plain (hnames.plain t (by simp [ht]))
  · exact hwhere
  · exact plain (hnames.plain _ (by simp))
  · rfl
  · exact hnames.column.2.2
  · rfl
  · rfl
  · exact plain (isPlain_of_mem_back hb ht)

/-- The guard reads the select list, the tables and the limit of a block. -/
theorem ofBlock_block : Query.ofBlock (b.tokens digits) = .ok b.frame.query := by
  have hselect : ((b.tokens digits).tail.any fun u => u.isKeyword .select) = false := by
    rw [List.any_eq_false]
    intro t ht
    simp [no_select_block hb digits t ht]
  have hsource := eq_ok_of_toOption hb.frame.allowed.source
  have hsections := splitClauses_block hb digits
  have hitems : body .select (b.sections digits) = b.frame.items := rfl
  have hlimit : body? .limit (b.sections digits) = body? .limit b.frame.rest := rfl
  have hfrom : body .from_ (b.sections digits) = b.frame.tables := rfl
  have hshape : b.tokens digits = Keyword.select.token.1 :: (b.tokens digits).tail := rfl
  rw [hshape] at hsections ⊢
  unfold Query.ofBlock
  simp only [Keyword.select.token.2, hselect, hsections, hitems, hlimit, hfrom, Bool.not_true,
    Bool.false_eq_true, ↓reduceIte]
  cases htables : b.frame.tables with
  | nil =>
    rw [htables] at hsource
    cases hsource
  | cons t ts =>
    rw [htables] at hsource
    simp only [hsource]
    rfl

end Guard

section Check

variable {blocks : List Block} (hne : blocks ≠ []) (hblocks : ∀ b ∈ blocks, b.Fits)
  (hlimit : ((blocks.map (·.frame.query)).getLast?.bind Query.limit).isSome = true)
include hblocks

include hlimit in
theorem checkQueries_blocks :
    checkQueries Policy.shipped (blocks.map (·.frame.query)) = .ok () := by
  apply checkQueries_eq_ok_iff.mpr
  refine ⟨hlimit, ?_⟩
  intro q hq
  obtain ⟨b, hb, rfl⟩ := List.mem_map.mp hq
  have hallowed := (hblocks b hb).frame.allowed
  have htables := checkTables_eq_ok_iff.mp (eq_ok_of_toOption hallowed.tables) _ List.mem_cons_self
  exact {
    readsTables := htables.1
    tables := htables.2
    projection := checkProjection_eq_ok_iff.mp (eq_ok_of_toOption hallowed.items)
    joins := forM_eq_ok_iff.mp (eq_ok_of_toOption hallowed.joins)
    rows := checkRows_eq_ok_iff.mp (eq_ok_of_toOption hallowed.rows) }

include hne

theorem queriesOf_statement {digits cs : List Char}
    (h : tokenize cs = .ok (statement digits blocks)) :
    queriesOf cs = .ok (blocks.map (·.frame.query)) := by
  have hmap : (blocks.map (Block.tokens digits)).mapM Query.ofBlock =
      .ok (blocks.map (·.frame.query)) := by
    rw [List.mapM_map]
    exact mapM_eq_ok fun b hb => ofBlock_block (hblocks b hb) digits
  simp only [queriesOf, h, splitUnion_statement hne hblocks digits, hmap]

include hlimit in
/-- The guard accepts a statement of pinned blocks. -/
theorem check_statement {digits : List Char} {r : List Char} {c : Char}
    (hcs : Fragment (Keyword.select.letters ++ ' ' :: r) (statement digits blocks))
    (hstart : Text.startsBlank r = false) (hlast : r.getLast? = some c)
    (hend : Text.isBlank c = false) :
    Guard.check Policy.shipped (Keyword.select.letters ++ ' ' :: r) = .ok () := by
  have hsqueeze : Text.squeeze (Keyword.select.letters ++ ' ' :: r) =
      Text.collapse (Keyword.select.letters ++ ' ' :: r) := by
    obtain ⟨front, rfl⟩ := List.getLast?_eq_some_iff.mp hlast
    exact Text.squeeze_concat (a := Keyword.select.letters ++ ' ' :: front) rfl hend
  have hcollapse : Text.collapse (Keyword.select.letters ++ ' ' :: r) =
      Keyword.select.letters ++ ' ' :: Text.collapse r := by
    rw [Text.collapse_append (Text.eq_false_of_all (by decide)), Text.collapse_of_isBlank (by decide),
      if_neg (by simp [hstart])]
  have hupper (text : List Char) : Text.upper (Keyword.select.letters ++ ' ' :: text) =
      "SELECT ".toList ++ Text.upper text := by
    unfold Text.upper
    rw [List.flatMap_append, List.flatMap_cons, ← List.append_assoc]
    congr 1
  have hshape : checkShape (Text.collapse (Keyword.select.letters ++ ' ' :: r)) = .ok () := by
    apply checkShape_of_isQuiet hcs.quiet
    rw [hcollapse, hupper]
    exact List.isPrefixOf_iff_prefix.mpr (List.prefix_append _ _)
  have hqueries := queriesOf_statement hne hblocks hcs.tokenize_collapse
  simp only [Guard.check, hsqueeze, hshape, checkKeywords_of_isQuiet hcs.quiet, hqueries,
    checkQueries_blocks hblocks hlimit, bind, Except.bind]

end Check

/-! ### Blocks without an ending -/

theorem fits_cut {b : Block} (hb : b.Fits) : b.cut.Fits := by
  have hframe := hb.frame
  refine ⟨⟨⟨hframe.holds.items, hframe.holds.tables, hframe.holds.pin, .nil, rfl⟩,
    ⟨hframe.names.column, hframe.names.owner, ?_⟩, ?_⟩, hb.others⟩
  · intro t ht
    refine hframe.names.plain t ?_
    simp only [Block.cut, List.append_nil, List.mem_append] at ht ⊢
    rcases ht with (ht | ht) | ht
    · exact Or.inl (Or.inl (Or.inl ht))
    · exact Or.inl (Or.inl (Or.inr ht))
    · exact Or.inr ht
  · have hitems := hframe.allowed.items
    rw [← checkProjection_limit _ _ none] at hitems
    exact ⟨hframe.allowed.source, hframe.allowed.tables, hitems, hframe.allowed.joins, rfl⟩

theorem tokens_eq_cut (digits : List Char) (b : Block) :
    b.tokens digits = b.cut.tokens digits ++ b.frame.ending := by
  simp [Block.tokens, Block.cut, Block.condition, Frame.pin]

end Template
end QueryGate
