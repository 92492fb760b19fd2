import QueryGate.Indexed.Scope
import QueryGate.Proofs.Guard.Fragment
import QueryGate.Proofs.Indexed.Structure
import QueryGate.Proofs.Scope.Soundness
import QueryGate.Proofs.Text.Numeral

/-!
# Tenant scope, checked by place

Where the tenant can be written, the check of a scope by place does what the recursions over the
tokens do: a literal is the text of the tenant just when it is the number of the tenant, and the
token in front of a column is there to be read wherever it is looked at.
-/

namespace QueryGate
namespace Indexed

open Sql

/-! ### Literals -/

theorem withoutZeros_eq_toString {digits : List Char} (hdigits : Text.isDigits digits = true)
    (tenant : Int) :
    (Text.withoutZeros digits == (toString tenant).toList) =
      ((Text.digitsValue digits : Int) == tenant) := by
  have hall := List.all_eq_true.mp (Bool.and_eq_true_iff.mp hdigits).2
  rw [Text.withoutZeros_eq hall, Bool.eq_iff_iff, beq_iff_eq, beq_iff_eq]
  cases tenant with
  | ofNat n =>
    have htext : (toString (Int.ofNat n)).toList = Nat.toDigits 10 n := Text.toList_toString n
    rw [htext]
    constructor
    · intro h
      have hvalue := congrArg Text.digitsValue h
      rw [Text.digitsValue_toDigits, Text.digitsValue_toDigits] at hvalue
      exact congrArg Int.ofNat hvalue
    · intro h
      rw [Int.ofNat.inj h]
  | negSucc n =>
    have htext : (toString (Int.negSucc n)).toList = '-' :: (toString (n + 1)).toList := by
      show ("-" ++ toString (n + 1)).toList = _
      rw [String.toList_append]
      rfl
    rw [htext]
    constructor
    · intro h
      have hsign : '-' ∈ Nat.toDigits 10 (Text.digitsValue digits) := h ▸ List.mem_cons_self
      exact absurd (Text.isAsciiDigit_of_mem_toDigits hsign) (by decide)
    · rintro ⟨⟩

variable {column : String} {tenant : Int}

theorem isTenant_eq (h : HasText tenant) (t : Token) :
    isTenant tenant t = .ok (Scope.isTenant tenant t) := by
  rw [isTenant, Scope.isTenant]
  cases Scope.digitsOf? t with
  | none => rfl
  | some digits =>
    simp only [decimalText, if_pos h, ok_bind, guarded_ok]
    cases hdigits : Text.isDigits digits with
    | false => rfl
    | true => rw [withoutZeros_eq_toString hdigits]

theorem tenantAt_of_drop (h : HasText tenant) {ts rest : List Token} {t : Token} {place : Nat}
    (hdrop : ts.drop place = t :: rest) :
    tenantAt tenant ts place = .ok (Scope.isTenant tenant t) := by
  rw [tenantAt, item_of_drop hdrop, ok_bind, isTenant_eq h]

/-! ### Lists of tenants -/

section List

variable {ts us rest : List Token} {t : Token} {place : Nat}

theorem tenantListFrom_end (hdrop : ts.drop place = []) (literal : Bool) :
    tenantListFrom tenant ts place literal = .ok none := by
  rw [tenantListFrom, if_neg (Nat.not_lt.mpr (List.drop_eq_nil_iff.mp hdrop))]

theorem tenantListFrom_of_drop (hdrop : ts.drop place = t :: rest) :
    tenantListFrom tenant ts place true = (do
      let literal ← isTenant tenant t
      if literal then tenantListFrom tenant ts (place + 1) false else .ok none) := by
  rw [tenantListFrom, if_pos (lt_of_drop hdrop), item_of_drop hdrop, ok_bind, if_pos rfl]

theorem tenantListFrom_literal (h : HasText tenant) (hdrop : ts.drop place = t :: rest) :
    tenantListFrom tenant ts place true =
      if Scope.isTenant tenant t then tenantListFrom tenant ts (place + 1) false else .ok none := by
  rw [tenantListFrom_of_drop hdrop, isTenant_eq h, ok_bind]

theorem tenantListFrom_between (hdrop : ts.drop place = t :: rest) :
    tenantListFrom tenant ts place false =
      if t = .rparen then .ok (some (place + 1))
      else if t = .comma then tenantListFrom tenant ts (place + 1) true
      else .ok none := by
  rw [tenantListFrom, if_pos (lt_of_drop hdrop), item_of_drop hdrop, ok_bind,
    if_neg Bool.false_ne_true]

/-- Literals and what is between them are read in turn. -/
theorem tenantListFrom_eq (h : HasText tenant) (hdrop : ts.drop place = us)
    (hle : place ≤ ts.length) :
    tenantListFrom tenant ts place true =
      .ok ((Scope.tenantList? tenant us).map fun rest => ts.length - rest.length) := by
  have hlength := drop_length hdrop hle
  fun_induction Scope.tenantList? tenant us generalizing place with
  | case1 t rest ht =>
    have hstop : ts.length - rest.length = place + 1 + 1 := by
      simp only [List.length_cons] at hlength
      omega
    rw [tenantListFrom_literal h hdrop, if_pos ht, tenantListFrom_between (drop_succ hdrop),
      if_pos rfl, Option.map_some, hstop]
  | case2 t rest ht => rw [tenantListFrom_literal h hdrop, if_neg ht, Option.map_none]
  | case3 t rest ht ih =>
    have hrest := drop_succ (drop_succ hdrop)
    have hlt := lt_of_drop (drop_succ hdrop)
    rw [tenantListFrom_literal h hdrop, if_pos ht, tenantListFrom_between (drop_succ hdrop),
      if_neg (by decide), if_pos rfl]
    exact ih hrest hlt (drop_length hrest hlt)
  | case4 t rest ht => rw [tenantListFrom_literal h hdrop, if_neg ht, Option.map_none]
  | case5 us hend hcomma =>
    rw [Option.map_none]
    rcases us with _ | ⟨t, _ | ⟨u, rest⟩⟩
    · exact tenantListFrom_end hdrop true
    · rw [tenantListFrom_literal h hdrop, tenantListFrom_end (drop_succ hdrop), ite_self]
    · have hu : u ≠ .rparen ∧ u ≠ .comma :=
        ⟨fun hu => hend t rest (by rw [hu]), fun hu => hcomma t rest (by rw [hu])⟩
      rw [tenantListFrom_literal h hdrop, tenantListFrom_between (drop_succ hdrop), if_neg hu.1,
        if_neg hu.2, ite_self]

theorem tenantsAt_eq (h : HasText tenant) (hdrop : ts.drop place = us) :
    tenantsAt tenant ts place =
      .ok ((Scope.tenants? tenant us).map fun rest => ts.length - rest.length) := by
  rw [tenantsAt, itemIs_eq, hdrop, ok_bind]
  cases us with
  | nil => rfl
  | cons t rest =>
    rw [List.head?_cons, Option.any_some]
    by_cases ht : t = .lparen
    · rw [ht, beq_self_eq_true, if_pos rfl]
      exact tenantListFrom_eq h (drop_succ hdrop) (lt_of_drop hdrop)
    · rw [beq_eq_false_iff_ne.mpr ht, if_neg Bool.false_ne_true]
      cases t <;> first | rfl | exact absurd rfl ht

end List

/-! ### Uses of the tenant column -/

section Uses

variable {ts rest : List Token} {t : Token} {place : Nat}

theorem columnAt_eq (column : String) (hdrop : ts.drop place = t :: rest) :
    columnAt column ts place = .ok (Scope.isColumn column t rest) := by
  rw [columnAt, itemHas_of_drop hdrop, itemIs_eq, drop_succ hdrop, ok_bind, ok_bind, guarded_ok,
    Scope.isColumn]
  cases rest with
  | nil => cases t.isIdentifier && t.name == column <;> rfl
  | cons u more => simp [Bool.and_assoc, bne]

/-- What stands in front of a place, nearest first. -/
theorem drop_before {before : List Token} (hts : ts = before.reverse ++ rest) :
    ts.drop before.length = rest := by
  rw [hts]
  exact List.drop_left' List.length_reverse

/-- The token in front of a qualifier is three places in front of the column. -/
theorem neighbourAt_eq {before : List Token} (hts : ts = before.reverse ++ rest) :
    neighbourAt ts before.length = .ok (Scope.leftNeighbour before) := by
  rcases before with _ | ⟨x, before⟩
  · rfl
  · have hx : ts.drop before.length = x :: rest := drop_before (by rw [hts]; simp)
    have hplace : ((List.length (x :: before) : Nat) : Int) - 1 = (before.length : Nat) := by
      rw [List.length_cons]
      omega
    have hne : ¬(x :: before).length = 0 := Nat.succ_ne_zero _
    rw [neighbourAt, if_neg hne, hplace, item_of_drop hx, ok_bind]
    by_cases hdot : x = .dot
    · rw [if_pos hdot, hdot]
      rcases before with _ | ⟨y, _ | ⟨z, before⟩⟩
      · rfl
      · rfl
      · have hz : ts.drop before.length = z :: y :: x :: rest := drop_before (by rw [hts]; simp)
        have hthree : 3 ≤ (Token.dot :: y :: z :: before).length := Nat.le_add_left 3 before.length
        have hback : ((List.length (Token.dot :: y :: z :: before) : Nat) : Int) - 3 =
            (before.length : Nat) := by
          simp only [List.length_cons]
          omega
        rw [if_pos hthree, hback, item_of_drop hz, ok_bind]
        rfl
    · rw [if_neg hdot]
      cases x <;> first | rfl | exact absurd rfl hdot

/-- What follows the column is read where it is there. -/
theorem pinnedBehind_eq (h : HasText tenant) (hdrop : ts.drop place = t :: rest) :
    pinnedBehind tenant ts place = .ok (Scope.pinnedAfter tenant rest) := by
  have hnext := drop_succ hdrop
  rw [pinnedBehind]
  cases rest with
  | nil =>
    rw [if_neg (Nat.not_lt.mpr (List.drop_eq_nil_iff.mp hnext))]
    rfl
  | cons u more =>
    rw [if_pos (lt_of_drop hnext), item_of_drop hnext, ok_bind]
    have hmore := drop_succ hnext
    cases u with
    | operator op =>
      show guarded (op == .eq && place + 2 < ts.length) (tenantAt tenant ts (place + 2)) = _
      cases more with
      | nil =>
        have hend : ¬place + 2 < ts.length := Nat.not_lt.mpr (List.drop_eq_nil_iff.mp hmore)
        rw [decide_eq_false hend, Bool.and_false]
        exact congrArg Except.ok (Bool.and_false _).symm
      | cons v more =>
        rw [decide_eq_true (lt_of_drop hmore), Bool.and_true, tenantAt_of_drop h hmore, guarded_ok]
        rfl
    | word letters =>
      have htenants := tenantsAt_eq h hmore
      show (if (Token.word letters).isKeyword .in_ then
          (tenantsAt tenant ts (place + 2) >>= fun stop => .ok stop.isSome)
        else .ok !(((Token.word letters).keyword?.map Keyword.startsPredicate).getD false)) = _
      rw [Scope.pinnedAfter, Token.isKeyword, htenants, ok_bind, Option.isSome_map]
      · cases (Token.word letters).keyword? with
        | none => rfl
        | some k => cases k <;> rfl
      · rintro _ ⟨⟩
    | _ => rfl

theorem usePinned_eq (h : HasText tenant) {before : List Token}
    (hts : ts = before.reverse ++ t :: rest) :
    usePinned column tenant ts before.length =
      .ok (!Scope.isColumn column t rest ||
        (!((Scope.leftNeighbour before).map Scope.comparesBefore).getD false &&
          Scope.pinnedAfter tenant rest)) := by
  have hdrop := drop_before hts
  rw [usePinned, columnAt_eq column hdrop, ok_bind, neighbourAt_eq hts, ok_bind,
    pinnedBehind_eq h hdrop]
  cases Scope.isColumn column t rest with
  | false => rfl
  | true => cases ((Scope.leftNeighbour before).map Scope.comparesBefore).getD false <;> rfl

/-- Along a statement what stands in front of a place is what has been passed. -/
theorem usesPinnedFrom_eq (h : HasText tenant) {before : List Token}
    (hts : ts = before.reverse ++ rest) :
    usesPinnedFrom column tenant ts before.length =
      .ok (Scope.usesPinned column tenant before rest) := by
  induction rest generalizing before with
  | nil =>
    have hend : ¬before.length < ts.length :=
      Nat.not_lt.mpr (List.drop_eq_nil_iff.mp (drop_before hts))
    rw [usesPinnedFrom, if_neg hend]
    rfl
  | cons t rest ih =>
    have hnext : ts = (t :: before).reverse ++ rest := by rw [hts]; simp
    rw [usesPinnedFrom, if_pos (lt_of_drop (drop_before hts)), usePinned_eq h hts, ok_bind,
      Scope.usesPinned]
    have hmore := ih hnext
    rw [List.length_cons] at hmore
    rw [hmore]
    cases !Scope.isColumn column t rest ||
      (!((Scope.leftNeighbour before).map Scope.comparesBefore).getD false &&
        Scope.pinnedAfter tenant rest) <;> rfl

theorem usesPinned_eq (h : HasText tenant) (ts : List Token) :
    usesPinnedFrom column tenant ts 0 = .ok (Scope.usesPinned column tenant [] ts) := by
  have hts : ts = ([] : List Token).reverse ++ ts := rfl
  exact usesPinnedFrom_eq h hts

end Uses

/-! ### Blocks -/

theorem firstNames_eq (ts : List Token) : firstNames ts = .ok (Scope.firstNames ts) := by
  cases ts with
  | nil => rfl
  | cons t r =>
    have hname (n : Token) (more : List Token) : (do
        let aliased ← itemIs (n :: more) 0 (·.isPlainIdentifier)
        if aliased then
          let n ← item (n :: more) 0
          .ok [t.name, n.name]
        else .ok [t.name] : Run (List String)) =
        .ok (if n.isPlainIdentifier then [t.name, n.name] else [t.name]) := by
      rw [itemIs_front, ok_bind, List.head?_cons, Option.any_some]
      split <;> rfl
    rw [firstNames, itemIs_front, ok_bind, List.head?_cons, Option.any_some, List.drop_one,
      List.tail_cons, itemIs_front, Scope.firstNames.eq_def]
    dsimp only
    split
    · show (itemIs (if r.head?.any (·.isKeyword .as_) then (t :: r).drop 2 else r) 0 _ >>= _) = _
      cases r with
      | nil => rfl
      | cons w more =>
        rw [List.head?_cons, Option.any_some]
        dsimp only
        cases w.isKeyword .as_ with
        | false => exact hname w more
        | true =>
          cases more with
          | nil => rfl
          | cons n more => exact hname n more
    · rfl

theorem partsFrom_conjuncts (depth : Int) (between : Bool) (ts : List Token) :
    (partsFrom conjunctStep (depth, between) ts).map (fun p => p.1 :: p.2) =
      Scope.conjunctsFrom depth between ts := by
  induction ts generalizing depth between with
  | nil => rfl
  | cons t r ih =>
    have hkeep (b : Bool) : ((partsFrom conjunctStep (depthAfter depth t, b) r).map
        fun p => (t :: p.1, p.2)).map (fun p => p.1 :: p.2) =
          (Scope.conjunctsFrom (depthAfter depth t) b r).map (consFirst t) := by
      rw [← ih, Option.map_map, Option.map_map]
      rfl
    have hstart : ((partsFrom conjunctStep (depthAfter depth t, false) r).map
        fun p => ([], p.1 :: p.2)).map (fun p => p.1 :: p.2) =
          (Scope.conjunctsFrom (depthAfter depth t) false r).map ([] :: ·) := by
      rw [← ih, Option.map_map, Option.map_map]
      rfl
    rw [Scope.conjunctsFrom_cons, partsFrom, conjunctStep]
    by_cases hdepth : depthAt depth t = 0
    · by_cases hor : t.isOneOf [.or, .xor] = true
      · simp only [if_pos hdepth, if_pos hor, Option.map_none]
      · by_cases hbetween : t.isKeyword .between = true
        · simp only [if_pos hdepth, if_neg hor, if_pos hbetween]
          exact hkeep true
        · by_cases hand : t.isKeyword .and = true
          · simp only [if_pos hdepth, if_neg hor, if_neg hbetween, if_pos hand]
            cases between with
            | true => exact hkeep false
            | false => exact hstart
          · simp only [if_pos hdepth, if_neg hor, if_neg hbetween, if_neg hand]
            exact hkeep between
    · simp only [if_neg hdepth]
      exact hkeep between

theorem conjuncts_eq (condition : List Token) :
    conjuncts condition = .ok (Scope.conjuncts condition) := by
  rw [conjuncts, cutInto_start, partsFrom_conjuncts]
  rfl

theorem bindsTenant_cons {t : Token} {rest : List Token}
    (hother : ¬(rest.length = 1 ∧ t = .operator .eq)) :
    Scope.bindsTenant tenant (t :: rest) =
      (t.isKeyword .in_ && Scope.tenants? tenant rest == some []) := by
  rw [Scope.bindsTenant.eq_def]
  split
  · rename_i u heq
    cases heq
    exact absurd ⟨rfl, rfl⟩ hother
  · rename_i heq
    cases heq
    rfl
  · rename_i heq
    cases heq

/-- A list of tenants ends a condition just when nothing is left behind it. -/
theorem stop_eq_length {n : Nat} (hn : 0 < n) (left : Option (List Token)) :
    ((left.map fun rest => n - rest.length) == some n) = (left == some []) := by
  rcases left with _ | _ | ⟨t, rest⟩
  · rfl
  · exact beq_self_eq_true _
  · have hne : n - (t :: rest).length ≠ n := by
      rw [List.length_cons]
      omega
    rw [Option.map_some]
    exact (beq_eq_false_iff_ne.mpr fun heq => hne (Option.some.inj heq)).trans rfl

theorem bindsTenant_eq (h : HasText tenant) (ts : List Token) :
    bindsTenant tenant ts = .ok (Scope.bindsTenant tenant ts) := by
  cases ts with
  | nil => rfl
  | cons t rest =>
    have hrest : (t :: rest).drop 1 = rest := rfl
    have hequals : guarded ((t :: rest).length = 2) (itemHas (t :: rest) 0 (· == .operator .eq)) =
        .ok (decide (rest.length = 1) && t == .operator .eq) := by
      have hlength : decide ((t :: rest).length = 2) = decide (rest.length = 1) :=
        decide_eq_decide.mpr Nat.succ_inj
      rw [hlength]
      exact guarded_ok _ _
    rw [bindsTenant, hequals, ok_bind]
    by_cases heq : rest.length = 1 ∧ t = .operator .eq
    · obtain ⟨hone, rfl⟩ := heq
      obtain ⟨u, rfl⟩ := List.length_eq_one_iff.mp hone
      exact tenantAt_of_drop h hrest
    · have hno : ¬(decide (rest.length = 1) && t == .operator .eq) = true := by
        simpa using heq
      rw [if_neg hno, itemIs_front, ok_bind, List.head?_cons, Option.any_some,
        tenantsAt_eq h hrest, ok_bind, guarded_ok,
        stop_eq_length (List.length_pos_iff.mpr (List.cons_ne_nil t rest)), bindsTenant_cons heq]

theorem pinsAt_eq (h : HasText tenant) {part : List Token} {place : Nat} (us : List Token)
    (hdrop : part.drop place = us) :
    pinsAt column tenant part place =
      .ok (us.head?.any fun c => Scope.isColumn column c us.tail && Scope.bindsTenant tenant us.tail)
      := by
  cases us with
  | nil =>
    have hend : ¬place < part.length := Nat.not_lt.mpr (List.drop_eq_nil_iff.mp hdrop)
    rw [pinsAt, decide_eq_false hend]
    rfl
  | cons c rest =>
    rw [pinsAt, decide_eq_true (lt_of_drop hdrop), guarded_true, columnAt_eq column hdrop, ok_bind,
      drop_succ hdrop, bindsTenant_eq h, guarded_ok]
    rfl

theorem pins_eq (h : HasText tenant) (owners : List String) (part : List Token) :
    pins column tenant owners part = .ok (Scope.pins column tenant owners part) := by
  have hshort (hlength : part.length < 3) (q c : Token) (rest : List Token) :
      part ≠ q :: .dot :: c :: rest := by
    intro heq
    rw [heq] at hlength
    exact absurd hlength (Nat.not_lt.mpr (Nat.le_add_left 3 rest.length))
  have hplain (hother : ∀ q c rest, part ≠ q :: .dot :: c :: rest) :
      Scope.pins column tenant owners part =
        part.head?.any fun c =>
          Scope.isColumn column c part.tail && Scope.bindsTenant tenant part.tail := by
    rw [Scope.pins.eq_def]
    split
    · exact absurd rfl (hother _ _ _)
    · rfl
    · rfl
  have hdrop : part.drop 0 = part := List.drop_zero
  rw [pins]
  rcases part with _ | ⟨q, _ | ⟨d, _ | ⟨c, rest⟩⟩⟩
  · rfl
  · rw [hplain (hshort (by simp))]
    exact pinsAt_eq h _ hdrop
  · rw [hplain (hshort (by simp))]
    exact pinsAt_eq h _ hdrop
  · have hthree : decide (3 ≤ (q :: d :: c :: rest).length) = true :=
      decide_eq_true (Nat.le_add_left 3 rest.length)
    have hsecond : itemHas (q :: d :: c :: rest) 1 (· == .dot) = .ok (d == .dot) := rfl
    rw [hthree, guarded_true, hsecond, ok_bind]
    by_cases hdot : d = .dot
    · have hback : (q :: d :: c :: rest).drop 2 = c :: rest := rfl
      rw [if_pos (beq_iff_eq.mpr hdot), pinsAt_eq h _ hback, hdot]
      show guarded (q.isIdentifier && owners.contains q.name) _ = _
      rw [guarded_ok]
      exact congrArg Except.ok (Bool.and_assoc _ _ _).symm
    · have hother : ∀ p e more, q :: d :: c :: rest ≠ p :: .dot :: e :: more := by
        intro p e more heq
        cases heq
        exact hdot rfl
      rw [if_neg fun heq => hdot (beq_iff_eq.mp heq), pinsAt_eq h _ hdrop, hplain hother]

theorem anyPins_eq (h : HasText tenant) (owners : List String) (parts : List (List Token)) :
    anyPins column tenant owners parts =
      .ok (parts.any (Scope.pins column tenant owners)) := by
  induction parts with
  | nil => rfl
  | cons part parts ih =>
    rw [anyPins, pins_eq h, ok_bind, ih, List.any_cons]
    cases Scope.pins column tenant owners part <;> rfl

theorem checkBlock_eq (h : HasText tenant) (sections : List Section) :
    checkBlock column tenant sections = .ok (Scope.checkBlock column tenant sections) := by
  have hbody : body .where_ sections = (body? .where_ sections).getD [] := rfl
  rw [checkBlock, Scope.checkBlock, hbody]
  cases body? .where_ sections with
  | none => rfl
  | some condition =>
    cases condition with
    | nil => rfl
    | cons t r =>
      show (conjuncts (t :: r) >>= _) = _
      rw [conjuncts_eq, ok_bind]
      dsimp only [Option.getD_some]
      cases Scope.conjuncts (t :: r) with
      | none => rfl
      | some parts => simp only [firstNames_eq, ok_bind, anyPins_eq h]

theorem checkBlocks_eq (h : HasText tenant) (blocks : List (List Section)) :
    checkBlocks column tenant blocks =
      .ok (blocks.forM (Scope.checkBlock column tenant)) := by
  induction blocks with
  | nil => rfl
  | cons sections more ih =>
    show (checkBlock column tenant sections >>= _) =
      .ok (Scope.checkBlock column tenant sections >>= fun _ => more.forM _)
    rw [checkBlock_eq h, ok_bind]
    cases Scope.checkBlock column tenant sections with
    | error fault => rfl
    | ok _ => exact ih

/-! ### Statements -/

theorem mapM_splitClauses (raws : List (List Token)) :
    raws.mapM splitClauses = ofReading (raws.mapM Sql.splitClauses) := by
  induction raws with
  | nil => rfl
  | cons raw raws ih =>
    rw [List.mapM_cons, List.mapM_cons, splitClauses_eq, ih]
    cases Sql.splitClauses raw with
    | error fault => rfl
    | ok sections => cases raws.mapM Sql.splitClauses <;> rfl

theorem readStatement_eq (sql : List Char) : readStatement sql = .ok (Scope.blocksOf sql) := by
  rw [readStatement, Scope.blocksOf, tokensOf]
  cases tokenize sql with
  | error fault => rfl
  | ok ts =>
    simp only [ofReading, ok_bind, splitUnion_eq]
    cases Sql.splitUnion ts with
    | error fault => rfl
    | ok raws =>
      simp only [ok_bind, mapM_splitClauses]
      cases raws.mapM Sql.splitClauses <;> rfl

theorem checkScope_eq (h : HasText tenant) (sql : List Char) :
    checkScope column tenant sql = .ok (Scope.check column tenant sql) := by
  rw [checkScope, Scope.check]
  split
  · rfl
  · rw [readStatement_eq, ok_bind]
    cases Scope.blocksOf sql with
    | error fault => rfl
    | ok read =>
      obtain ⟨ts, blocks⟩ := read
      simp only [usesPinned_eq h, ok_bind]
      split
      · exact checkBlocks_eq h blocks
      · rfl

end Indexed
end QueryGate
