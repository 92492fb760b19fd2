import QueryGate.Policy.Shipped
import QueryGate.Proofs.Guard.LetterCase
import QueryGate.Proofs.Guard.Wording

/-!
# Letter case never matters

The scope check answers a statement in small letters as it answers the statement, as the guard
does.  So the answers to statements that differ in the case of ASCII letters only are the same.
-/

namespace QueryGate
namespace Scope

open Sql

variable (column : String) (tenant : Int)

/-! ### Tenants -/

theorem isTenant_lowered (t : Token) : isTenant tenant t.lowered = isTenant tenant t := by
  have hdigits : digitsOf? t.lowered = (digitsOf? t).map (·.map Char.toLower) := by
    cases t <;> rfl
  rw [isTenant, isTenant, hdigits]
  cases digitsOf? t with
  | none => rfl
  | some digits =>
    simp only [Option.map_some, Text.isDigits_map_toLower]
    cases h : Text.isDigits digits with
    | false => rfl
    | true => rw [Text.map_toLower_of_isDigits h]

theorem tenantList?_lowered (ts : List Token) :
    tenantList? tenant (ts.map Token.lowered) =
      (tenantList? tenant ts).map (·.map Token.lowered) := by
  fun_induction tenantList? tenant ts with
  | case1 t rest ht =>
    show tenantList? tenant (t.lowered :: .rparen :: rest.map Token.lowered) = _
    rw [tenantList?, isTenant_lowered, if_pos ht]
    rfl
  | case2 t rest ht =>
    show tenantList? tenant (t.lowered :: .rparen :: rest.map Token.lowered) = _
    rw [tenantList?, isTenant_lowered, if_neg ht]
    rfl
  | case3 t rest ht ih =>
    show tenantList? tenant (t.lowered :: .comma :: rest.map Token.lowered) = _
    rw [tenantList?, isTenant_lowered, if_pos ht, ih]
  | case4 t rest ht =>
    show tenantList? tenant (t.lowered :: .comma :: rest.map Token.lowered) = _
    rw [tenantList?, isTenant_lowered, if_neg ht]
    rfl
  | case5 ts hclose hcomma =>
    rcases ts with _ | ⟨t, _ | ⟨d, rest⟩⟩
    · rfl
    · rfl
    · cases d with
      | rparen => exact absurd rfl (hclose t rest)
      | comma => exact absurd rfl (hcomma t rest)
      | _ => rfl

theorem tenants?_lowered (ts : List Token) :
    tenants? tenant (ts.map Token.lowered) = (tenants? tenant ts).map (·.map Token.lowered) := by
  rcases ts with _ | ⟨t, r⟩
  · rfl
  · cases t with
    | lparen => exact tenantList?_lowered tenant r
    | _ => rfl

/-! ### Uses of the tenant column -/

theorem head?_lowered_bne {u : Token} (hu : u.isMark = true) (ts : List Token) :
    ((ts.map Token.lowered).head? != some u) = (ts.head? != some u) := by
  cases ts with
  | nil => rfl
  | cons t r => simp [bne, Bool.beq_eq_decide_eq, Token.lowered_eq_iff hu]

theorem isColumn_lowered (t : Token) (rest : List Token) :
    isColumn column t.lowered (rest.map Token.lowered) = isColumn column t rest := by
  rw [isColumn, isColumn, Token.isIdentifier_lowered, Token.name_lowered,
    head?_lowered_bne rfl, head?_lowered_bne rfl]

theorem comparesBefore_lowered (t : Token) : comparesBefore t.lowered = comparesBefore t := by
  have hkeyword := Token.keyword?_lowered t
  cases t with
  | word letters =>
    rw [Token.lowered] at hkeyword ⊢
    simp only [comparesBefore, hkeyword]
  | _ => rfl

theorem leftNeighbour_lowered (before : List Token) :
    leftNeighbour (before.map Token.lowered) = (leftNeighbour before).map Token.lowered := by
  rcases before with _ | ⟨d, _ | ⟨q, _ | ⟨t, more⟩⟩⟩
  · rfl
  · cases d <;> rfl
  · cases d <;> rfl
  · cases d <;> rfl

theorem pinnedAfter_lowered (ts : List Token) :
    pinnedAfter tenant (ts.map Token.lowered) = pinnedAfter tenant ts := by
  cases ts with
  | nil => rfl
  | cons t r =>
    have hkeyword := Token.keyword?_lowered t
    cases t with
    | operator op =>
      have htenant : isTenant tenant ∘ Token.lowered = isTenant tenant :=
        funext (isTenant_lowered tenant)
      simp only [List.map_cons, Token.lowered, pinnedAfter, List.head?_map, Option.map_map, htenant]
    | word letters =>
      rw [List.map_cons]
      rw [Token.lowered] at hkeyword ⊢
      simp only [pinnedAfter, hkeyword, tenants?_lowered, Option.isSome_map]
    | _ => rfl

theorem usesPinned_lowered (before ts : List Token) :
    usesPinned column tenant (before.map Token.lowered) (ts.map Token.lowered) =
      usesPinned column tenant before ts := by
  induction ts generalizing before with
  | nil => rfl
  | cons t r ih =>
    have hcompares : comparesBefore ∘ Token.lowered = comparesBefore :=
      funext comparesBefore_lowered
    simp only [List.map_cons, usesPinned, isColumn_lowered, leftNeighbour_lowered, Option.map_map,
      hcompares, pinnedAfter_lowered, ← ih (t :: before)]

/-! ### Conditions -/

/-- An alias that is looked for right behind a table is the same one in any letter case. -/
theorem aliasNames_lowered (table : String) (r : List Token) :
    (match r.map Token.lowered with
      | n :: _ => if n.isPlainIdentifier then [table, n.name] else [table]
      | [] => [table]) =
    match r with
      | n :: _ => if n.isPlainIdentifier then [table, n.name] else [table]
      | [] => [table] := by
  cases r with
  | nil => rfl
  | cons n more =>
    simp only [List.map_cons, Token.isPlainIdentifier_lowered, Token.name_lowered]

theorem firstNames_lowered (ts : List Token) :
    firstNames (ts.map Token.lowered) = firstNames ts := by
  cases ts with
  | nil => rfl
  | cons t r =>
    simp only [List.map_cons, firstNames, Token.isIdentifier_lowered, Token.name_lowered]
    split
    · cases r with
      | nil => rfl
      | cons w more =>
        simp only [List.map_cons, isKeyword_lowered]
        by_cases has : w.isKeyword .as_ = true
        · simp only [if_pos has]
          exact aliasNames_lowered t.name more
        · simp only [if_neg has]
          exact aliasNames_lowered t.name (w :: more)
    · rfl

theorem conjunctsFrom_map {f : Token → Token} (hf : Keeps f) (depth : Int) (between : Bool)
    (ts : List Token) :
    conjunctsFrom depth between (ts.map f) =
      (conjunctsFrom depth between ts).map (·.map (·.map f)) := by
  induction ts generalizing depth between with
  | nil => rfl
  | cons t r ih =>
    have hfirst (parts? : Option (List (List Token))) :
        (parts?.map (·.map (·.map f))).map (consFirst (f t)) =
          (parts?.map (consFirst t)).map (·.map (·.map f)) := by
      cases parts? with
      | none => rfl
      | some parts => exact congrArg some (consFirst_map t parts)
    simp only [List.map_cons, conjunctsFrom, depthAt_map hf, depthAfter_map hf, hf.keyword, ih]
    split
    · split
      · rfl
      · rfl
      · exact hfirst _
      · split
        · exact hfirst _
        · cases conjunctsFrom (depthAfter depth t) false r <;> rfl
      · exact hfirst _
    · exact hfirst _

theorem bindsTenant_of_ne {t : Token} (h : t ≠ .operator .eq) (rest : List Token) :
    bindsTenant tenant (t :: rest) = (t.isKeyword .in_ && tenants? tenant rest == some []) := by
  unfold bindsTenant
  split
  · rename_i heq
    cases heq
    exact absurd rfl h
  · rename_i heq
    cases heq
    rfl
  · rename_i heq
    cases heq

theorem bindsTenant_lowered (ts : List Token) :
    bindsTenant tenant (ts.map Token.lowered) = bindsTenant tenant ts := by
  cases ts with
  | nil => rfl
  | cons t rest =>
    by_cases hequal : t = .operator .eq
    · rw [hequal]
      rcases rest with _ | ⟨u, _ | ⟨v, more⟩⟩
      · rfl
      · exact isTenant_lowered tenant u
      · rfl
    · have hother : t.lowered ≠ .operator .eq := by rwa [ne_eq, Token.lowered_eq_iff rfl]
      have hempty : (tenants? tenant (rest.map Token.lowered) == some []) =
          (tenants? tenant rest == some []) := by
        rw [tenants?_lowered]
        cases tenants? tenant rest with
        | none => rfl
        | some left => cases left <;> rfl
      rw [List.map_cons, bindsTenant_of_ne tenant hother, bindsTenant_of_ne tenant hequal,
        isKeyword_lowered, hempty]

theorem pins_lowered (owners : List String) (ts : List Token) :
    pins column tenant owners (ts.map Token.lowered) = pins column tenant owners ts := by
  have hplain (c : Token) (rest : List Token) :
      (isColumn column c.lowered (rest.map Token.lowered) &&
        bindsTenant tenant (rest.map Token.lowered)) =
      (isColumn column c rest && bindsTenant tenant rest) := by
    rw [isColumn_lowered, bindsTenant_lowered]
  rcases ts with _ | ⟨q, _ | ⟨d, _ | ⟨c, rest⟩⟩⟩
  · rfl
  · exact hplain q []
  · have hwhole := hplain q [d]
    cases d <;> exact hwhole
  · have hwhole := hplain q (d :: c :: rest)
    cases d with
    | dot =>
      show (q.lowered.isIdentifier && owners.contains q.lowered.name &&
          isColumn column c.lowered (rest.map Token.lowered) &&
          bindsTenant tenant (rest.map Token.lowered)) =
        (q.isIdentifier && owners.contains q.name && isColumn column c rest &&
          bindsTenant tenant rest)
      rw [Token.isIdentifier_lowered, Token.name_lowered, Bool.and_assoc, hplain, ← Bool.and_assoc]
    | _ => exact hwhole

/-! ### Statements -/

theorem checkBlock_lowered (sections : List Section) :
    checkBlock column tenant (sections.map (Section.map Token.lowered)) =
      checkBlock column tenant sections := by
  have hpins (owners : List String) :
      pins column tenant owners ∘ List.map Token.lowered = pins column tenant owners :=
    funext (pins_lowered column tenant owners)
  have hconjuncts := conjunctsFrom_map keeps_lowered 0 false (body .where_ sections)
  simp only [checkBlock, body_map, firstNames_lowered]
  cases hwhere : body .where_ sections with
  | nil => rfl
  | cons t r =>
    rw [hwhere] at hconjuncts
    simp only [List.map_cons, conjuncts] at hconjuncts ⊢
    rw [hconjuncts]
    cases conjunctsFrom 0 false (t :: r) with
    | none => rfl
    | some parts => simp only [Option.map_some, List.any_map, hpins]

theorem blocksOf_map_toLower (sql : List Char) :
    blocksOf (sql.map Char.toLower) = (blocksOf sql).map fun found =>
      (found.1.map Token.lowered, found.2.map (·.map (Section.map Token.lowered))) := by
  simp only [blocksOf, bind, Except.bind, tokenize_map_toLower]
  cases tokenize sql with
  | error fault => rfl
  | ok ts =>
    simp only [Except.map, splitUnion_map keeps_lowered]
    cases splitUnion ts with
    | error fault => rfl
    | ok blocks =>
      simp only [Except.map, mapM_map (splitClauses_map keeps_lowered)]
      cases blocks.mapM splitClauses <;> rfl

theorem check_map_toLower (sql : List Char) :
    check column tenant (sql.map Char.toLower) = check column tenant sql := by
  rw [check, check, Text.trim_map_toLower, List.isEmpty_map, blocksOf_map_toLower]
  split
  · rfl
  cases blocksOf sql with
  | error fault => rfl
  | ok found =>
    have huses := usesPinned_lowered column tenant [] found.1
    rw [List.map_nil] at huses
    simp only [Except.map, huses, List.forM_eq_forM, List.forM_map, checkBlock_lowered]

theorem holds_map_toLower (sql : List Char) :
    holds column tenant (sql.map Char.toLower) = holds column tenant sql := by
  rw [holds, holds, check_map_toLower]

/-- Texts that differ in the case of ASCII letters only, which is all that `Char.toLower` forgets,
pass the guard together, read the same tables and are scoped to the same tenants. -/
theorem answers_eq_of_toLower_eq (a : AllowList) (tenant : Int) {sql other : List Char}
    (h : sql.map Char.toLower = other.map Char.toLower) :
    Guard.accepts a sql = Guard.accepts a other ∧ Guard.tablesOf sql = Guard.tablesOf other ∧
      holds a.tenantColumn tenant sql = holds a.tenantColumn tenant other := by
  refine ⟨?_, ?_, ?_⟩
  · rw [← Guard.accepts_map_toLower, h, Guard.accepts_map_toLower]
  · rw [← Guard.tablesOf_map_toLower, h, Guard.tablesOf_map_toLower]
  · rw [← holds_map_toLower, h, holds_map_toLower]

/-- A statement in which keywords, names and a function have capital letters. -/
def capitalText : List Char :=
  "SELECT COUNT(D.ID) AS \x60N\x60 FROM Daily_Check D WHERE RESTAURANT_ID = 74 LIMIT 5".toList

/-- The statement in small letters. -/
def smallText : List Char :=
  "select count(d.id) as \x60n\x60 from daily_check d where restaurant_id = 74 limit 5".toList

theorem answers_eq_for_capitalText :
    capitalText.map Char.toLower = smallText.map Char.toLower ∧ capitalText ≠ smallText ∧
      Guard.accepts Policy.shipped capitalText = true ∧
      Guard.tablesOf capitalText = ["daily_check"] ∧
      holds Policy.shipped.tenantColumn 74 capitalText = true := by
  have hletters : capitalText.map Char.toLower = smallText.map Char.toLower := by decide +kernel
  obtain ⟨haccepts, htables, hscope⟩ := answers_eq_of_toLower_eq Policy.shipped 74 hletters
  rw [haccepts, htables, hscope]
  refine ⟨hletters, ?_, ?_, ?_, ?_⟩
  · decide +kernel
  · exact Guard.accepts_of_isQuietQuery (by decide +kernel)
  · decide +kernel
  · decide +kernel

end Scope
end QueryGate
