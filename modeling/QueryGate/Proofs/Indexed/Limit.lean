import QueryGate.Proofs.Indexed.Selection
import QueryGate.Proofs.Text.Numeral

/-!
# Limits, checked by place

A count of rows always has few enough digits to be read and to be written again.  The bound that it
is compared with comes from elsewhere, and a message that shows it can fail.
-/

namespace QueryGate
namespace Indexed

open Sql Guard

variable {α β : Type} (a : AllowList)

/-! ### Messages that show a bound -/

/-- The run of a check of an allow-list, whose bound may have too many digits to be written. -/
def reported (a : AllowList) (checked : Except Rejection α) : Run α :=
  match checked with
  | .error (.tooManyRows rows bound) =>
    if HasText a.maxLimit then reject (.tooManyRows rows bound) else .error .longNumber
  | .error why => reject why
  | .ok x => .ok x

theorem reported_bind (checked : Except Rejection α) (next : α → Except Rejection β) :
    reported a (checked >>= next) = (reported a checked >>= fun x => reported a (next x)) := by
  cases checked with
  | ok x => rfl
  | error why =>
    cases why with
    | tooManyRows rows bound =>
      show reported a (.error (.tooManyRows rows bound)) =
        (reported a (.error (.tooManyRows rows bound)) >>= _)
      rw [reported, reported]
      split <;> rfl
    | _ => rfl

/-- A check that does not reject a number of rows. -/
def CountsNoRows (checked : Except Rejection α) : Prop :=
  ∀ rows bound, checked ≠ .error (.tooManyRows rows bound)

theorem reported_of_countsNoRows {checked : Except Rejection α} (h : CountsNoRows checked) :
    reported a checked = ofCheck checked := by
  cases checked with
  | ok x => rfl
  | error why =>
    cases why with
    | tooManyRows rows bound => exact absurd rfl (h rows bound)
    | _ => rfl

theorem reported_then {checked : Except Rejection α} (h : CountsNoRows checked)
    (next : α → Except Rejection β) :
    reported a (checked >>= next) = (ofCheck checked >>= fun x => reported a (next x)) := by
  rw [reported_bind, reported_of_countsNoRows a h]

theorem CountsNoRows.ok (x : α) : CountsNoRows (.ok x) := by
  rintro _ _ ⟨⟩

/-- The rejection of one check passed on by another. -/
theorem CountsNoRows.passedOn {checked : Except Rejection α} (h : CountsNoRows checked)
    {why : Rejection} (hwhy : checked = .error why) :
    CountsNoRows (.error why : Except Rejection β) := by
  intro rows bound heq
  cases heq
  exact h rows bound hwhy

theorem CountsNoRows.bind {checked : Except Rejection α} {next : α → Except Rejection β}
    (h : CountsNoRows checked) (hnext : ∀ x, CountsNoRows (next x)) :
    CountsNoRows (checked >>= next) := by
  cases checked with
  | ok x => exact hnext x
  | error why => exact h.passedOn rfl

theorem CountsNoRows.mapM {f : α → Except Rejection β} (h : ∀ x, CountsNoRows (f x))
    (xs : List α) : CountsNoRows (xs.mapM f) := by
  induction xs with
  | nil => exact .ok _
  | cons x xs ih =>
    rw [List.mapM_cons]
    exact (h x).bind fun _ => ih.bind fun _ => .ok _

theorem CountsNoRows.forM {f : α → Except Rejection Unit} (h : ∀ x, CountsNoRows (f x))
    (xs : List α) : CountsNoRows (xs.forM f) := by
  induction xs with
  | nil => exact .ok _
  | cons x xs ih => exact (h x).bind fun _ => ih

/-! ### Counts of rows -/

theorem lt_pow_of_lt {n m k : Nat} (h : n < Nat.pow 10 m) (hle : m ≤ k) : n < Nat.pow 10 k :=
  Nat.lt_of_lt_of_le h (Nat.pow_le_pow_right (by decide) hle)

theorem hasText_of_lt {n m : Nat} (h : n < Nat.pow 10 m) (hle : m ≤ Whole.maxDigits) : HasText n := by
  show (n : Int).natAbs < Nat.pow 10 Whole.maxDigits
  rw [Int.natAbs_natCast]
  exact lt_pow_of_lt h hle

/-- A count of rows is short enough to be read, and to be written again. -/
theorem wholeNumber_of_rowCount? {t : Token} {n : Nat} (h : rowCount? t = some n) :
    wholeNumber t.written = .ok (n : Int) ∧ HasText n := by
  cases t with
  | number digits =>
    rw [rowCount?] at h
    split at h
    · rename_i hcount
      obtain ⟨hdigits, hlength⟩ := Bool.and_eq_true_iff.mp hcount
      have hle : digits.length ≤ 18 := of_decide_eq_true hlength
      have hall := List.all_eq_true.mp (Bool.and_eq_true_iff.mp hdigits).2
      cases h
      have hmax : digits.length ≤ Whole.maxDigits := Nat.le_trans hle (by decide)
      constructor
      · rw [wholeNumber, Token.written, Whole.ofText_digits _ hdigits hmax]
      · exact hasText_of_lt (Text.digitsValue_lt hall) hmax
    · cases h
  | _ => cases h

theorem isRowCount_eq (t : Token) : isRowCount t = (rowCount? t).isSome := by
  cases t with
  | number digits =>
    rw [isRowCount, rowCount?]
    split
    · rename_i h
      rw [h]
      rfl
    · rename_i h
      rw [Bool.eq_false_iff.mpr h]
      rfl
  | _ => rfl

theorem rowsAt_of_rowCount? {limit : List Token} {place : Nat} {t : Token} {n : Nat}
    (hitem : item limit place = .ok t) (h : rowCount? t = some n) :
    rowsAt limit place = .ok (n : Int) := by
  rw [rowsAt, hitem, ok_bind, (wholeNumber_of_rowCount? h).1]

theorem length_filter_isRowCount (t : Token) (r : List Token) :
    ((t :: r).filter isRowCount).length =
      (rowCount? t).isSome.toNat + (r.filter isRowCount).length := by
  rw [List.filter_cons, isRowCount_eq]
  cases rowCount? t <;> simp [Nat.add_comm]

/-- Of three tokens the one between the others is read once two of them are counts of rows. -/
theorem limitRows_ofThree (m between n : Token) :
    limitRows [m, between, n] =
      if (rowCount? m).isSome.toNat + ((rowCount? between).isSome.toNat +
          (rowCount? n).isSome.toNat) = 2 then
        if between = .comma then rowsAt [m, between, n] 2
        else if between.isKeyword .offset then rowsAt [m, between, n] 0
        else reject .rowCount
      else reject .rowCount := by
  have hcounts : ([m, between, n].filter isRowCount).length = (rowCount? m).isSome.toNat +
      ((rowCount? between).isSome.toNat + (rowCount? n).isSome.toNat) := by
    simp only [length_filter_isRowCount, List.filter_nil, List.length_nil, Nat.add_zero]
  have hlong (count : Nat) : ¬((3 : Nat) = 1 ∧ count = 1) := by
    rintro ⟨hthree, _⟩
    cases hthree
  rw [limitRows, hcounts]
  refine (if_neg (hlong _)).trans ?_
  exact if_congr (and_iff_right rfl) rfl rfl

theorem rowCount?_of_isKeyword {t : Token} {k : Keyword} (h : t.isKeyword k = true) :
    rowCount? t = none := by
  cases t with
  | word letters => rfl
  | _ => cases h

theorem limitRows_three (m between n : Token) :
    limitRows [m, between, n] =
      match limitRows? [m, between, n] with
      | some rows => .ok (rows : Int)
      | none => reject .rowCount := by
  rw [limitRows_ofThree, limitRows?]
  by_cases hcomma : between = .comma
  · rw [if_pos hcomma, hcomma]
    cases hm : rowCount? m with
    | none => cases rowCount? n <;> rfl
    | some first =>
      cases hn : rowCount? n with
      | none => rfl
      | some second => exact rowsAt_of_rowCount? rfl hn
  · rw [if_neg hcomma]
    by_cases hoffset : between.isKeyword .offset = true
    · rw [if_pos hoffset, rowCount?_of_isKeyword hoffset]
      cases hm : rowCount? m with
      | none => cases rowCount? n <;> rfl
      | some first =>
        cases hn : rowCount? n with
        | none => rfl
        | some second =>
          simp only [if_neg hcomma, if_pos hoffset]
          exact rowsAt_of_rowCount? rfl hm
    · rw [if_neg hoffset, ite_self]
      cases rowCount? m with
      | none => rfl
      | some first =>
        cases rowCount? n with
        | none => rfl
        | some second => simp only [if_neg hcomma, if_neg hoffset]

/-- The row counts of a limit are those that the limit has as a whole. -/
theorem limitRows_eq (limit : List Token) :
    limitRows limit =
      match limitRows? limit with
      | some n => .ok (n : Int)
      | none => reject .rowCount := by
  rcases limit with _ | ⟨m, _ | ⟨between, _ | ⟨n, _ | ⟨t, r⟩⟩⟩⟩
  · rfl
  · have hcount : ([m].filter isRowCount).length = (rowCount? m).isSome.toNat :=
      length_filter_isRowCount m []
    rw [limitRows, hcount]
    cases hm : rowCount? m with
    | none => simp [limitRows?, hm]
    | some first =>
      have hrows : rowsAt [m] 0 = .ok (first : Int) := rowsAt_of_rowCount? rfl hm
      simp [limitRows?, hm, hrows]
  · rfl
  · exact limitRows_three m between n
  · have hlength : (m :: between :: n :: t :: r).length = r.length + 4 := rfl
    rw [limitRows, hlength, if_neg fun h => by omega, if_neg fun h => by omega]
    rfl

theorem hasText_of_limitRows? {limit : List Token} {n : Nat} (h : limitRows? limit = some n) :
    HasText n := by
  rw [limitRows?.eq_def] at h
  split at h
  · exact (wholeNumber_of_rowCount? h).2
  · split at h
    · rename_i first second hfirst hsecond
      split at h
      · cases h
        exact (wholeNumber_of_rowCount? hsecond).2
      · split at h
        · cases h
          exact (wholeNumber_of_rowCount? hfirst).2
        · cases h
    · cases h
  · cases h

theorem checkRows_eq {b : Block} {q : Query} (h : StandsFor b q) :
    checkRows a b = reported a (Guard.checkRows a q) := by
  rw [checkRows, h.limit_eq, Guard.checkRows]
  cases q.limit with
  | none => rfl
  | some limit =>
    simp only [limitRows_eq]
    cases hrows : limitRows? limit with
    | none => rfl
    | some rows =>
      simp only [ok_bind]
      by_cases hmany : a.maxLimit < rows
      · rw [if_pos hmany, if_pos hmany, tooManyRows, decimalText,
          if_pos (hasText_of_limitRows? hrows), ok_bind, decimalText, reported]
        split
        · rfl
        · rfl
      · rw [if_neg hmany, if_neg hmany]
        rfl

end Indexed
end QueryGate
