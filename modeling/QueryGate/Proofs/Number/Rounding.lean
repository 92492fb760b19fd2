import QueryGate.Number.Binary64
import Mathlib.Algebra.Order.Field.Rat
import Mathlib.Algebra.Order.Group.Synonym
import Mathlib.Algebra.Order.Monoid.Prod
import Mathlib.Data.Prod.Lex
import Mathlib.Algebra.Order.Field.Power
import Mathlib.Tactic.Linarith
import Mathlib.Tactic.Ring
import Mathlib.Tactic.FieldSimp
import Mathlib.Tactic.NormNum
import Mathlib.Tactic.Positivity

/-!
# Rounding keeps the order

A double stands at a place of the number line, or beyond one of its ends.  Rounding a quotient to
the nearest double never turns two quotients round, so sums and differences that are in order are
in order once they are rounded.
-/

namespace QueryGate
namespace Binary64

/-! ### The place of a double -/

/-- What a mantissa and an exponent stand for. -/
def scaled (mantissa exponent : Int) : ℚ := mantissa * 2 ^ exponent

/-- The place of a double: which end of the number line it is beyond, if any, and where it is on
the line.  What is not a number has no place of its own. -/
def place : Binary64 → ℤ ×ₗ ℚ
  | nan => toLex (0, 0)
  | infinite negative => toLex (if negative then -1 else 1, 0)
  | finite negative mantissa exponent => toLex (0, scaled (signed negative mantissa) exponent)

/-- Whether a double is not a number. -/
def isNaN : Binary64 → Bool
  | nan => true
  | _ => false

theorem cast_pow_toNat {e : ℤ} (h : 0 ≤ e) : ((Nat.pow 2 e.toNat : ℕ) : ℚ) = 2 ^ e := by
  rw [Nat.pow_eq, Nat.cast_pow, Nat.cast_ofNat, ← zpow_natCast, Int.toNat_of_nonneg h]

theorem scaled_shift (m : ℤ) {e d : ℤ} (h : d ≤ e) :
    scaled (m * Nat.pow 2 (e - d).toNat) d = scaled m e := by
  have hpow : ((Nat.pow 2 (e - d).toNat : ℕ) : ℚ) = 2 ^ (e - d) := cast_pow_toNat (by omega)
  unfold scaled
  rw [Int.cast_mul, Int.cast_natCast, hpow, mul_assoc, ← zpow_add₀ (by norm_num : (2 : ℚ) ≠ 0)]
  congr 2
  omega

theorem scaled_lt_scaled {m n e : ℤ} : scaled m e < scaled n e ↔ m < n := by
  have hpow : (0 : ℚ) < 2 ^ e := by positivity
  unfold scaled
  rw [mul_lt_mul_iff_left₀ hpow, Int.cast_lt]

/-- One double is less than another if it comes first on the line. -/
theorem lt_iff {x y : Binary64} :
    x.lt y = true ↔ x.isNaN = false ∧ y.isNaN = false ∧ x.place < y.place := by
  cases x with
  | nan => simp [lt, isNaN]
  | infinite a =>
    cases y with
    | nan => simp [lt, isNaN]
    | infinite b => cases a <;> cases b <;> simp [lt, isNaN, place, Prod.Lex.toLex_lt_toLex]
    | finite b n d => cases a <;> simp [lt, isNaN, place, Prod.Lex.toLex_lt_toLex]
  | finite a m e =>
    cases y with
    | nan => simp [lt, isNaN]
    | infinite b => cases b <;> simp [lt, isNaN, place, Prod.Lex.toLex_lt_toLex]
    | finite b n d =>
      have hx := scaled_shift (signed a m) (min_le_left e d)
      have hy := scaled_shift (signed b n) (min_le_right e d)
      simp only [lt, isNaN, place, Prod.Lex.toLex_lt_toLex, decide_eq_true_eq, lt_irrefl, true_and,
        false_or, ← hx, ← hy, scaled_lt_scaled]

/-- Of numbers one is at most another if the other one is not less. -/
theorem lt_eq_false_iff {x y : Binary64} (hx : x.isNaN = false) (hy : y.isNaN = false) :
    y.lt x = false ↔ x.place ≤ y.place := by
  rw [← not_lt, ← Bool.not_eq_true, lt_iff]
  simp [hx, hy]

theorem place_neg (x : Binary64) : x.neg.place = -x.place := by
  cases x with
  | nan => rfl
  | infinite a => cases a <;> rfl
  | finite a m e =>
    have hsigned : signed (!a) m = -signed a m := by cases a <;> simp [signed]
    simp only [neg, place, hsigned, scaled, Int.cast_neg, neg_mul]
    rfl

/-! ### The nearest whole number -/

/-- Whether a number is rounded to `k` at most: it is less than halfway to the next whole number, or
halfway when `k` is even. -/
def RoundsDown (k : ℕ) (x : ℚ) : Prop := x < k + 1 / 2 ∨ x = k + 1 / 2 ∧ k % 2 = 0

theorem RoundsDown.mono {k : ℕ} {x y : ℚ} (hxy : x ≤ y) (h : RoundsDown k y) : RoundsDown k x := by
  rcases h with h | ⟨h, hk⟩
  · exact Or.inl (hxy.trans_lt h)
  · rcases hxy.lt_or_eq with hlt | heq
    · exact Or.inl (hlt.trans_eq h)
    · exact Or.inr ⟨heq.trans h, hk⟩

/-- Of a quotient and a remainder the remainder decides. -/
theorem nearest_le_iff_nat {num den k : ℕ} (hden : 0 < den) :
    nearest num den ≤ k ↔
      2 * num < (2 * k + 1) * den ∨ 2 * num = (2 * k + 1) * den ∧ k % 2 = 0 := by
  have hnum : den * (num / den) + num % den = num := Nat.div_add_mod num den
  have hrest : num % den < den := Nat.mod_lt num hden
  simp only [nearest]
  generalize num / den = q at *
  generalize num % den = r at *
  rcases Nat.lt_trichotomy k q with hk | rfl | hk
  · obtain ⟨j, rfl⟩ := Nat.exists_eq_add_of_lt hk
    have hexpand : den * (k + j + 1) = k * den + j * den + den := by ring
    have hodd : (2 * k + 1) * den = 2 * (k * den) + den := by ring
    rw [hodd]
    constructor
    · intro h
      split_ifs at h <;> omega
    · omega
  · have hcomm : den * k = k * den := Nat.mul_comm den k
    have hodd : (2 * k + 1) * den = 2 * (k * den) + den := by ring
    rw [hodd]
    split_ifs <;> omega
  · obtain ⟨j, rfl⟩ := Nat.exists_eq_add_of_lt hk
    have hcomm : den * q = q * den := Nat.mul_comm den q
    have hodd : (2 * (q + j + 1) + 1) * den = 2 * (q * den) + 2 * (j * den) + 3 * den := by ring
    rw [hodd]
    constructor
    · intro _
      left
      omega
    · intro _
      split_ifs <;> omega

theorem nearest_le_iff {num den k : ℕ} (hden : 0 < den) :
    nearest num den ≤ k ↔ RoundsDown k ((num : ℚ) / den) := by
  have hpos : (0 : ℚ) < den := by exact_mod_cast hden
  have hhalf : ((k : ℚ) + 1 / 2) * den * 2 = (2 * k + 1) * den := by ring
  have hlt : (num : ℚ) / den < k + 1 / 2 ↔ 2 * num < (2 * k + 1) * den := by
    rw [div_lt_iff₀ hpos, ← Nat.cast_lt (α := ℚ)]
    push_cast
    constructor <;> intro h <;> linarith
  have heq : (num : ℚ) / den = k + 1 / 2 ↔ 2 * num = (2 * k + 1) * den := by
    rw [div_eq_iff hpos.ne', ← Nat.cast_inj (R := ℚ)]
    push_cast
    constructor <;> intro h <;> linarith
  rw [nearest_le_iff_nat hden, RoundsDown, hlt, heq]

theorem nearestScaled_le_iff {num den k : ℕ} (hden : 0 < den) (e : ℤ) :
    nearestScaled num den e ≤ k ↔ RoundsDown k ((num : ℚ) / den / 2 ^ e) := by
  unfold nearestScaled
  split
  · rename_i he
    have hscale : 0 < Nat.pow 2 e.toNat := Nat.pow_pos (by decide)
    rw [nearest_le_iff (Nat.mul_pos hden hscale), Nat.cast_mul,
      cast_pow_toNat he, div_div]
  · rename_i he
    rw [nearest_le_iff hden, Nat.cast_mul, cast_pow_toNat (by omega), zpow_neg]
    congr! 1
    rw [← div_eq_mul_inv, div_right_comm]

theorem nearestScaled_mono {num den num' den' : ℕ} (hden : 0 < den) (hden' : 0 < den')
    (h : (num : ℚ) / den ≤ (num' : ℚ) / den') (e : ℤ) :
    nearestScaled num den e ≤ nearestScaled num' den' e := by
  have hpow : (0 : ℚ) < 2 ^ e := by positivity
  rw [nearestScaled_le_iff hden]
  exact ((nearestScaled_le_iff hden' e).mp le_rfl).mono (div_le_div_of_nonneg_right h hpow.le)

/-! ### The exponent of a quotient -/

theorem two_zpow_add (a b : ℤ) : (2 : ℚ) ^ (a + b) = 2 ^ a * 2 ^ b :=
  zpow_add₀ (by norm_num) a b

theorem two_zpow_lt {a b : ℤ} : (2 : ℚ) ^ a < 2 ^ b ↔ a < b :=
  zpow_lt_zpow_iff_right₀ (by norm_num)

theorem two_zpow_le {a b : ℤ} : (2 : ℚ) ^ a ≤ 2 ^ b ↔ a ≤ b :=
  zpow_le_zpow_iff_right₀ (by norm_num)

theorem log2_bounds {n : ℕ} (hn : 0 < n) :
    (2 : ℚ) ^ (n.log2 : ℤ) ≤ n ∧ (n : ℚ) < 2 ^ ((n.log2 : ℤ) + 1) := by
  have hlow : 2 ^ n.log2 ≤ n := Nat.log2_self_le hn.ne'
  have hhigh : n < 2 ^ (n.log2 + 1) := Nat.lt_log2_self
  constructor
  · rw [zpow_natCast]
    exact_mod_cast hlow
  · rw [show (n.log2 : ℤ) + 1 = ((n.log2 + 1 : ℕ) : ℤ) by push_cast; rfl, zpow_natCast]
    exact_mod_cast hhigh

/-- At its exponent a quotient has a mantissa of fifty-three bits. -/
theorem ratioExponent_bounds {num den : ℕ} (hnum : 0 < num) (hden : 0 < den) :
    (2 : ℚ) ^ (ratioExponent num den + 52) ≤ (num : ℚ) / den ∧
      (num : ℚ) / den < 2 ^ (ratioExponent num den + 53) := by
  obtain ⟨hnlow, hnhigh⟩ := log2_bounds hnum
  obtain ⟨hdlow, hdhigh⟩ := log2_bounds hden
  have hpos : (0 : ℚ) < den := by exact_mod_cast hden
  have hnpos : (0 : ℚ) < num := by exact_mod_cast hnum
  generalize hguess : (num.log2 : ℤ) - den.log2 - 52 = guess
  have hlow : (2 : ℚ) ^ (guess + 51) < (num : ℚ) / den := by
    rw [lt_div_iff₀ hpos]
    calc (2 : ℚ) ^ (guess + 51) * den < 2 ^ (guess + 51) * 2 ^ ((den.log2 : ℤ) + 1) := by gcongr
      _ = 2 ^ (num.log2 : ℤ) := by rw [← two_zpow_add]; congr 1; omega
      _ ≤ num := hnlow
  have hhigh : (num : ℚ) / den < 2 ^ (guess + 53) := by
    rw [div_lt_iff₀ hpos]
    calc (num : ℚ) < 2 ^ ((num.log2 : ℤ) + 1) := hnhigh
      _ = 2 ^ (guess + 53) * 2 ^ (den.log2 : ℤ) := by rw [← two_zpow_add]; congr 1; omega
      _ ≤ 2 ^ (guess + 53) * den := by gcongr
  simp only [ratioExponent, hguess]
  generalize hlarge : (if 0 ≤ guess then decide (Nat.pow 2 52 * den * Nat.pow 2 guess.toNat ≤ num)
      else decide (Nat.pow 2 52 * den ≤ num * Nat.pow 2 (-guess).toNat)) = large
  have hlarge : large = true ↔ (2 : ℚ) ^ (guess + 52) ≤ (num : ℚ) / den := by
    rw [← hlarge]
    rw [le_div_iff₀ hpos, two_zpow_add]
    have h52 : ((Nat.pow 2 52 : ℕ) : ℚ) = 2 ^ (52 : ℤ) := cast_pow_toNat (by decide : (0 : ℤ) ≤ 52)
    split
    · rename_i hg
      rw [decide_eq_true_eq, ← Nat.cast_le (α := ℚ), Nat.cast_mul, Nat.cast_mul,
        cast_pow_toNat hg, h52]
      constructor <;> intro h <;> linarith
    · rename_i hg
      have hgpos : (0 : ℚ) < 2 ^ guess := by positivity
      rw [decide_eq_true_eq, ← Nat.cast_le (α := ℚ), Nat.cast_mul, Nat.cast_mul,
        cast_pow_toNat (by omega : (0 : ℤ) ≤ -guess), h52, zpow_neg, ← div_eq_mul_inv,
        le_div_iff₀ hgpos]
      constructor <;> intro h <;> linarith
  cases large with
  | true => exact ⟨hlarge.mp rfl, hhigh⟩
  | false =>
    have hsmall : (num : ℚ) / den < 2 ^ (guess + 52) :=
      lt_of_not_ge fun hge => Bool.false_ne_true (hlarge.mpr hge)
    rw [if_neg Bool.false_ne_true]
    refine ⟨?_, ?_⟩
    · rw [show guess - 1 + 52 = guess + 51 by omega]
      exact hlow.le
    · rw [show guess - 1 + 53 = guess + 52 by omega]
      exact hsmall

theorem ratioExponent_mono {num den num' den' : ℕ} (hnum : 0 < num) (hden : 0 < den)
    (hnum' : 0 < num') (hden' : 0 < den') (h : (num : ℚ) / den ≤ (num' : ℚ) / den') :
    ratioExponent num den ≤ ratioExponent num' den' := by
  have hbetween : (2 : ℚ) ^ (ratioExponent num den + 52) < 2 ^ (ratioExponent num' den' + 53) :=
    calc _ ≤ (num : ℚ) / den := (ratioExponent_bounds hnum hden).1
      _ ≤ (num' : ℚ) / den' := h
      _ < _ := (ratioExponent_bounds hnum' hden').2
  have hexponents := two_zpow_lt.mp hbetween
  omega

/-! ### Rounding without an end of the line -/

/-- The exponent that a quotient is rounded at. -/
def roundingExponent (num den : ℕ) : ℤ := max (ratioExponent num den) minExponent

/-- The mantissa that a quotient is rounded to. -/
def roundingMantissa (num den : ℕ) : ℕ := nearestScaled num den (roundingExponent num den)

/-- A quotient as it is rounded when no number is too large. -/
def rounded (num den : ℕ) : ℚ :=
  if num = 0 then 0 else scaled (roundingMantissa num den) (roundingExponent num den)

section Quotient

variable {num den num' den' : ℕ}

theorem roundingMantissa_le (hnum : 0 < num) (hden : 0 < den) :
    roundingMantissa num den ≤ 2 ^ 53 := by
  have hpow : (0 : ℚ) < 2 ^ roundingExponent num den := by positivity
  have hexponent : ratioExponent num den + 53 ≤ 53 + roundingExponent num den := by
    unfold roundingExponent
    omega
  have hsmall : (num : ℚ) / den / 2 ^ roundingExponent num den < 2 ^ (53 : ℤ) := by
    rw [div_lt_iff₀ hpow, ← two_zpow_add]
    exact (ratioExponent_bounds hnum hden).2.trans_le (two_zpow_le.mpr hexponent)
  refine (nearestScaled_le_iff hden _).mpr (Or.inl (hsmall.trans ?_))
  norm_num

/-- Above the smallest exponent no bit is lost. -/
theorem le_roundingMantissa (hnum : 0 < num) (hden : 0 < den)
    (hexponent : minExponent < roundingExponent num den) :
    2 ^ 52 ≤ roundingMantissa num den := by
  have hsame : roundingExponent num den = ratioExponent num den := by
    unfold roundingExponent at hexponent ⊢
    omega
  have hpow : (0 : ℚ) < 2 ^ ratioExponent num den := by positivity
  have hlarge : (2 : ℚ) ^ (52 : ℤ) ≤ (num : ℚ) / den / 2 ^ ratioExponent num den := by
    rw [le_div_iff₀ hpow, ← two_zpow_add, add_comm]
    exact (ratioExponent_bounds hnum hden).1
  by_contra hless
  have hmost : nearestScaled num den (roundingExponent num den) ≤ 2 ^ 52 - 1 := by
    unfold roundingMantissa at hless
    omega
  have hdown := (nearestScaled_le_iff hden _).mp hmost
  rw [hsame] at hdown
  norm_num at hlarge
  rcases hdown with hdown | ⟨hdown, _⟩
  · norm_num at hdown
    linarith
  · norm_num at hdown
    linarith

theorem rounded_nonneg : 0 ≤ rounded num den := by
  unfold rounded scaled
  split
  · exact le_rfl
  · positivity

theorem rounded_mono (hden : 0 < den) (hden' : 0 < den')
    (h : (num : ℚ) / den ≤ (num' : ℚ) / den') : rounded num den ≤ rounded num' den' := by
  rcases Nat.eq_zero_or_pos num with rfl | hnum
  · rw [rounded, if_pos rfl]
    exact rounded_nonneg
  have hnum' : 0 < num' := by
    have hleft : (0 : ℚ) < num / den := by positivity
    have hright := hleft.trans_le h
    rcases Nat.eq_zero_or_pos num' with rfl | hpos
    · simp at hright
    · exact hpos
  have hexponents : roundingExponent num den ≤ roundingExponent num' den' :=
    max_le_max_right _ (ratioExponent_mono hnum hden hnum' hden' h)
  rw [rounded, rounded, if_neg hnum.ne', if_neg hnum'.ne']
  rcases hexponents.eq_or_lt with heq | hlt
  · have hmantissas : roundingMantissa num den ≤ roundingMantissa num' den' := by
      unfold roundingMantissa
      rw [heq]
      exact nearestScaled_mono hden hden' h _
    unfold scaled
    rw [heq]
    gcongr
  · -- the larger quotient has one bit more before rounding, and rounding does not lose it
    have hfull : 2 ^ 52 ≤ roundingMantissa num' den' :=
      le_roundingMantissa hnum' hden' ((le_max_right _ _).trans_lt hlt)
    have hmost : roundingMantissa num den ≤ 2 ^ 53 := roundingMantissa_le hnum hden
    unfold scaled
    rw [Int.cast_natCast, Int.cast_natCast]
    calc (roundingMantissa num den : ℚ) * 2 ^ roundingExponent num den
        ≤ 2 ^ (53 : ℤ) * 2 ^ roundingExponent num den := by
          gcongr
          exact_mod_cast hmost
      _ = 2 ^ (52 : ℤ) * 2 ^ (roundingExponent num den + 1) := by
          rw [← two_zpow_add, ← two_zpow_add]
          congr 1
          omega
      _ ≤ 2 ^ (52 : ℤ) * 2 ^ roundingExponent num' den' := by
          gcongr
          · norm_num
          · omega
      _ ≤ roundingMantissa num' den' * 2 ^ roundingExponent num' den' := by
          gcongr
          exact_mod_cast hfull

end Quotient

/-! ### Rounding to a double -/

/-- Where a nonnegative number is put: beyond the line when it is too large. -/
def clip (x : ℚ) : ℤ ×ₗ ℚ := if 2 ^ (1024 : ℤ) ≤ x then toLex (1, 0) else toLex (0, x)

theorem clip_mono {x y : ℚ} (h : x ≤ y) : clip x ≤ clip y := by
  unfold clip
  split
  · rename_i hx
    rw [if_pos (hx.trans h)]
  · split
    · exact Prod.Lex.toLex_le_toLex.mpr (Or.inl zero_lt_one)
    · exact Prod.Lex.toLex_le_toLex.mpr (Or.inr ⟨rfl, h⟩)

theorem place_pack (m : ℕ) (e : ℤ) :
    (pack false m e).place = if maxExponent < e then toLex (1, 0) else toLex (0, scaled m e) := by
  unfold pack
  split <;> rfl

/-- A mantissa that fills its bits runs out of the doubles just when its exponent does. -/
theorem maxExponent_lt_iff {m : ℕ} {e : ℤ} (hfull : minExponent < e → 2 ^ 52 ≤ m)
    (hless : m < 2 ^ 53) : maxExponent < e ↔ (2 : ℚ) ^ (1024 : ℤ) ≤ scaled m e := by
  unfold scaled
  rw [Int.cast_natCast]
  constructor
  · intro he
    have hmantissa : 2 ^ 52 ≤ m := hfull (by unfold minExponent; unfold maxExponent at he; omega)
    calc (2 : ℚ) ^ (1024 : ℤ) ≤ 2 ^ ((52 : ℤ) + e) :=
          two_zpow_le.mpr (by unfold maxExponent at he; omega)
      _ = 2 ^ (52 : ℤ) * 2 ^ e := two_zpow_add _ _
      _ ≤ m * 2 ^ e := by
        gcongr
        exact_mod_cast hmantissa
  · intro hlarge
    have hbelow : (m : ℚ) * 2 ^ e < 2 ^ ((53 : ℤ) + e) := by
      rw [two_zpow_add]
      gcongr
      exact_mod_cast hless
    have hexponents := two_zpow_lt.mp (hlarge.trans_lt hbelow)
    unfold maxExponent
    omega

/-- A mantissa that has reached the next power of two takes one bit more of exponent. -/
theorem scaled_carry (e : ℤ) : scaled (2 ^ 52 : ℕ) (e + 1) = scaled (2 ^ 53 : ℕ) e := by
  unfold scaled
  rw [two_zpow_add]
  norm_num
  ring

theorem maxExponent_lt_succ_iff (e : ℤ) :
    maxExponent < e + 1 ↔ (2 : ℚ) ^ (1024 : ℤ) ≤ scaled (2 ^ 53 : ℕ) e := by
  rw [← scaled_carry]
  exact maxExponent_lt_iff (fun _ => le_rfl) (by norm_num)

theorem place_ofRatio {num den : ℕ} (hden : 0 < den) :
    (ofRatio false num den).place = clip (rounded num den) := by
  rcases Nat.eq_zero_or_pos num with rfl | hnum
  · simp [ofRatio, rounded, place, signed, scaled, clip]
  have hmost : roundingMantissa num den ≤ 2 ^ 53 := roundingMantissa_le hnum hden
  have hfull := le_roundingMantissa hnum hden
  have hpow : Nat.pow 2 53 = 2 ^ 53 := rfl
  simp only [ofRatio, rounded, if_neg hnum.ne', clip]
  change (if roundingMantissa num den = Nat.pow 2 53
    then pack false (Nat.pow 2 52) (roundingExponent num den + 1)
    else pack false (roundingMantissa num den) (roundingExponent num den)).place = _
  generalize roundingMantissa num den = m at *
  generalize roundingExponent num den = e at *
  rcases hmost.eq_or_lt with rfl | hless
  · have hcarry : scaled (Nat.pow 2 52 : ℕ) (e + 1) = scaled (2 ^ 53 : ℕ) e := scaled_carry e
    rw [if_pos hpow.symm, place_pack, hcarry]
    exact if_congr (maxExponent_lt_succ_iff e) rfl rfl
  · rw [if_neg (by omega), place_pack]
    exact if_congr (maxExponent_lt_iff hfull hless) rfl rfl

theorem ofRatio_true (num den : ℕ) : ofRatio true num den = (ofRatio false num den).neg := by
  have hpack (m : ℕ) (e : ℤ) : pack true m e = (pack false m e).neg := by
    unfold pack
    split <;> rfl
  simp only [ofRatio, hpack]
  split
  · rfl
  · split <;> rfl

theorem isNaN_ofRatio (negative : Bool) (num den : ℕ) :
    (ofRatio negative num den).isNaN = false := by
  have hpack (m : ℕ) (e : ℤ) : (pack negative m e).isNaN = false := by
    unfold pack
    split <;> rfl
  simp only [ofRatio]
  split
  · rfl
  · split <;> exact hpack _ _

/-- The double nearest to a quotient of either sign. -/
def ofQuotient (num : ℤ) (den : ℕ) : Binary64 := ofRatio (decide (num < 0)) num.natAbs den

theorem place_ofRatio_mono {num den num' den' : ℕ} (hden : 0 < den) (hden' : 0 < den')
    (h : (num : ℚ) / den ≤ (num' : ℚ) / den') :
    (ofRatio false num den).place ≤ (ofRatio false num' den').place := by
  rw [place_ofRatio hden, place_ofRatio hden']
  exact clip_mono (rounded_mono hden hden' h)

theorem place_ofRatio_nonneg {num den : ℕ} (hden : 0 < den) :
    0 ≤ (ofRatio false num den).place :=
  calc (0 : ℤ ×ₗ ℚ) = clip 0 := (if_neg (not_le.mpr (by positivity))).symm
    _ ≤ clip (rounded num den) := clip_mono rounded_nonneg
    _ = _ := (place_ofRatio hden).symm

/-- Rounding never turns two quotients round. -/
theorem place_ofQuotient_mono {num num' : ℤ} {den den' : ℕ} (hden : 0 < den) (hden' : 0 < den')
    (h : (num : ℚ) / den ≤ (num' : ℚ) / den') :
    (ofQuotient num den).place ≤ (ofQuotient num' den').place := by
  have hpos : (0 : ℚ) < den := by exact_mod_cast hden
  have hpos' : (0 : ℚ) < den' := by exact_mod_cast hden'
  have habs (n : ℤ) (hn : 0 ≤ n) : (n.natAbs : ℚ) = n := by
    rw [← Int.cast_natCast, Int.natAbs_of_nonneg hn]
  have hnegated (n : ℤ) (hn : n < 0) : (n.natAbs : ℚ) = -n := by
    rw [← Int.cast_natCast, Int.ofNat_natAbs_of_nonpos hn.le, Int.cast_neg]
  unfold ofQuotient
  rcases lt_or_ge num 0 with hnum | hnum <;> rcases lt_or_ge num' 0 with hnum' | hnum'
  · rw [decide_eq_true hnum, decide_eq_true hnum', ofRatio_true, ofRatio_true, place_neg, place_neg]
    refine neg_le_neg (place_ofRatio_mono hden' hden ?_)
    rw [hnegated _ hnum, hnegated _ hnum', neg_div, neg_div]
    exact neg_le_neg h
  · rw [decide_eq_true hnum, decide_eq_false hnum'.not_gt, ofRatio_true, place_neg]
    exact (neg_nonpos.mpr (place_ofRatio_nonneg hden)).trans (place_ofRatio_nonneg hden')
  · -- the signs cannot be the wrong way round
    have hleft : (0 : ℚ) ≤ num / den := div_nonneg (by exact_mod_cast hnum) hpos.le
    have hright : (num' : ℚ) / den' < 0 := div_neg_of_neg_of_pos (by exact_mod_cast hnum') hpos'
    exact absurd (hleft.trans h) hright.not_ge
  · rw [decide_eq_false hnum.not_gt, decide_eq_false hnum'.not_gt]
    refine place_ofRatio_mono hden hden' ?_
    rw [habs _ hnum, habs _ hnum']
    exact h

/-! ### Sums and differences -/

theorem isNaN_of_isFinite {x : Binary64} (h : x.isFinite = true) : x.isNaN = false := by
  cases x with
  | nan => cases h
  | _ => rfl

/-- What a finite double stands for. -/
def value : Binary64 → ℚ
  | finite negative mantissa exponent => scaled (signed negative mantissa) exponent
  | _ => 0

theorem place_of_isFinite {x : Binary64} (h : x.isFinite = true) : x.place = toLex (0, x.value) := by
  cases x with
  | nan => cases h
  | infinite a => cases h
  | finite a m e => rfl

theorem value_le_of_place_le {x y : Binary64} (hx : x.isFinite = true) (hy : y.isFinite = true)
    (h : x.place ≤ y.place) : x.value ≤ y.value := by
  rw [place_of_isFinite hx, place_of_isFinite hy, Prod.Lex.toLex_le_toLex] at h
  rcases h with h | ⟨_, h⟩
  · exact absurd h (lt_irrefl _)
  · exact h

theorem isFinite_neg (x : Binary64) : x.neg.isFinite = x.isFinite := by cases x <;> rfl

/-- A sum is the exact one, rounded. -/
theorem add_eq_rounded {x y : Binary64} (hx : x.isFinite = true) (hy : y.isFinite = true) :
    ∃ (num : ℤ) (den : ℕ), 0 < den ∧ (num : ℚ) / den = x.value + y.value ∧
      (x.add y).place = (ofQuotient num den).place ∧ (x.add y).isNaN = false := by
  cases x with
  | nan => cases hx
  | infinite a => cases hx
  | finite a m e =>
  cases y with
  | nan => cases hy
  | infinite b => cases hy
  | finite b n d =>
    generalize hlow : min e d = low
    have hleft : scaled (signed a m) e = scaled (signed a m * Nat.pow 2 (e - low).toNat) low :=
      (scaled_shift _ (hlow ▸ min_le_left e d)).symm
    have hright : scaled (signed b n) d = scaled (signed b n * Nat.pow 2 (d - low).toNat) low :=
      (scaled_shift _ (hlow ▸ min_le_right e d)).symm
    generalize hsum : signed a m * Nat.pow 2 (e - low).toNat
      + signed b n * Nat.pow 2 (d - low).toNat = sum
    have hvalue : value (finite a m e) + value (finite b n d) = scaled sum low := by
      simp only [value, hleft, hright]
      unfold scaled
      rw [← add_mul, ← Int.cast_add, hsum]
    simp only [add, hlow, hsum, hvalue]
    split
    · rename_i hzero
      refine ⟨0, 1, Nat.one_pos, ?_, ?_, rfl⟩
      · rw [hzero]
        simp [scaled]
      · cases a <;> cases b <;> rfl
    · split
      · rename_i hlow
        have hpow : 0 < ((Nat.pow 2 low.toNat : ℕ) : ℤ) := by
          exact_mod_cast Nat.pow_pos (by decide : 0 < 2)
        refine ⟨sum * Nat.pow 2 low.toNat, 1, Nat.one_pos, ?_, ?_, isNaN_ofRatio _ _ _⟩
        · rw [Int.cast_mul, Int.cast_natCast, cast_pow_toNat hlow, Nat.cast_one, div_one]
          rfl
        · rw [ofQuotient, Int.natAbs_mul, Int.natAbs_natCast]
          congr 2
          refine decide_eq_decide.mpr ?_
          rw [← not_le, ← not_le, mul_nonneg_iff_of_pos_right hpow]
      · rename_i hlow
        refine ⟨sum, Nat.pow 2 (-low).toNat, Nat.pow_pos (by decide), ?_, rfl, isNaN_ofRatio _ _ _⟩
        rw [cast_pow_toNat (by omega), zpow_neg, div_inv_eq_mul]
        rfl

theorem isNaN_sub {x y : Binary64} (hx : x.isFinite = true) (hy : y.isFinite = true) :
    (x.sub y).isNaN = false := by
  obtain ⟨_, _, _, _, _, h⟩ := add_eq_rounded hx ((isFinite_neg y).trans hy)
  exact h

theorem value_neg_le {x y : Binary64} (hx : x.isFinite = true) (hy : y.isFinite = true)
    (h : x.place ≤ y.place) : y.neg.value ≤ x.neg.value := by
  refine value_le_of_place_le ((isFinite_neg y).trans hy) ((isFinite_neg x).trans hx) ?_
  rw [place_neg, place_neg]
  exact neg_le_neg h

/-- The age of an answer grows with the moment that it is asked at, and it is the greater the earlier
the answer came. -/
theorem place_sub_mono {x x' y y' : Binary64} (hx : x.isFinite = true) (hx' : x'.isFinite = true)
    (hy : y.isFinite = true) (hy' : y'.isFinite = true) (h : x.place ≤ x'.place)
    (h' : y'.place ≤ y.place) : (x.sub y).place ≤ (x'.sub y').place := by
  obtain ⟨num, den, hden, hvalue, hplace, _⟩ := add_eq_rounded hx ((isFinite_neg y).trans hy)
  obtain ⟨num', den', hden', hvalue', hplace', _⟩ :=
    add_eq_rounded hx' ((isFinite_neg y').trans hy')
  unfold sub
  rw [hplace, hplace']
  refine place_ofQuotient_mono hden hden' ?_
  rw [hvalue, hvalue']
  exact add_le_add (value_le_of_place_le hx hx' h) (value_neg_le hy' hy h')

/-! ### Whole numbers -/

theorem place_ofInt_mono {m n : ℤ} (h : m ≤ n) : (ofInt m).place ≤ (ofInt n).place := by
  refine place_ofQuotient_mono Nat.one_pos Nat.one_pos ?_
  gcongr

/-- A double is a whole number when it stands where that number does. -/
theorem equalsInt_iff {x : Binary64} {n : ℤ} :
    x.equalsInt n = true ↔ x.isFinite = true ∧ x.value = n := by
  cases x with
  | nan => simp [equalsInt, isFinite]
  | infinite a => simp [equalsInt, isFinite]
  | finite a m e =>
    simp only [equalsInt, isFinite, value, scaled, true_and]
    split
    · rename_i he
      rw [beq_iff_eq, ← Int.cast_inj (α := ℚ), Int.cast_mul, Int.cast_natCast, cast_pow_toNat he]
    · rename_i he
      have hpow : (2 : ℚ) ^ (-e) ≠ 0 := by positivity
      rw [beq_iff_eq, ← Int.cast_inj (α := ℚ), Int.cast_mul, Int.cast_natCast,
        cast_pow_toNat (by omega : (0 : ℤ) ≤ -e), ← div_eq_iff hpow, zpow_neg, div_inv_eq_mul]

theorem equalsInt_unique {x : Binary64} {m n : ℤ} (hm : x.equalsInt m = true)
    (hn : x.equalsInt n = true) : m = n := by
  have hvalue := (equalsInt_iff.mp hm).2
  rwa [(equalsInt_iff.mp hn).2, Int.cast_inj, eq_comm] at hvalue

/-- A small whole number that a double writes exactly is no rounding of another one. -/
theorem equalsInt_ofInt_iff {n k : ℤ} (hk : k = 0 ∨ k = 1) :
    (ofInt n).equalsInt k = true ↔ n = k := by
  have hexact (j : ℤ) (hj : j = -1 ∨ j = 0 ∨ j = 1 ∨ j = 2) : (ofInt j).equalsInt j = true := by
    rcases hj with rfl | rfl | rfl | rfl
    · rfl
    · exact equalsInt_iff.mpr ⟨rfl, by simp [ofInt, ofRatio, value, scaled, signed]⟩
    · rfl
    · rfl
  have hself := hexact k (by omega)
  constructor
  · intro h
    obtain ⟨hfinite, hvalue⟩ := equalsInt_iff.mp h
    rcases lt_trichotomy n k with hlt | heq | hgt
    · obtain ⟨hbelow, hbelowValue⟩ := equalsInt_iff.mp (hexact (k - 1) (by omega))
      have hplaces := value_le_of_place_le hfinite hbelow (place_ofInt_mono (by omega : n ≤ k - 1))
      rw [hvalue, hbelowValue, Int.cast_le] at hplaces
      omega
    · exact heq
    · obtain ⟨habove, haboveValue⟩ := equalsInt_iff.mp (hexact (k + 1) (by omega))
      have hplaces := value_le_of_place_le habove hfinite (place_ofInt_mono (by omega : k + 1 ≤ n))
      rw [hvalue, haboveValue, Int.cast_le] at hplaces
      omega
  · rintro rfl
    exact hself

end Binary64
end QueryGate
