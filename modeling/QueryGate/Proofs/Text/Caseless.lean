import QueryGate.Proofs.Text.Case

/-!
# Lowering around characters without case

A character that has no case, and that nothing else lowers to, divides a text for lowering: what
stands in front of it and what stands behind it are lowered each on its own, and it is found in the
lowered text just where it was.
-/

namespace QueryGate
namespace Text

/-- A character without case that sigma does not look past and that only itself lowers to. -/
structure Caseless (c : Char) : Prop where
  small : lowerChar c = c
  passed : inSpans passedSpans c.toNat = false
  cased : inSpans casedSpans c.toNat = false
  own : ∀ d, lowerChar d = c → d = c

/-- An ASCII character that is no letter has no case. -/
theorem caseless_of_ascii {c : Char} (hpos : 0 < c.toNat) (hc : c.toNat < 128)
    (hletter : c.isAlpha = false) (hpassed : inSpans passedSpans c.toNat = false) : Caseless c := by
  have hascii : c.isAlpha = false → c.toLower = c ∧ inSpans casedSpans c.toNat = false :=
    forall_ascii (p := fun c => c.isAlpha = false → c.toLower = c ∧
      inSpans casedSpans c.toNat = false) (by decide +kernel) hc
  refine ⟨by rw [lowerChar, if_pos hc, (hascii hletter).1], hpassed, (hascii hletter).2,
    fun d hd => ?_⟩
  by_cases hsmall : d.toNat < 128
  · have hown : d.toLower.isAlpha = false → d.toLower = d :=
      forall_ascii (p := fun d => d.toLower.isAlpha = false → d.toLower = d) (by decide +kernel)
        hsmall
    rw [lowerChar, if_pos hsmall] at hd
    rw [← hd, hown (hd ▸ hletter)]
  · rw [lowerChar_of_not_ascii (by omega)] at hd
    rcases shiftOf_eq lowerRuns d.toNat with hzero | ⟨r, hr, hlow, hhigh, hshift⟩
    · rwa [hzero, shiftChar_zero] at hd
    · have hne : (shiftChar d (shiftOf lowerRuns d.toNat)).toNat ≠ 0 := by
        rw [hd]
        omega
      have hmoved := toNat_shiftChar hne
      rw [hd, hshift] at hmoved
      rcases lowerRuns_beyond_ascii r hr with hwide | ⟨hfirst, hlast⟩
      · omega
      · have hkelvin : d = '\u212a' := by
          rw [← Char.ofNat_toNat d, show d.toNat = 0x212A by omega]
        rw [← hd, hkelvin] at hletter
        exact absurd hletter (by decide +kernel)

/-- What lies behind the characters that one front of a text leads to does not depend on it, as long
as sigma meets the same there. -/
theorem lowerFrom_congr {a b : List Char} (h : metCased a = metCased b) (cs : List Char) :
    lowerFrom a cs = lowerFrom b cs := by
  induction cs generalizing a b with
  | nil => rfl
  | cons c r ih =>
    have hsigma : lowerSigma a r = lowerSigma b r := by rw [lowerSigma, lowerSigma, h]
    rw [lowerFrom, lowerFrom, ih (metCased_cons c h), hsigma]

section Divide

variable {c : Char} (hc : Caseless c)
include hc

theorem Caseless.metCased_cons (r : List Char) : metCased (c :: r) = false := by
  rw [metCased, hc.passed, hc.cased]
  rfl

theorem Caseless.metCased_append_cons (x y : List Char) : metCased (x ++ c :: y) = metCased x := by
  induction x with
  | nil => exact hc.metCased_cons y
  | cons d x ih => exact Text.metCased_cons d ih

/-- None of the forms that letters with rules of their own lower to. -/
theorem Caseless.not_mem : c ∉ ['\u03a3', '\u03c2', '\u03c3', '\u0130', 'i', '\u0307'] := by
  intro hmem
  have hnone : (['\u03a3', '\u03c2', '\u03c3', '\u0130', 'i', '\u0307'].all fun d =>
      inSpans passedSpans d.toNat || inSpans casedSpans d.toNat) = true := by decide +kernel
  rcases Bool.or_eq_true_iff.mp (List.all_eq_true.mp hnone c hmem) with h | h
  · rw [hc.passed] at h
    cases h
  · rw [hc.cased] at h
    cases h

theorem Caseless.lowerFrom_cons (before y : List Char) :
    lowerFrom before (c :: y) = c :: lower y := by
  have hmem := hc.not_mem
  simp only [List.mem_cons, not_or] at hmem
  rw [lowerFrom, if_neg hmem.1, if_neg hmem.2.2.2.1, hc.small, lower]
  congr 1
  exact lowerFrom_congr (hc.metCased_cons before) y

theorem Caseless.lowerFrom_append_cons (before x y : List Char) :
    lowerFrom before (x ++ c :: y) = lowerFrom before x ++ c :: lower y := by
  induction x generalizing before with
  | nil => exact hc.lowerFrom_cons before y
  | cons d x ih =>
    have hsigma : lowerSigma before (x ++ c :: y) = lowerSigma before x := by
      rw [lowerSigma, lowerSigma, hc.metCased_append_cons]
    rw [List.cons_append, lowerFrom, lowerFrom, ih, hsigma]
    split
    · rfl
    split <;> rfl

theorem Caseless.lower_append_cons (x y : List Char) :
    lower (x ++ c :: y) = lower x ++ c :: lower y :=
  hc.lowerFrom_append_cons [] x y

end Divide

/-- A text in front of which the character does not stand is all in front of the place where it
does. -/
theorem append_eq_append_cons {α : Type} {c : α} (small : List α) {rest p s : List α}
    (hsmall : c ∉ small)
    (h : small ++ rest = p ++ c :: s) : ∃ p', p = small ++ p' ∧ rest = p' ++ c :: s := by
  rcases List.append_eq_append_iff.mp h with ⟨p', hp, hrest⟩ | ⟨more, hsplit, hrest⟩
  · exact ⟨p', hp, hrest⟩
  · cases more with
    | nil => exact ⟨[], by simpa using hsplit.symm, hrest.symm⟩
    | cons e more =>
      obtain ⟨rfl, _⟩ := List.cons.inj hrest
      exact absurd (hsplit ▸ by simp) hsmall

/-- Where a lowered text has the character, the text has it too. -/
theorem Caseless.exists_of_lowerFrom {c : Char} (hc : Caseless c) {before cs p s : List Char}
    (h : lowerFrom before cs = p ++ c :: s) :
    ∃ x y, cs = x ++ c :: y ∧ lowerFrom before x = p ∧ lower y = s := by
  have hmem := hc.not_mem
  simp only [List.mem_cons, not_or] at hmem
  induction cs generalizing before p with
  | nil => simp [lowerFrom] at h
  | cons d r ih =>
    -- Sigma and the dotted I lower to other characters, so the place lies behind what they lead to.
    by_cases hsigma : d = '\u03a3'
    · have hsmall : c ∉ [lowerSigma before r] := by
        rw [List.mem_singleton, lowerSigma]
        split
        · exact hmem.2.1
        · exact hmem.2.2.1
      rw [lowerFrom, if_pos hsigma, ← List.singleton_append] at h
      obtain ⟨p', rfl, hrest⟩ := append_eq_append_cons _ hsmall h
      obtain ⟨x, y, rfl, rfl, hy⟩ := ih hrest
      refine ⟨d :: x, y, rfl, ?_, hy⟩
      rw [lowerFrom, if_pos hsigma, lowerSigma, lowerSigma, hc.metCased_append_cons]
      rfl
    by_cases hdotted : d = '\u0130'
    · have hsmall : c ∉ ['i', '\u0307'] := by
        simp only [List.mem_cons, not_or]
        exact hmem.2.2.2.2
      rw [lowerFrom, if_neg hsigma, if_pos hdotted] at h
      obtain ⟨p', rfl, hrest⟩ := append_eq_append_cons ['i', '\u0307'] hsmall h
      obtain ⟨x, y, rfl, rfl, hy⟩ := ih hrest
      exact ⟨d :: x, y, rfl, by rw [lowerFrom, if_neg hsigma, if_pos hdotted]; rfl, hy⟩
    rw [lowerFrom, if_neg hsigma, if_neg hdotted] at h
    by_cases hd : lowerChar d = c
    · cases p with
      | nil =>
        obtain ⟨_, hrest⟩ := List.cons.inj h
        obtain rfl := hc.own d hd
        have hcongr : lowerFrom (d :: before) r = lower r :=
          lowerFrom_congr (hc.metCased_cons before) r
        exact ⟨[], r, rfl, rfl, hcongr.symm.trans hrest⟩
      | cons e p =>
        obtain ⟨rfl, hrest⟩ := List.cons.inj h
        obtain ⟨x, y, rfl, rfl, hy⟩ := ih hrest
        exact ⟨d :: x, y, rfl, by rw [lowerFrom, if_neg hsigma, if_neg hdotted], hy⟩
    · rw [← List.singleton_append] at h
      obtain ⟨p', rfl, hrest⟩ := append_eq_append_cons _ (by simpa using Ne.symm hd) h
      obtain ⟨x, y, rfl, rfl, hy⟩ := ih hrest
      exact ⟨d :: x, y, rfl, by rw [lowerFrom, if_neg hsigma, if_neg hdotted]; rfl, hy⟩

theorem Caseless.exists_of_lower {c : Char} (hc : Caseless c) {cs p s : List Char}
    (h : lower cs = p ++ c :: s) : ∃ x y, cs = x ++ c :: y ∧ lower x = p ∧ lower y = s :=
  hc.exists_of_lowerFrom h

theorem eq_nil_of_lower {cs : List Char} (h : lower cs = []) : cs = [] := by
  cases cs with
  | nil => rfl
  | cons c r =>
    rw [lower, lowerFrom] at h
    split at h
    · cases h
    split at h <;> cases h

/-! ### Runs -/

section Runs

variable {run : List Char} (hrun : ∀ c ∈ run, Caseless c)
include hrun

theorem lower_append_run (hne : run ≠ []) (x y : List Char) :
    lower (x ++ (run ++ y)) = lower x ++ (run ++ lower y) := by
  induction run generalizing x with
  | nil => exact absurd rfl hne
  | cons c run ih =>
    obtain ⟨hc, hrun⟩ := List.forall_mem_cons.mp hrun
    rw [List.cons_append, hc.lower_append_cons, List.cons_append]
    cases run with
    | nil => rfl
    | cons d run => rw [← List.nil_append (d :: run ++ y), ih hrun (by simp) []]; rfl

theorem exists_run_of_lower (hne : run ≠ []) {cs p s : List Char} (h : lower cs = p ++ (run ++ s)) :
    ∃ x y, cs = x ++ (run ++ y) ∧ lower x = p ∧ lower y = s := by
  induction run generalizing cs p with
  | nil => exact absurd rfl hne
  | cons c run ih =>
    obtain ⟨hc, hrun⟩ := List.forall_mem_cons.mp hrun
    obtain ⟨x, y, rfl, hx, hy⟩ := hc.exists_of_lower h
    cases run with
    | nil => exact ⟨x, y, rfl, hx, hy⟩
    | cons d run =>
      obtain ⟨front, z, rfl, hfront, hz⟩ := ih hrun (by simp) (p := []) hy
      obtain rfl := eq_nil_of_lower hfront
      exact ⟨x, z, rfl, hx, hz⟩

end Runs

end Text
end QueryGate
