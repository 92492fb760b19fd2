import QueryGate.Proofs.Text.Caseless
import QueryGate.Proofs.Text.Search
import QueryGate.Question.Tenant

/-!
# Misspellings put right

A character that occurs in no spelling of a word divides a text for respelling: what stands in front
of it and what stands behind it are respelled each on its own.  So a run of such characters stands
in the respelled text just where it stood before.
-/

namespace QueryGate
namespace Question

open Text

/-! ### One spelling -/

section Respell

variable {wrong right : List Char}

theorem respell_append_cons {c : Char} (hne : wrong ≠ []) (hc : c ∉ wrong) {skip : Nat}
    {before : Option Char} {x : List Char} (hskip : skip ≤ x.length) (y : List Char) :
    respell wrong right skip before (x ++ c :: y) =
      respell wrong right skip before x ++ c :: respell wrong right 0 (some c) y := by
  induction x generalizing skip before with
  | nil =>
    obtain rfl := Nat.le_zero.mp hskip
    have hhere : wrong.isPrefixOf (c :: y) = false := by
      obtain ⟨k, more, rfl⟩ := List.exists_cons_of_ne_nil hne
      have hk : (k == c) = false := beq_false_of_ne (List.ne_of_not_mem_cons hc).symm
      simp [List.isPrefixOf, hk]
    simp [respell, hhere]
  | cons d x ih =>
    have hhere := isPrefixOf_append_cons hc (d :: x) y
    rw [List.cons_append] at hhere ⊢
    rw [respell, respell, hhere]
    split
    · rename_i hpos
      exact ih (by rw [List.length_cons] at hskip; omega)
    split
    · rename_i hword
      -- The wrong word lies in front of the character, so what is skipped does too.
      have hprefix := List.isPrefixOf_iff_prefix.mp (Bool.and_eq_true_iff.mp hword).2
      have hlength := hprefix.length_le
      rw [List.length_cons] at hlength
      rw [ih (by omega), List.append_assoc]
    · rw [ih (Nat.zero_le _), List.cons_append]

/-- Where a respelled text has the character, the text has it too. -/
theorem exists_of_respell {c : Char} (hwrong : c ∉ wrong) (hright : c ∉ right) {skip : Nat}
    {before : Option Char} {text p s : List Char}
    (h : respell wrong right skip before text = p ++ c :: s) :
    ∃ x y, text = x ++ c :: y ∧ respell wrong right skip before x = p ∧
      respell wrong right 0 (some c) y = s := by
  induction text generalizing skip before p with
  | nil => simp [respell] at h
  | cons d r ih =>
    rw [respell] at h
    split at h
    · rename_i hpos
      obtain ⟨x, y, rfl, hx, hy⟩ := ih h
      exact ⟨d :: x, y, rfl, by rw [respell, if_pos hpos, hx], hy⟩
    rename_i hzero
    split at h
    · rename_i hword
      obtain ⟨p', rfl, hrest⟩ := append_eq_append_cons right hright h
      obtain ⟨x, y, rfl, rfl, hy⟩ := ih hrest
      have hhere := isPrefixOf_append_cons hwrong (d :: x) y
      rw [List.cons_append] at hhere
      rw [hhere] at hword
      exact ⟨d :: x, y, rfl, by rw [respell, if_neg hzero, if_pos hword], hy⟩
    · rename_i hword
      cases p with
      | nil =>
        obtain ⟨rfl, hrest⟩ := List.cons.inj h
        exact ⟨[], r, rfl, rfl, hrest⟩
      | cons e p =>
        obtain ⟨rfl, hrest⟩ := List.cons.inj h
        obtain ⟨x, y, rfl, rfl, hy⟩ := ih hrest
        have hhere := isPrefixOf_append_cons hwrong (d :: x) y
        rw [List.cons_append] at hhere
        rw [hhere] at hword
        exact ⟨d :: x, y, rfl, by rw [respell, if_neg hzero, if_neg hword], hy⟩

theorem eq_nil_of_respell (hne : right ≠ []) {before : Option Char} {text : List Char}
    (h : respell wrong right 0 before text = []) : text = [] := by
  cases text with
  | nil => rfl
  | cons c r =>
    rw [respell, if_neg (Nat.lt_irrefl 0)] at h
    split at h
    · exact absurd (List.append_eq_nil_iff.mp h).1 hne
    · cases h

theorem exists_run_of_respell (hne : right ≠ []) {run : List Char}
    (hrun : ∀ c ∈ run, c ∉ wrong ∧ c ∉ right) (hrunNe : run ≠ []) {before : Option Char}
    {text p s : List Char} (h : respell wrong right 0 before text = p ++ (run ++ s)) :
    ∃ x y, text = x ++ (run ++ y) ∧ respell wrong right 0 before x = p ∧
      ∃ c, respell wrong right 0 (some c) y = s := by
  induction run generalizing before text p with
  | nil => exact absurd rfl hrunNe
  | cons c run ih =>
    obtain ⟨⟨hwrong, hright⟩, hrun⟩ := List.forall_mem_cons.mp hrun
    obtain ⟨x, y, rfl, hx, hy⟩ := exists_of_respell hwrong hright h
    cases run with
    | nil => exact ⟨x, y, rfl, hx, c, hy⟩
    | cons d run =>
      obtain ⟨front, z, rfl, hfront, hz⟩ := ih hrun (by simp) (p := []) hy
      obtain rfl := eq_nil_of_respell hne hfront
      exact ⟨x, z, rfl, hx, hz⟩

/-- A text without the first letter of the wrong word is left as it is. -/
theorem respell_of_not_mem {k : Char} {more : List Char} {before : Option Char} {text : List Char}
    (hk : k ∉ text) : respell (k :: more) right 0 before text = text := by
  induction text generalizing before with
  | nil => rfl
  | cons c r ih =>
    have hhere : (k == c) = false := beq_false_of_ne (List.ne_of_not_mem_cons hk)
    rw [respell, if_neg (Nat.lt_irrefl 0), ih (List.not_mem_of_not_mem_cons hk)]
    simp [List.isPrefixOf, hhere]

/-- The right word begins like the wrong one. -/
theorem head?_respell {k : Char} {more rest : List Char} (before : Option Char)
    (text : List Char) :
    (respell (k :: more) (k :: rest) 0 before text).head? = text.head? := by
  cases text with
  | nil => rfl
  | cons c r =>
    rw [respell, if_neg (Nat.lt_irrefl 0)]
    split
    · rename_i hword
      have hk := (Bool.and_eq_true_iff.mp (Bool.and_eq_true_iff.mp hword).2).1
      rw [List.cons_append, List.head?_cons, List.head?_cons, eq_of_beq hk]
    · rfl

end Respell

/-! ### Both spellings -/

/-- The letters of the word in all its spellings. -/
def spellingLetters : List Char := "restaurant".toList

theorem spelled_eq (q : List Char) :
    spelled q = respell "restuarant".toList spellingLetters 0 none
      (respell "resturant".toList spellingLetters 0 none q) := rfl

theorem not_mem_wrong {c : Char} (hc : c ∉ spellingLetters) :
    c ∉ "resturant".toList ∧ c ∉ "restuarant".toList := by
  have hwrong : "resturant".toList ⊆ spellingLetters ∧ "restuarant".toList ⊆ spellingLetters := by
    decide
  exact ⟨fun h => hc (hwrong.1 h), fun h => hc (hwrong.2 h)⟩

theorem spelled_append_cons {c : Char} (hc : c ∉ spellingLetters) (x : List Char) {y : List Char}
    (hy : 'r' ∉ y) : spelled (x ++ c :: y) = spelled x ++ c :: y := by
  obtain ⟨hfirst, hsecond⟩ := not_mem_wrong hc
  have hbehind (before : Option Char) :
      respell "resturant".toList spellingLetters 0 before y = y ∧
        respell "restuarant".toList spellingLetters 0 before y = y :=
    ⟨respell_of_not_mem hy, respell_of_not_mem hy⟩
  rw [spelled_eq, spelled_eq, respell_append_cons (by decide) hfirst (Nat.zero_le _),
    (hbehind _).1, respell_append_cons (by decide) hsecond (Nat.zero_le _), (hbehind _).2]

theorem spelled_append_singleton {c : Char} (hc : c ∉ spellingLetters) (x : List Char) :
    spelled (x ++ [c]) = spelled x ++ [c] :=
  spelled_append_cons hc x List.not_mem_nil

/-- A run of other characters stands in the text that is respelled just where it stands when the
misspellings are put right, and the same character follows it. -/
theorem exists_run_of_spelled {run : List Char} (hrun : ∀ c ∈ run, c ∉ spellingLetters)
    (hne : run ≠ []) {q p s : List Char} (h : spelled q = p ++ (run ++ s)) :
    ∃ x y, q = x ++ (run ++ y) ∧ spelled x = p ∧ s.head? = y.head? := by
  rw [spelled_eq] at h
  obtain ⟨u, v, hu, hp, c, hs⟩ := exists_run_of_respell (by decide)
    (fun c hc => ⟨(not_mem_wrong (hrun c hc)).2, hrun c hc⟩) hne h
  obtain ⟨x, y, rfl, hx, d, hv⟩ := exists_run_of_respell (by decide)
    (fun c hc => ⟨(not_mem_wrong (hrun c hc)).1, hrun c hc⟩) hne hu
  refine ⟨x, y, rfl, by rw [spelled_eq, hx, hp], ?_⟩
  rw [← hs, ← hv]
  exact (head?_respell _ _).trans (head?_respell _ _)

end Question
end QueryGate
