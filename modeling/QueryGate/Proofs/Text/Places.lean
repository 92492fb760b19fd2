import QueryGate.Proofs.Text.Search

/-!
# Places where a reader succeeds

A search for the first match tries a reader at every edge of a word.  What it finds stands at a
place of the text, and the reader fails at every place in front of it.  The steps that readers are
made of leave alone what is behind a character that they do not read over.
-/

namespace QueryGate
namespace Text

section Places

variable {α : Type} {read : List Char → Option α}

/-- What a reader has of the text `back` behind the text `front`, `before` being the character in
front of both. -/
def readAt (read : List Char → Option α) (before : Option Char) (front back : List Char) :
    Option α :=
  if wordEdge (front.getLast?.or before) back.head? then read back else none

/-- A reader succeeds at no place of `front`, where `back` stands behind it. -/
def Skips (read : List Char → Option α) (before : Option Char) (front back : List Char) : Prop :=
  ∀ x y, y ≠ [] → front = x ++ y → readAt read before x (y ++ back) = none

theorem readAt_cons (c : Char) (before : Option Char) (x y : List Char) :
    readAt read before (c :: x) y = readAt read (some c) x y := by
  rw [readAt, readAt, getLast?_cons_or]

theorem skips_cons_iff {c : Char} {before : Option Char} {front back : List Char} :
    Skips read before (c :: front) back ↔
      readAt read before [] (c :: (front ++ back)) = none ∧ Skips read (some c) front back := by
  constructor
  · intro h
    refine ⟨h [] (c :: front) (by simp) rfl, fun x y hne hfront => ?_⟩
    rw [← readAt_cons]
    exact h (c :: x) y hne (by rw [hfront, List.cons_append])
  · rintro ⟨hhere, hlater⟩ x y hne hfront
    cases x with
    | nil =>
      obtain rfl : y = c :: front := hfront.symm
      exact hhere
    | cons d x =>
      obtain ⟨rfl, hrest⟩ := List.cons.inj hfront
      rw [readAt_cons]
      exact hlater x y hne hrest

theorem skips_nil {before : Option Char} {back : List Char} : Skips read before [] back := by
  intro x y hne hnil
  exact absurd (List.nil_eq_append_iff.mp hnil).2 hne

instance Skips.decidable :
    (before : Option Char) → (front back : List Char) → Decidable (Skips read before front back)
  | _, [], _ => isTrue skips_nil
  | _, c :: front, back =>
    have := Skips.decidable (some c) front back
    decidable_of_iff _ skips_cons_iff.symm

theorem firstMatchFrom?_cons (c : Char) (before : Option Char) (r : List Char) :
    firstMatchFrom? read before (c :: r) =
      (readAt read before [] (c :: r)).or (firstMatchFrom? read (some c) r) := by
  have hplace : readAt read before [] (c :: r) =
      if wordEdge before (some c) then read (c :: r) else none := rfl
  rw [firstMatchFrom?, ← hplace]
  cases readAt read before [] (c :: r) <;> rfl

/-- The search goes on behind a text where nothing is found. -/
theorem firstMatchFrom?_append {before : Option Char} {front back : List Char}
    (h : Skips read before front back) :
    firstMatchFrom? read before (front ++ back) =
      firstMatchFrom? read (front.getLast?.or before) back := by
  induction front generalizing before with
  | nil => rfl
  | cons c front ih =>
    obtain ⟨hhere, hlater⟩ := skips_cons_iff.mp h
    rw [List.cons_append, firstMatchFrom?_cons, hhere, Option.none_or, ih hlater, getLast?_cons_or]

/-- What the search finds is read at a place of the text, and at no place in front of it. -/
theorem exists_of_firstMatchFrom? {before : Option Char} {cs : List Char} {found : α}
    (h : firstMatchFrom? read before cs = some found) :
    ∃ front back, back ≠ [] ∧ cs = front ++ back ∧ Skips read before front back ∧
      readAt read before front back = some found := by
  induction cs generalizing before with
  | nil => cases h
  | cons c r ih =>
    rw [firstMatchFrom?_cons] at h
    cases hhere : readAt read before [] (c :: r) with
    | some first =>
      rw [hhere] at h
      refine ⟨[], c :: r, by simp, rfl, fun x y hne hnil => ?_, hhere.trans h⟩
      obtain ⟨rfl, rfl⟩ := List.nil_eq_append_iff.mp hnil
      exact absurd rfl hne
    | none =>
      rw [hhere, Option.none_or] at h
      obtain ⟨front, back, hne, rfl, hskips, hread⟩ := ih h
      exact ⟨c :: front, back, hne, rfl, skips_cons_iff.mpr ⟨hhere, hskips⟩,
        (readAt_cons c before front back).trans hread⟩

/-- What a reader has at the first place where it succeeds is found. -/
theorem firstMatchFrom?_eq_some {before : Option Char} {front back : List Char} {found : α}
    (hne : back ≠ []) (hskips : Skips read before front back)
    (h : readAt read before front back = some found) :
    firstMatchFrom? read before (front ++ back) = some found := by
  obtain ⟨c, r, rfl⟩ := List.exists_cons_of_ne_nil hne
  have hhere : readAt read (front.getLast?.or before) [] (c :: r) = some found := h
  rw [firstMatchFrom?_append hskips, firstMatchFrom?_cons, hhere, Option.some_or]

theorem readAt_eq_some {before : Option Char} {front back : List Char} {found : α}
    (h : readAt read before front back = some found) :
    wordEdge (front.getLast?.or before) back.head? = true ∧ read back = some found := by
  unfold readAt at h
  split at h
  · rename_i hedge
    exact ⟨hedge, h⟩
  · cases h

end Places

/-! ### Steps of a reader -/

section Run

variable {p : Char → Bool} {run rest : List Char} (hrun : ∀ c ∈ run, p c = true)
  (hrest : ∀ c ∈ rest.head?, p c = false)
include hrun hrest

theorem takeWhile_run : (run ++ rest).takeWhile p = run := by
  rw [List.takeWhile_append_of_pos hrun]
  cases rest with
  | nil => exact List.append_nil run
  | cons c rest => rw [List.takeWhile_cons_of_neg (by simp [hrest c rfl]), List.append_nil]

theorem dropWhile_run : (run ++ rest).dropWhile p = rest := by
  rw [List.dropWhile_append_of_pos hrun]
  cases rest with
  | nil => rfl
  | cons c rest => exact List.dropWhile_cons_of_neg (by simp [hrest c rfl])

end Run

section Steps

variable {c : Char}

theorem takeWhile_append_cons {p : Char → Bool} (hc : p c = false) (a r : List Char) :
    (a ++ c :: r).takeWhile p = a.takeWhile p := by
  rw [List.takeWhile_append]
  split
  · rename_i hall
    rw [List.takeWhile_cons_of_neg (by simp [hc]), List.append_nil,
      (List.takeWhile_prefix p).eq_of_length hall]
  · rfl

theorem dropWhile_append_cons {p : Char → Bool} (hc : p c = false) (a r : List Char) :
    (a ++ c :: r).dropWhile p = a.dropWhile p ++ c :: r := by
  rw [List.dropWhile_append]
  split
  · rename_i hall
    rw [List.dropWhile_cons_of_neg (by simp [hc]), List.isEmpty_iff.mp hall, List.nil_append]
  · rfl

theorem afterChars?_append_cons {ks : List Char} (hc : c ∉ ks) (a r : List Char) :
    afterChars? ks (a ++ c :: r) = (afterChars? ks a).map (· ++ c :: r) := by
  induction ks generalizing a with
  | nil => cases a <;> rfl
  | cons k ks ih =>
    cases a with
    | nil =>
      have hk : k ≠ c := (List.ne_of_not_mem_cons hc).symm
      simp [afterChars?, hk]
    | cons d a =>
      rw [List.cons_append, afterChars?, afterChars?, ih (List.not_mem_of_not_mem_cons hc)]
      split <;> rfl

theorem afterBlanks?_append_cons (hc : isBlank c = false) (a r : List Char) :
    afterBlanks? (a ++ c :: r) = (afterBlanks? a).map (· ++ c :: r) := by
  have hstart : startsBlank (a ++ c :: r) = startsBlank a := by
    cases a with
    | nil => exact hc
    | cons d a => rfl
  rw [afterBlanks?, afterBlanks?, hstart, trimLeft_append_cons hc]
  split <;> rfl

theorem afterChars?_eq_some {ks cs rest : List Char} (h : afterChars? ks cs = some rest) :
    cs = ks ++ rest := by
  induction ks generalizing cs with
  | nil =>
    rw [afterChars?] at h
    exact Option.some.inj h
  | cons k ks ih =>
    cases cs with
    | nil => cases h
    | cons c r =>
      rw [afterChars?] at h
      split at h
      · rename_i hk
        rw [ih h, hk, List.cons_append]
      · cases h

theorem afterChars?_append (ks r : List Char) : afterChars? ks (ks ++ r) = some r := by
  induction ks with
  | nil => cases r <;> rfl
  | cons k ks ih => rw [List.cons_append, afterChars?, if_pos rfl, ih]

/-- Blanks, one at least. -/
structure Blanks (cs : List Char) : Prop where
  ne_nil : cs ≠ []
  isBlank : ∀ c ∈ cs, isBlank c = true

theorem Blanks.exists_cons {cs : List Char} (h : Blanks cs) :
    ∃ b more, cs = b :: more ∧ Text.isBlank b = true := by
  obtain ⟨b, more, rfl⟩ := List.exists_cons_of_ne_nil h.ne_nil
  exact ⟨b, more, rfl, h.isBlank b List.mem_cons_self⟩

theorem Blanks.exists_concat {cs : List Char} (h : Blanks cs) :
    ∃ front b, cs = front ++ [b] ∧ Text.isBlank b = true :=
  ⟨cs.dropLast, cs.getLast h.ne_nil, (List.dropLast_concat_getLast h.ne_nil).symm,
    h.isBlank _ (List.getLast_mem h.ne_nil)⟩

theorem afterBlanks?_eq_some {cs rest : List Char} (h : afterBlanks? cs = some rest) :
    ∃ blanks, Blanks blanks ∧ cs = blanks ++ rest := by
  unfold afterBlanks? at h
  split at h
  · rename_i hstart
    obtain rfl := Option.some.inj h
    refine ⟨cs.takeWhile isBlank, ⟨?_, List.all_eq_true.mp List.all_takeWhile⟩,
      List.takeWhile_append_dropWhile.symm⟩
    cases cs with
    | nil => cases hstart
    | cons d r => simp [List.takeWhile_cons_of_pos (show isBlank d = true from hstart)]
  · cases h

theorem afterBlanks?_append {blanks r : List Char} (h : Blanks blanks)
    (hr : startsBlank r = false) : afterBlanks? (blanks ++ r) = some r := by
  obtain ⟨b, more, rfl, hb⟩ := h.exists_cons
  have hstart : startsBlank (b :: more ++ r) = true := hb
  rw [afterBlanks?, if_pos hstart, trimLeft, List.dropWhile_append_of_pos h.isBlank]
  exact congrArg some (trimLeft_of_not_startsBlank hr)

end Steps

end Text
end QueryGate
