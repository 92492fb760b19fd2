import QueryGate.Proofs.Question.Naming
import QueryGate.Proofs.Question.Respelling

/-!
# The restaurant that a question states

The id of a question is a run of digits behind the word for a restaurant, with nothing but blanks, a
mark and the word for an id between them.  No spelling of the word has a digit, so the run stands in
the question itself, and the words in front of it tell it from every number that a date is written
with.
-/

namespace QueryGate
namespace Question

open Text

/-! ### What is read -/

/-- One to eighteen digits with no word character behind them. -/
structure IsId (ds rest : List Char) : Prop where
  ne_nil : ds ≠ []
  digits : ∀ c ∈ ds, isAsciiDigit c = true
  length_le : ds.length ≤ 18
  ends : isWordChar? rest.head? = false

/-- Blanks with at most one of the marks among them. -/
inductive Gap (marks : List Char) : List Char → Prop where
  | blank {bs : List Char} (hbs : ∀ c ∈ bs, isBlank c = true) : Gap marks bs
  | marked {front back : List Char} {m : Char} (hfront : ∀ c ∈ front, isBlank c = true)
      (hm : m ∈ marks) (hback : ∀ c ∈ back, isBlank c = true) : Gap marks (front ++ m :: back)

/-- The words in front of an id. -/
inductive Lead : List Char → Prop where
  | restaurant {gap : List Char} (hgap : Gap [':', '=', '#'] gap) :
      Lead ("restaurant".toList ++ gap)
  | restaurantId {joint gap : List Char} (hjoint : ∀ c ∈ joint, isBlank c = true ∨ c = '_')
      (hgap : Gap [':', '='] gap) : Lead ("restaurant".toList ++ (joint ++ ("id".toList ++ gap)))

theorem exists_of_idHere? {cs : List Char} {n : Nat} (h : idHere? cs = some n) :
    ∃ ds rest, cs = ds ++ rest ∧ IsId ds rest ∧ digitsValue ds = n := by
  unfold idHere? at h
  dsimp only at h
  split at h
  · cases h
  rename_i hgood
  simp only [Bool.or_eq_true, not_or, List.isEmpty_iff, decide_eq_true_eq, Nat.not_lt,
    Bool.not_eq_true] at hgood
  exact ⟨cs.takeWhile isAsciiDigit, cs.dropWhile isAsciiDigit,
    List.takeWhile_append_dropWhile.symm,
    ⟨hgood.1.1, List.all_eq_true.mp List.all_takeWhile, hgood.1.2, hgood.2⟩, Option.some.inj h⟩

theorem exists_blanks (cs : List Char) :
    ∃ bs, (∀ c ∈ bs, isBlank c = true) ∧ cs = bs ++ trimLeft cs :=
  ⟨cs.takeWhile isBlank, List.all_eq_true.mp List.all_takeWhile,
    List.takeWhile_append_dropWhile.symm⟩

theorem exists_of_markedId? {marks cs : List Char} {n : Nat} (h : markedId? marks cs = some n) :
    ∃ gap ds rest, cs = gap ++ (ds ++ rest) ∧ Gap marks gap ∧ IsId ds rest ∧
      digitsValue ds = n := by
  obtain ⟨ds, rest, hcs, hid, hn⟩ := exists_of_idHere? h
  obtain ⟨front, hfront, hsplit⟩ := exists_blanks cs
  obtain ⟨back, hback, hbehind⟩ := exists_blanks (afterMark marks (trimLeft cs))
  rw [hcs] at hbehind
  have unmarked (hkept : afterMark marks (trimLeft cs) = trimLeft cs) :
      ∃ gap ds rest, cs = gap ++ (ds ++ rest) ∧ Gap marks gap ∧ IsId ds rest ∧
        digitsValue ds = n := by
    refine ⟨front ++ back, ds, rest, ?_, .blank fun c hc => ?_, hid, hn⟩
    · rw [List.append_assoc, ← hbehind, hkept]
      exact hsplit
    · exact (List.mem_append.mp hc).elim (hfront c) (hback c)
  cases htrim : trimLeft cs with
  | nil => exact unmarked (by rw [htrim]; rfl)
  | cons m r =>
    cases hmark : marks.contains m with
    | false => exact unmarked (by rw [htrim, afterMark, hmark]; rfl)
    | true =>
      have hskipped : afterMark marks (m :: r) = r := by
        rw [afterMark, hmark]
        rfl
      rw [htrim, hskipped] at hbehind
      refine ⟨front ++ m :: back, ds, rest, ?_,
        .marked hfront (List.contains_iff_mem.mp hmark) hback, hid, hn⟩
      rw [hsplit, htrim, hbehind]
      simp

theorem exists_of_readRestaurant? {cs : List Char} {n : Nat} (h : readRestaurant? cs = some n) :
    ∃ lead ds rest, cs = lead ++ (ds ++ rest) ∧ Lead lead ∧ IsId ds rest ∧ digitsValue ds = n := by
  simp only [readRestaurant?, Option.bind_eq_bind, Option.bind_eq_some_iff] at h
  obtain ⟨_, hword, hmarked⟩ := h
  obtain rfl := afterChars?_eq_some hword
  obtain ⟨gap, ds, rest, rfl, hgap, hid, hn⟩ := exists_of_markedId? hmarked
  exact ⟨_, ds, rest, (List.append_assoc _ _ _).symm, .restaurant hgap, hid, hn⟩

theorem exists_of_readRestaurantId? {cs : List Char} {n : Nat}
    (h : readRestaurantId? cs = some n) :
    ∃ lead ds rest, cs = lead ++ (ds ++ rest) ∧ Lead lead ∧ IsId ds rest ∧ digitsValue ds = n := by
  simp only [readRestaurantId?, Option.bind_eq_bind, Option.bind_eq_some_iff] at h
  obtain ⟨joined, hword, behind, hidWord, hmarked⟩ := h
  obtain rfl := afterChars?_eq_some hword
  have hjoint : ∀ c ∈ joined.takeWhile fun c => isBlank c || c == '_',
      isBlank c = true ∨ c = '_' := by
    intro c hc
    have := List.all_eq_true.mp List.all_takeWhile c hc
    simpa using this
  have hsplit := List.takeWhile_append_dropWhile (p := fun c => isBlank c || c == '_') (l := joined)
  rw [afterChars?_eq_some hidWord] at hsplit
  obtain ⟨gap, ds, rest, rfl, hgap, hid, hn⟩ := exists_of_markedId? hmarked
  refine ⟨_, ds, rest, ?_, .restaurantId hjoint hgap, hid, hn⟩
  simp only [List.append_assoc]
  rw [hsplit]

/-! ### Where the id stands -/

/-- The reader that a text's id is taken by: that of the longer wording if it succeeds anywhere. -/
def idReader (text : List Char) : List Char → Option Nat :=
  if (firstMatch? readRestaurantId? text).isSome then readRestaurantId? else readRestaurant?

theorem tenant?_eq (question : List Char) :
    tenant? question =
      firstMatch? (idReader (spelled (lower question))) (spelled (lower question)) := by
  unfold tenant? idReader
  dsimp only
  split
  · rename_i hlong
    obtain ⟨n, hn⟩ := Option.isSome_iff_exists.mp hlong
    rw [hn, Option.some_or]
  · rename_i hnone
    rw [Option.not_isSome_iff_eq_none.mp hnone, Option.none_or]

theorem exists_of_idReader {text cs : List Char} {n : Nat} (h : idReader text cs = some n) :
    ∃ lead ds rest, cs = lead ++ (ds ++ rest) ∧ Lead lead ∧ IsId ds rest ∧ digitsValue ds = n := by
  unfold idReader at h
  split at h
  · exact exists_of_readRestaurantId? h
  · exact exists_of_readRestaurant? h

/-- The id of a lower-case text is the run `ds` between `x` and `y`: with the misspellings put right,
the reader of ids succeeds first where the words in front of the run start, and reads the run. -/
structure TakenId (q x ds y : List Char) : Prop where
  split : q = x ++ (ds ++ y)
  isId : IsId ds y
  taken : ∃ front lead back, spelled q = front ++ (lead ++ (ds ++ back)) ∧
    spelled x = front ++ lead ∧ Lead lead ∧
    Skips (idReader (spelled q)) none front (lead ++ (ds ++ back)) ∧
    readAt (idReader (spelled q)) none front (lead ++ (ds ++ back)) = some (digitsValue ds)

theorem not_mem_spellingLetters_of_isDateChar {c : Char} (h : isDateChar c = true) :
    c ∉ spellingLetters := by
  have hletters : ∀ k ∈ spellingLetters, isDateChar k = false := eq_false_of_all (by decide)
  intro hmem
  rw [hletters c hmem] at h
  cases h

theorem exists_takenId {question : List Char} {n : Nat} (h : tenant? question = some n) :
    ∃ x ds y, TakenId (lower question) x ds y ∧ digitsValue ds = n := by
  rw [tenant?_eq] at h
  obtain ⟨front, _, _, htext, hskips, hread⟩ := exists_of_firstMatchFrom? h
  obtain ⟨lead, ds, back, rfl, hlead, hid, rfl⟩ := exists_of_idReader (readAt_eq_some hread).2
  have hplace : spelled (lower question) = (front ++ lead) ++ (ds ++ back) := by
    rw [htext, List.append_assoc]
  obtain ⟨x, y, hq, hx, hhead⟩ := exists_run_of_spelled
    (fun c hc => not_mem_spellingLetters_of_isDateChar (isDateChar_of_digit (hid.digits c hc)))
    hid.ne_nil hplace
  exact ⟨x, ds, y, ⟨hq, ⟨hid.ne_nil, hid.digits, hid.length_le, hhead ▸ hid.ends⟩,
    front, lead, back, htext, hx, hlead, hskips, hread⟩, rfl⟩

/-! ### What is in front of an id -/

/-- The last two characters in front of the blanks at the end of a text, the last one first. -/
def lastTwo (cs : List Char) : List Char := (cs.reverse.dropWhile isBlank).take 2

section LastTwo

variable {c : Char} (hc : isBlank c = false) {bs : List Char} (hbs : ∀ b ∈ bs, isBlank b = true)
include hc hbs

theorem reverse_dropWhile_blanks (cs : List Char) :
    (cs ++ c :: bs).reverse.dropWhile isBlank = c :: cs.reverse := by
  rw [List.reverse_append, List.reverse_cons, List.append_assoc, List.singleton_append,
    List.dropWhile_append_of_pos (fun b hb => hbs b (List.mem_reverse.mp hb)),
    List.dropWhile_cons_of_neg (by simp [hc])]

theorem head?_lastTwo (cs : List Char) : (lastTwo (cs ++ c :: bs)).head? = some c := by
  rw [lastTwo, reverse_dropWhile_blanks hc hbs]
  rfl

theorem lastTwo_append (cs : List Char) (d : Char) : lastTwo (cs ++ d :: c :: bs) = [c, d] := by
  rw [lastTwo, ← List.singleton_append, ← List.append_assoc, reverse_dropWhile_blanks hc hbs,
    List.reverse_append]
  rfl

end LastTwo

/-- The ends of words in front of an id: a mark, the last letter of the word for a restaurant, or
both letters of the word for an id. -/
def EndsLead (e : List Char) : Prop :=
  (∃ c ∈ [':', '=', '#', 't'], e.head? = some c) ∨ e = ['d', 'i']

instance (e : List Char) : Decidable (EndsLead e) :=
  have := List.decidableBEx (fun c => e.head? = some c) [':', '=', '#', 't']
  inferInstanceAs (Decidable (_ ∨ _))

theorem Gap.endsLead {marks gap cs : List Char} (h : Gap marks gap)
    (hmarks : marks ⊆ [':', '=', '#'])
    (hcs : ∀ bs, (∀ c ∈ bs, isBlank c = true) → EndsLead (lastTwo (cs ++ bs))) :
    EndsLead (lastTwo (cs ++ gap)) := by
  cases h with
  | blank hbs => exact hcs _ hbs
  | @marked front back m hfront hm hback =>
    have hblank : ∀ m ∈ [':', '=', '#'], isBlank m = false := eq_false_of_all (by decide)
    have hlast : [':', '=', '#'] ⊆ [':', '=', '#', 't'] := by decide
    refine Or.inl ⟨m, hlast (hmarks hm), ?_⟩
    rw [← List.append_assoc, head?_lastTwo (hblank m (hmarks hm)) hback]

theorem Lead.endsLead {lead : List Char} (h : Lead lead) (front : List Char) :
    EndsLead (lastTwo (front ++ lead)) := by
  cases h with
  | @restaurant gap hgap =>
    rw [← List.append_assoc]
    refine hgap.endsLead (by decide) fun bs hbs => ?_
    have hword : front ++ "restaurant".toList ++ bs =
        (front ++ "restaura".toList) ++ 'n' :: 't' :: bs := by simp
    rw [hword, lastTwo_append (by decide) hbs]
    decide
  | @restaurantId joint gap hjoint hgap =>
    rw [← List.append_assoc, ← List.append_assoc, ← List.append_assoc]
    refine hgap.endsLead (by decide) fun bs hbs => ?_
    have hword : front ++ "restaurant".toList ++ joint ++ "id".toList ++ bs =
        (front ++ "restaurant".toList ++ joint) ++ 'i' :: 'd' :: bs := by simp
    rw [hword, lastTwo_append (by decide) hbs]
    decide

section Taken

variable {q x ds y : List Char} (h : TakenId q x ds y)
include h

theorem TakenId.endsLead : EndsLead (lastTwo (spelled x)) := by
  obtain ⟨front, lead, _, _, hx, hlead, _⟩ := h.taken
  rw [hx]
  exact hlead.endsLead front

/-- A blank, a letter of the word for a restaurant, a mark or the last letter of the word for an id
stands right in front of an id. -/
theorem TakenId.last_cases : ∀ c ∈ x.getLast?,
    isBlank c = true ∨ c ∈ spellingLetters ++ [':', '=', '#', 'd'] := by
  intro c hc
  rw [or_iff_not_imp_left, Bool.not_eq_true]
  intro hblank
  by_cases hletter : c ∈ spellingLetters
  · exact List.mem_append_left _ hletter
  · obtain ⟨x, rfl⟩ := List.getLast?_eq_some_iff.mp hc
    have hends := h.endsLead
    rw [spelled_append_singleton hletter] at hends
    have hnil : ∀ b ∈ ([] : List Char), isBlank b = true := nofun
    have hhead := head?_lastTwo hblank hnil (spelled x)
    have hmarks : [':', '=', '#', 't'] ⊆ spellingLetters ++ [':', '=', '#', 'd'] := by decide
    rcases hends with ⟨e, hmem, he⟩ | hends
    · obtain rfl := Option.some.inj (hhead.symm.trans he)
      exact hmarks hmem
    · rw [hends] at hhead
      obtain rfl := Option.some.inj hhead
      decide

/-- No character of a date stands right in front of an id. -/
theorem TakenId.not_isDateChar : ∀ c ∈ x.getLast?, isDateChar c = false := by
  have hnone : ∀ e ∈ spellingLetters ++ [':', '=', '#', 'd'], isDateChar e = false :=
    eq_false_of_all (by decide)
  intro c hc
  rcases h.last_cases c hc with hblank | hmem
  · rw [Bool.eq_false_iff]
    intro hdate
    rw [not_isBlank_of_isDateChar hdate] at hblank
    cases hblank
  · exact hnone c hmem

end Taken

end Question
end QueryGate
