import Mathlib.Data.String.Basic
import QueryGate.Proofs.Policy.Verdicts
import QueryGate.Proofs.Text.Numeral
import QueryGate.Summary

/-!
# The tally in a summary

The plain summary tells how many rows of a table were completed, failed, were not completed or are
unknown.  The numbers that it tells are those of the verdicts on the rows and together account for
every row, and nothing in the summary depends on the order of the rows.
-/

namespace QueryGate
namespace Summary

open Text
open Completion (isCompleted isFailed)

/-! ### Counting -/

section Counting

variable (rules : List (String × CompletionRule)) (table : String)

/-- The rows that are counted as failed: the completed ones are not looked at again. -/
def countedFailed (row : Row) : Bool :=
  isCompleted rules table row = some false ∧ isFailed rules table row = some true

theorem Tally.add_eq (t : Tally) (row : Row) :
    t.add rules table row =
      ⟨t.completed + if isCompleted rules table row = some true then 1 else 0,
        t.failed + if countedFailed rules table row then 1 else 0,
        t.unknown + if isCompleted rules table row = none then 1 else 0⟩ := by
  unfold Tally.add countedFailed
  split
  · rename_i hverdict
    simp [hverdict]
  · rename_i hverdict
    simp [hverdict]
  · rename_i hverdict
    by_cases hfailed : isFailed rules table row = some true <;> simp [hverdict, hfailed]

theorem foldl_add (rows : List Row) (t : Tally) :
    rows.foldl (Tally.add rules table) t =
      ⟨t.completed + rows.countP fun row => isCompleted rules table row = some true,
        t.failed + rows.countP (countedFailed rules table),
        t.unknown + rows.countP fun row => isCompleted rules table row = none⟩ := by
  induction rows generalizing t with
  | nil => rfl
  | cons row rows ih =>
    rw [List.foldl_cons, ih, Tally.add_eq]
    simp only [List.countP_cons, decide_eq_true_eq, Tally.mk.injEq]
    omega

/-- The tally counts the rows by their verdicts. -/
theorem tally_eq (rows : List Row) :
    tally rules table rows =
      ⟨rows.countP fun row => isCompleted rules table row = some true,
        rows.countP (countedFailed rules table),
        rows.countP fun row => isCompleted rules table row = none⟩ := by
  rw [tally, foldl_add]
  simp only [Nat.zero_add]

/-- The rows that have been counted. -/
def Tally.total (t : Tally) : Nat := t.completed + t.failed + t.unknown

theorem Tally.total_add_le (t : Tally) (row : Row) :
    (t.add rules table row).total ≤ t.total + 1 := by
  unfold Tally.add Tally.total
  split
  · exact Nat.le_refl _
  · dsimp only
    omega
  · split
    · dsimp only
      omega
    · omega

theorem total_foldl_le (rows : List Row) (t : Tally) :
    (rows.foldl (Tally.add rules table) t).total ≤ t.total + rows.length := by
  induction rows generalizing t with
  | nil => exact Nat.le_refl _
  | cons row rows ih =>
    calc (rows.foldl (Tally.add rules table) (t.add rules table row)).total
        ≤ (t.add rules table row).total + rows.length := ih _
      _ ≤ t.total + 1 + rows.length := Nat.add_le_add_right (t.total_add_le rules table row) _
      _ = t.total + (row :: rows).length := by rw [List.length_cons]; omega

/-- No row is counted twice. -/
theorem total_tally_le (rows : List Row) : (tally rules table rows).total ≤ rows.length := by
  have hrun := total_foldl_le rules table rows ⟨0, 0, 0⟩
  simpa [tally, Tally.total] using hrun

end Counting

theorem countedFailed_shipped (table : String) :
    countedFailed Policy.shipped.completionRules table =
      fun row => decide (isFailed Policy.shipped.completionRules table row = some true) := by
  funext row
  unfold countedFailed
  rw [decide_eq_decide]
  exact ⟨And.right, fun h => ⟨Completion.isCompleted_of_isFailed h, h⟩⟩

/-! ### Reading the numbers back -/

/-- The words that follow the numbers. -/
def completedWords : String := "completed"
@[inherit_doc completedWords]
def failedWords : String := "failed"
@[inherit_doc completedWords]
def pendingWords : String := "not completed"
@[inherit_doc completedWords]
def unknownWords : String := "with unknown status"

/-- The words of the four numbers. -/
def allWords : List String := [completedWords, failedWords, pendingWords, unknownWords]

theorem allWords_nodup : allWords.Nodup := by decide

theorem comma_not_mem_of_mem_allWords : ∀ words ∈ allWords, ',' ∉ words.toList := by decide

/-- The number in front of the given words. -/
def numberBefore? (words : String) (item : List Char) : Option Nat :=
  let digits := item.takeWhile isAsciiDigit
  if digits ≠ [] ∧ item.dropWhile isAsciiDigit = ' ' :: words.toList then some (digitsValue digits)
  else none

/-- The items of a sentence, which commas separate. -/
def items (sentence : String) : List (List Char) :=
  (sentence.toList.dropLast.splitOn ',').map (List.dropWhile (· = ' '))

/-- The number that a tally of rows tells for the given words.  It is zero when the words are left
out, and all rows are unknown when there is no tally. -/
def told (rows : Nat) (words : String) : Option String → Nat
  | some sentence => ((items sentence).findSome? (numberBefore? words)).getD 0
  | none => if words = unknownWords then rows else 0

/-- A number with the words that follow it. -/
def item (e : Nat × String) : List Char := Nat.toDigits 10 e.1 ++ ' ' :: e.2.toList

theorem numberBefore?_item (words : String) (e : Nat × String) :
    numberBefore? words (item e) = if e.2 = words then some e.1 else none := by
  have hdigits : ∀ c ∈ Nat.toDigits 10 e.1, isAsciiDigit c = true := fun c =>
    isAsciiDigit_of_mem_toDigits
  have htake : (item e).takeWhile isAsciiDigit = Nat.toDigits 10 e.1 := by
    rw [item, List.takeWhile_append_of_pos hdigits, List.takeWhile_cons_of_neg (by decide),
      List.append_nil]
  have hdrop : (item e).dropWhile isAsciiDigit = ' ' :: e.2.toList := by
    rw [item, List.dropWhile_append_of_pos hdigits, List.dropWhile_cons_of_neg (by decide)]
  simp [numberBefore?, htake, hdrop, Nat.toDigits_ne_nil, digitsValue_toDigits, String.toList_inj]

theorem dropWhile_item (e : Nat × String) : (item e).dropWhile (· = ' ') = item e := by
  have hdigits : ∀ c ∈ Nat.toDigits 10 e.1, isAsciiDigit c = true := fun c =>
    isAsciiDigit_of_mem_toDigits
  unfold item
  cases hcs : Nat.toDigits 10 e.1 with
  | nil => exact absurd hcs Nat.toDigits_ne_nil
  | cons c cs =>
    have hc : c ≠ ' ' := by
      rintro rfl
      rw [hcs] at hdigits
      exact absurd (hdigits ' ' List.mem_cons_self) (by decide)
    rw [List.cons_append, List.dropWhile_cons_of_neg (by simpa using hc)]

theorem comma_not_mem_item {e : Nat × String} (h : ',' ∉ e.2.toList) : ',' ∉ item e := by
  intro hmem
  rcases List.mem_append.mp hmem with hmem | hmem
  · exact absurd (isAsciiDigit_of_mem_toDigits hmem) (by decide)
  · rcases List.mem_cons.mp hmem with hmem | hmem
    · exact absurd hmem (by decide)
    · exact h hmem

/-- A sentence that lists items. -/
def listed (e : Nat × String) (es : List (Nat × String)) : String :=
  String.ofList (item e ++ (es.flatMap fun e => ',' :: ' ' :: item e) ++ ['.'])

theorem intercalate_cons_eq_flatMap {α : Type} (sep : α) (xs : List α) (rest : List (List α)) :
    [sep].intercalate (xs :: rest) = xs ++ rest.flatMap (sep :: ·) := by
  induction rest generalizing xs with
  | nil => simp [List.intercalate]
  | cons ys rest ih =>
    rw [List.intercalate_cons_cons, ih ys, List.flatMap_cons]
    simp

theorem items_listed {e : Nat × String} {es : List (Nat × String)}
    (h : ∀ e' ∈ e :: es, ',' ∉ e'.2.toList) : items (listed e es) = (e :: es).map item := by
  obtain ⟨he, hes⟩ := List.forall_mem_cons.mp h
  have hcommas : ∀ l ∈ item e :: es.map fun e => ' ' :: item e, ',' ∉ l := by
    simp only [List.forall_mem_cons, List.forall_mem_map]
    refine ⟨comma_not_mem_item he, fun e' he' => ?_⟩
    simpa using comma_not_mem_item (hes e' he')
  have hsplit := List.splitOn_intercalate ',' hcommas (List.cons_ne_nil _ _)
  rw [intercalate_cons_eq_flatMap, List.flatMap_map] at hsplit
  rw [items, listed, String.toList_ofList, List.dropLast_concat, hsplit, List.map_cons,
    List.map_cons, dropWhile_item, List.map_map]
  congr 1
  apply List.map_congr_left
  intro e' _
  rw [Function.comp_apply, List.dropWhile_cons_of_pos (by simp), dropWhile_item]

/-- A number is read back from a sentence that leaves out nothing but zeros. -/
theorem findSome?_numberBefore? {kept all : List (Nat × String)} {n : Nat} {words : String}
    (hkept : ∀ e ∈ kept, e ∈ all) (hleft : ∀ e ∈ all, e ∉ kept → e.1 = 0)
    (hwords : (all.map Prod.snd).Nodup) (h : (n, words) ∈ all) :
    ((kept.map item).findSome? (numberBefore? words)).getD 0 = n := by
  have hread : (kept.map item).findSome? (numberBefore? words) =
      kept.findSome? fun e => if e.2 = words then some e.1 else none := by
    rw [List.findSome?_map]
    congr 1
    funext e
    exact numberBefore?_item words e
  rw [hread]
  cases hfound : kept.findSome? fun e => if e.2 = words then some e.1 else none with
  | none =>
    have hnone := List.findSome?_eq_none_iff.mp hfound
    have hnot : (n, words) ∉ kept := fun hmem => by simpa using hnone _ hmem
    exact (hleft _ h hnot).symm
  | some m =>
    obtain ⟨e, he, hm⟩ := List.exists_of_findSome?_eq_some hfound
    split at hm
    · rename_i hsame
      have heq := List.inj_on_of_nodup_map hwords (hkept e he) h hsame
      rw [heq] at hm
      simpa using hm.symm
    · cases hm

/-! ### The tally in words -/

/-- The numbers of a tally after the first one, with their words. -/
def Tally.others (t : Tally) (rows : Nat) : List (Nat × String) :=
  [(t.failed, failedWords), ((t.pending rows).toNat, pendingWords), (t.unknown, unknownWords)]

/-- What stands in a tally for a number behind the first one. -/
def further (e : Nat × String) : List Char :=
  ([e].filter (·.1 ≠ 0)).flatMap fun e => ',' :: ' ' :: item e

theorem toList_further {n : Nat} {written words : String}
    (h : written.toList = ' ' :: words.toList) :
    (if n = 0 then "" else ", " ++ toString n ++ written).toList = further (n, words) := by
  by_cases hn : n = 0
  · simp [hn, further]
  · simp [hn, further, item, h]

/-- The sentence lists the numbers that are not zero. -/
theorem Tally.text_eq {t : Tally} {rows : Nat} (h : t.total ≤ rows) :
    t.text rows =
      listed (t.completed, completedWords) ((t.others rows).filter (·.1 ≠ 0)) := by
  obtain ⟨pending, hpending⟩ : ∃ n : Nat, t.pending rows = n := by
    apply Int.eq_ofNat_of_zero_le
    unfold Tally.total at h
    unfold Tally.pending
    omega
  have hothers : ((t.others rows).filter (·.1 ≠ 0)).flatMap (fun e => ',' :: ' ' :: item e) =
      further (t.failed, failedWords) ++ further (pending, pendingWords) ++
        further (t.unknown, unknownWords) := by
    have hparts : t.others rows =
        [(t.failed, failedWords)] ++ [(pending, pendingWords)] ++ [(t.unknown, unknownWords)] := by
      rw [Tally.others, hpending, Int.toNat_natCast]
      rfl
    rw [hparts, List.filter_append, List.filter_append, List.flatMap_append, List.flatMap_append]
    rfl
  have hfailed : (if t.failed = 0 then "" else ", " ++ toString t.failed ++ " failed").toList =
      further (t.failed, failedWords) := toList_further (by decide)
  have hpending' : (if (pending : Int) = 0 then "" else
      ", " ++ toString (pending : Int) ++ " not completed").toList =
        further (pending, pendingWords) := by
    simp only [Int.natCast_eq_zero]
    exact toList_further (by decide)
  have hunknown : (if t.unknown = 0 then "" else
      ", " ++ toString t.unknown ++ " with unknown status").toList =
        further (t.unknown, unknownWords) := toList_further (by decide)
  have hcompleted : " completed".toList = ' ' :: completedWords.toList := by decide
  apply String.toList_inj.mp
  rw [listed, String.toList_ofList, hothers, Tally.text, hpending]
  simp only [String.toList_append, hfailed, hpending', hunknown, hcompleted, toList_toString, item,
    List.append_assoc]
  rfl

/-- The numbers of a tally with their words. -/
def Tally.numbers (t : Tally) (rows : Nat) : List (Nat × String) :=
  (t.completed, completedWords) :: t.others rows

theorem Tally.words_numbers (t : Tally) (rows : Nat) :
    (t.numbers rows).map Prod.snd = allWords := rfl

/-- Each number of a tally is read back from its sentence. -/
theorem told_text {t : Tally} {rows n : Nat} {words : String} (h : t.total ≤ rows)
    (hmem : (n, words) ∈ t.numbers rows) :
    told rows words (some (t.text rows)) = n := by
  have hkept : ∀ e ∈ (t.completed, completedWords) :: (t.others rows).filter (·.1 ≠ 0),
      e ∈ t.numbers rows :=
    List.cons_subset_cons _ (List.filter_subset_self _)
  have hcommas : ∀ e ∈ (t.completed, completedWords) :: (t.others rows).filter (·.1 ≠ 0),
      ',' ∉ e.2.toList := by
    intro e he
    apply comma_not_mem_of_mem_allWords
    rw [← t.words_numbers rows]
    exact List.mem_map_of_mem (hkept e he)
  rw [told, Tally.text_eq h, items_listed hcommas]
  apply findSome?_numberBefore? hkept _ (t.words_numbers rows ▸ allWords_nodup) hmem
  intro e he hleft
  by_contra hne
  apply hleft
  rcases List.mem_cons.mp he with rfl | he
  · exact List.mem_cons_self
  · exact List.mem_cons_of_mem _ (List.mem_filter.mpr ⟨he, by simpa using hne⟩)

/-- A tally is left out only if every row is unknown, and then nothing else is to be told. -/
theorem told_tallyText? (rules : List (String × CompletionRule)) (table : String)
    (rows : List Row) (n : Nat) (words : String)
    (hmem : (n, words) ∈ (tally rules table rows).numbers rows.length) :
    told rows.length words (tallyText? rules table rows) = n := by
  have htotal := total_tally_le rules table rows
  unfold tallyText?
  dsimp only
  split
  · exact told_text htotal hmem
  · rename_i hunknown
    have hcounts : (tally rules table rows).completed = 0 ∧ (tally rules table rows).failed = 0 ∧
        (tally rules table rows).unknown = rows.length ∧
        ((tally rules table rows).pending rows.length).toNat = 0 := by
      unfold Tally.total at htotal
      unfold Tally.pending
      omega
    obtain ⟨hcompleted, hfailed, hunknown, hpending⟩ := hcounts
    simp only [Tally.numbers, Tally.others, hcompleted, hfailed, hunknown, hpending,
      List.mem_cons, List.not_mem_nil, or_false, Prod.mk.injEq] at hmem
    rcases hmem with ⟨rfl, rfl⟩ | ⟨rfl, rfl⟩ | ⟨rfl, rfl⟩ | ⟨rfl, rfl⟩
    · rw [told, if_neg (by decide)]
    · rw [told, if_neg (by decide)]
    · rw [told, if_neg (by decide)]
    · rw [told, if_pos rfl]

/-! ### The order of the rows -/

theorem lastText?_eq_max? (xs : List String) : lastText? xs = xs.max? := by
  have hmax : (fun best t : String => if best < t then t else best) = max := by
    funext best t
    rw [max_def_lt]
  cases xs with
  | nil => rfl
  | cons s rest =>
    rw [lastText?, hmax]
    rfl

theorem lastText?_eq_some_iff {xs : List String} {m : String} :
    lastText? xs = some m ↔ m ∈ xs ∧ ∀ x ∈ xs, x ≤ m := by
  rw [lastText?_eq_max?, List.max?_eq_some_iff]

section Perm

variable {rows rows' : List Row} (h : rows.Perm rows')
include h

theorem lastText?_columnTexts_perm (column : String) :
    lastText? (columnTexts rows column) = lastText? (columnTexts rows' column) := by
  have htexts : (columnTexts rows column).Perm (columnTexts rows' column) := h.filterMap _
  apply Option.ext
  intro m
  simp only [lastText?_eq_some_iff, htexts.mem_iff]

theorem latestTime?_perm : latestTime? rows = latestTime? rows' := by
  unfold latestTime?
  congr 1
  funext column
  exact lastText?_columnTexts_perm h column

theorem tally_perm (rules : List (String × CompletionRule)) (table : String) :
    tally rules table rows = tally rules table rows' := by
  rw [tally_eq, tally_eq, h.countP_eq, h.countP_eq, h.countP_eq]

omit h in
theorem onlyNumber?_eq_none (hlength : rows.length ≠ 1) : onlyNumber? rows = none := by
  unfold onlyNumber?
  split
  · exact absurd rfl hlength
  · rfl

theorem onlyNumber?_perm : onlyNumber? rows = onlyNumber? rows' := by
  by_cases hlength : rows.length = 1
  · obtain ⟨row, rfl⟩ := List.length_eq_one_iff.mp hlength
    rw [List.singleton_perm.mp h]
  · rw [onlyNumber?_eq_none hlength, onlyNumber?_eq_none (h.length_eq ▸ hlength)]

theorem plain_perm (sql : String) (tenant : Int) (period : Option Period) :
    plain sql rows tenant period = plain sql rows' tenant period := by
  have hempty : rows.isEmpty = rows'.isEmpty := h.isEmpty_eq
  simp only [plain, tallyAnswer, tallyText?, latestText?, hempty, onlyNumber?_perm h, tally_perm h,
    latestTime?_perm h, h.length_eq]

end Perm

/-! ### What the summary tells -/

/-- The numbers that are told of the rows of a table are those of the verdicts on the rows, and they
account for every row. -/
structure Accounts (rules : List (String × CompletionRule)) (table : String) (rows : List Row)
    (sentence : Option String) : Prop where
  completed : told rows.length completedWords sentence =
    rows.countP fun row => isCompleted rules table row = some true
  failed : told rows.length failedWords sentence =
    rows.countP fun row => isFailed rules table row = some true
  unknown : told rows.length unknownWords sentence =
    rows.countP fun row => isCompleted rules table row = none
  everyRow : told rows.length completedWords sentence + told rows.length failedWords sentence +
    told rows.length pendingWords sentence + told rows.length unknownWords sentence = rows.length

theorem accounts_tallyText? (table : String) (rows : List Row) :
    Accounts Policy.shipped.completionRules table rows
      (tallyText? Policy.shipped.completionRules table rows) := by
  have hread := told_tallyText? Policy.shipped.completionRules table rows
  have htotal := total_tally_le Policy.shipped.completionRules table rows
  generalize tallyText? Policy.shipped.completionRules table rows = sentence at hread ⊢
  generalize htally : tally Policy.shipped.completionRules table rows = t at hread htotal
  simp only [Tally.numbers, Tally.others, List.mem_cons, List.not_mem_nil, or_false] at hread
  have hcompleted := hread t.completed completedWords (by simp)
  have hfailed := hread t.failed failedWords (by simp)
  have hpending := hread (t.pending rows.length).toNat pendingWords (by simp)
  have hunknown := hread t.unknown unknownWords (by simp)
  rw [tally_eq, countedFailed_shipped] at htally
  refine ⟨?_, ?_, ?_, ?_⟩
  · rw [hcompleted, ← htally]
  · rw [hfailed, ← htally]
  · rw [hunknown, ← htally]
  · rw [hcompleted, hfailed, hpending, hunknown]
    unfold Tally.total at htotal
    unfold Tally.pending
    omega

/-- The answer to a question whose result is more than one number: the tally in it tells what the
completion rules say of the rows of the first table that the statement reads, it accounts for every
row, and the answer is the same in whatever order the rows come. -/
theorem plain_tallies_every_row (sql : String) (rows : List Row) (tenant : Int)
    (period : Option Period) (hrows : rows ≠ []) (hnumber : onlyNumber? rows = none) :
    let tables := Guard.tablesOf sql.toList
    let rules := Policy.shipped.completionRules
    let sentence := tallyText? rules (tables.head?.getD "") rows
    plain sql rows tenant period =
        " ".intercalate (foundText tables rows.length tenant (periodPhrase period) ::
          (sentence.toList ++ (latestText? rows).toList)) ∧
      Accounts rules (tables.head?.getD "") rows sentence ∧
      ∀ rows', rows'.Perm rows → plain sql rows' tenant period = plain sql rows tenant period := by
  refine ⟨?_, accounts_tallyText? _ rows, ?_⟩
  · have hempty : rows.isEmpty = false := List.isEmpty_eq_false_iff.mpr hrows
    simp only [plain, hempty, hnumber, Bool.false_eq_true, if_false]
    rfl
  · intro rows' hperm
    exact plain_perm hperm sql tenant period

/-- Three rows of a table, of which one was completed and one failed. -/
def threeRows : List Row :=
  [[("id", .int 1), ("status", .int 1)], [("id", .int 2), ("status", .int 0)],
    [("id", .int 3), ("status", .null)]]

/-- One failed row is told of the three, and the same is told of them the other way round. -/
theorem plain_tallies_threeRows :
    let sql := "SELECT id, status FROM hot_holding"
    let table := (Guard.tablesOf sql.toList).head?.getD ""
    (threeRows ≠ [] ∧ onlyNumber? threeRows = none) ∧
      table = "hot_holding" ∧
      told 3 failedWords (tallyText? Policy.shipped.completionRules table threeRows) = 1 ∧
      plain sql threeRows.reverse 74 none = plain sql threeRows 74 none := by
  intro sql table
  have hrows : threeRows ≠ [] ∧ onlyNumber? threeRows = none := ⟨by decide, rfl⟩
  have htable : table = "hot_holding" := by decide +kernel
  obtain ⟨_, haccounts, hperm⟩ := plain_tallies_every_row sql threeRows 74 none hrows.1 hrows.2
  refine ⟨hrows, htable, ?_, hperm _ threeRows.reverse_perm⟩
  have hfailed : told 3 failedWords (tallyText? Policy.shipped.completionRules table threeRows) =
      threeRows.countP fun row =>
        isFailed Policy.shipped.completionRules table row = some true := haccounts.failed
  rw [hfailed, htable]
  decide +kernel

end Summary
end QueryGate
