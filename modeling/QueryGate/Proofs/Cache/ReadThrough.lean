import QueryGate.Proofs.Cache.Room

/-!
# Reading through a cache

A lookup that comes with a source counts as a miss exactly when the cache has no fresh entry under
the key.  The source is asked then, and also when the fresh entry says that there is nothing: such
an entry is found, but not taken for an answer.  A source that fails leaves all that is fresh alone.
-/

namespace QueryGate
namespace Cache

variable {α ε : Type}

/-- Whether the entry that a lookup finds, if it finds one, holds more than that there is nothing.
-/
def FindsAnswer (c : Cache α) (now : Binary64) (key : String) : Prop :=
  ∀ e, c.fresh? now key = some e → e.answer ≠ none

/-! ### What a lookup with a source gives -/

section Lookup

variable (c : Cache α) (asked answered : Binary64) (key : String) (source : Except ε (Option α))

theorem asked_getOrLoad_iff :
    (c.getOrLoad asked answered key source).asked = true ↔
      ∀ e, c.fresh? asked key = some e → e.answer = none := by
  rw [(getOrLoad_eq c asked answered key source).1, (get_eq c asked key).1]
  cases c.fresh? asked key with
  | none => simp
  | some e => simp

/-- Storing what the source answers counts nothing. -/
theorem counts_getOrLoad :
    (c.getOrLoad asked answered key source).cache.hits = (c.get asked key).2.hits ∧
      (c.getOrLoad asked answered key source).cache.misses = (c.get asked key).2.misses := by
  unfold getOrLoad
  rcases c.get asked key with ⟨_ | v, d⟩
  · cases source with
    | error f => exact ⟨rfl, rfl⟩
    | ok answer => exact put_counts d answered key answer
  · exact ⟨rfl, rfl⟩

theorem misses_getOrLoad_iff :
    c.misses < (c.getOrLoad asked answered key source).cache.misses ↔
      c.fresh? asked key = none := by
  rw [(counts_getOrLoad c asked answered key source).2, (get_eq c asked key).2.2]
  cases c.fresh? asked key with
  | none => simp
  | some e => simp

variable {c asked key}

/-- An answer that is found is given as it is. -/
theorem result_of_fresh {e : CacheEntry α} (h : c.fresh? asked key = some e)
    (hanswer : e.answer ≠ none) :
    (c.getOrLoad asked answered key source).result = .ok e.answer := by
  obtain ⟨v, hv⟩ := Option.ne_none_iff_exists'.mp hanswer
  rw [(getOrLoad_eq c asked answered key source).2, (get_eq c asked key).1, h]
  simp [hv]

theorem result_of_asked (h : (c.getOrLoad asked answered key source).asked = true) :
    (c.getOrLoad asked answered key source).result = source := by
  obtain ⟨hasked, hresult⟩ := getOrLoad_eq c asked answered key source
  rw [hasked, Option.isNone_iff_eq_none] at h
  rw [hresult, h]
  rfl

/-- The source is asked on a miss and no other time, if what is found is an answer. -/
theorem asked_iff_miss_iff :
    ((c.getOrLoad asked answered key source).asked = true ↔ c.fresh? asked key = none) ↔
      c.FindsAnswer asked key := by
  rw [asked_getOrLoad_iff]
  constructor
  · intro h e he hnothing
    have hnone : c.fresh? asked key = none := by
      apply h.mp
      intro x hx
      rwa [Option.some.inj (hx.symm.trans he)]
    rw [he] at hnone
    cases hnone
  · intro h
    constructor
    · intro hasked
      apply Option.eq_none_iff_forall_ne_some.mpr
      intro e he
      exact h e he (hasked e he)
    · intro hnone e he
      rw [hnone] at he
      cases he

end Lookup

/-! ### What stays in the cache -/

/-- The entries that are fresh at a moment, in order. -/
def freshEntries (c : Cache α) (now : Binary64) (entries : List (CacheEntry α)) :
    List (CacheEntry α) :=
  entries.filter fun e => !c.isExpired now e

/-- A lookup leaves the fresh entries alone. -/
theorem freshEntries_get {c : Cache α} (hkeys : c.keys.Nodup) (now : Binary64) (key : String) :
    c.freshEntries now (c.get now key).2.entries = c.freshEntries now c.entries := by
  rcases get_entries c now key with hsame | ⟨e, he, hexpired, herased⟩
  · rw [hsame]
  · obtain ⟨hmem, rfl⟩ := mem_of_entry? he
    rw [herased]
    unfold freshEntries erase
    rw [List.filter_filter]
    apply List.filter_congr
    intro x hx
    -- under the key there is only the entry that has expired
    by_cases hkey : x.key = e.key
    · rw [eq_of_key_eq hkeys hx hmem hkey, hexpired]
      rfl
    · simp [hkey]

/-- A source that fails leaves the cache as the lookup alone does. -/
theorem cache_of_error (c : Cache α) (asked answered : Binary64) (key : String) (f : ε) :
    (c.getOrLoad asked answered key (.error f)).cache = (c.get asked key).2 := by
  unfold getOrLoad
  rcases c.get asked key with ⟨_ | v, d⟩ <;> rfl

theorem nodup_afterCalls (ttl : Binary64) (maxSize : Int) (calls : List (Call ε α)) :
    (afterCalls (empty ttl maxSize) calls).keys.Nodup := by
  rw [afterCalls_eq_replay]
  exact (fits_replay (fits_empty ttl maxSize) _).keys

/-- A lookup with a source, behind any calls.  It counts as a miss exactly when the cache has no
fresh entry under the key.  The source is asked when there is none, and when the one that there is
says that there is nothing; so it is asked on a miss only if and only if the entry found holds an
answer, and that answer is given.  A source that is asked has the last word, a failure included, and
a source that fails leaves the fresh entries as they were. -/
theorem asks_source_on_miss (ttl : Binary64) (maxSize : Int) (calls : List (Call ε α))
    (asked answered : Binary64) (key : String) (source : Except ε (Option α)) :
    let c := afterCalls (empty ttl maxSize) calls
    let got := c.getOrLoad asked answered key source
    (c.misses < got.cache.misses ↔ c.fresh? asked key = none) ∧
      (got.asked = true ↔ ∀ e, c.fresh? asked key = some e → e.answer = none) ∧
      ((got.asked = true ↔ c.fresh? asked key = none) ↔ c.FindsAnswer asked key) ∧
      (∀ e, c.fresh? asked key = some e → e.answer ≠ none → got.result = .ok e.answer) ∧
      (got.asked = true → got.result = source) ∧
      ∀ f, source = .error f →
        c.freshEntries asked got.cache.entries = c.freshEntries asked c.entries := by
  intro c got
  refine ⟨misses_getOrLoad_iff c asked answered key source,
    asked_getOrLoad_iff c asked answered key source, asked_iff_miss_iff answered source, ?_,
    result_of_asked answered source, ?_⟩
  · intro e he hanswer
    exact result_of_fresh answered source he hanswer
  · rintro f rfl
    show c.freshEntries asked (c.getOrLoad asked answered key (.error f)).cache.entries = _
    rw [cache_of_error]
    exact freshEntries_get (nodup_afterCalls ttl maxSize calls) asked key

/-- Two answers, of which the first is older than a minute when the second is not. -/
def pastAnswers : List (Call String Nat) :=
  [.put (.ofInt 0) "a" (some 1), .put (.ofInt 50) "b" (some 2)]

/-- The first answer is asked for again, in vain, and the second one stays. -/
theorem asks_source_on_miss_in_vain :
    let c := afterCalls (empty (.ofInt 60) 2) pastAnswers
    let got := c.getOrLoad (.ofInt 70) (.ofInt 71) "a" (.error "gone away")
    c.misses < got.cache.misses ∧ got.asked = true ∧ got.result = .error "gone away" ∧
      (c.freshEntries (.ofInt 70) got.cache.entries).map (·.key) = ["b"] := by
  dsimp only
  obtain ⟨hmisses, hasked, _, _, hresult, hkept⟩ :=
    asks_source_on_miss (.ofInt 60) 2 pastAnswers (.ofInt 70) (.ofInt 71) "a"
      (.error "gone away")
  have hnone : (afterCalls (empty (.ofInt 60) 2) pastAnswers).fresh? (.ofInt 70) "a" = none :=
    Option.isNone_iff_eq_none.mp (by decide +kernel)
  have hmissed := hasked.mpr fun e he => by cases hnone.symm.trans he
  refine ⟨hmisses.mpr hnone, hmissed, hresult hmissed, ?_⟩
  rw [hkept _ rfl]
  decide +kernel

/-- A source has answered that there is nothing.  A second later that answer is found, which is no
miss, and the source is asked all the same. -/
theorem nothing_asked_for_again :
    let asksNothing : Call String Nat := .getOrLoad (.ofInt 0) (.ofInt 0) "a" (.ok none)
    let c := afterCalls (empty (.ofInt 60) 2) [asksNothing]
    let got := c.getOrLoad (.ofInt 1) (.ofInt 1) "a" (.ok (some 7) : Except String (Option Nat))
    (c.fresh? (.ofInt 1) "a").map (·.answer) = some none ∧ got.asked = true ∧
      ¬ c.misses < got.cache.misses := by
  decide +kernel

end Cache
end QueryGate
