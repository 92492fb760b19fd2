import Mathlib.Data.Finset.Card
import QueryGate.Cache
import QueryGate.Proofs.Number.Rounding

/-!
# Runs of a cache

What a cache gives after any number of calls.  The calls leave a history of single steps behind, each
with its reading of the clock.  An answer that the cache gives is the last one that was stored under
its key, and it is no older than the lifetime.  Such an answer is not lost as long as fewer other
keys were stored behind it than the cache has places.
-/

namespace QueryGate
namespace Cache

variable {α ε : Type}

/-! ### Steps and calls -/

/-- A single step: a lookup, a store, or the removal of one answer, of all, or of the expired ones. -/
inductive Event (α : Type) where
  | lookup (now : Binary64) (key : String)
  | store (now : Binary64) (key : String) (answer : Option α)
  | forget (key : String)
  | forgetAll
  | sweep (now : Binary64)

namespace Event

/-- The cache behind a step. -/
def apply (c : Cache α) : Event α → Cache α
  | lookup now key => (c.get now key).2
  | store now key answer => c.put now key answer
  | forget key => (c.invalidate key).2
  | forgetAll => c.clear.2
  | sweep now => (c.cleanupExpired now).2

/-- The reading of the clock that a step is made at. -/
def reading? : Event α → Option Binary64
  | lookup now _ | store now _ _ | sweep now => some now
  | forget _ | forgetAll => none

/-- The reading of the clock that a store is made at. -/
def storedAt? : Event α → Option Binary64
  | store now _ _ => some now
  | _ => none

/-- The key that something is stored under. -/
def storedKey? : Event α → Option String
  | store _ key _ => some key
  | _ => none

/-- Whether a step stores something under a key or forgets the answer under it. -/
def Touches (key : String) : Event α → Prop
  | store _ k _ | forget k => k = key
  | forgetAll => True
  | lookup .. | sweep _ => False

/-- Whether a step is a lookup. -/
def isLookup : Event α → Bool
  | lookup .. => true
  | _ => false

end Event

/-- A call of the cache, with the readings of the clock that it makes. -/
inductive Call (ε α : Type) where
  | get (now : Binary64) (key : String)
  | put (now : Binary64) (key : String) (answer : Option α)
  | getOrLoad (asked answered : Binary64) (key : String) (source : Except ε (Option α))
  | invalidate (key : String)
  | clear
  | cleanupExpired (now : Binary64)

namespace Call

/-- The cache behind a call. -/
def apply (c : Cache α) : Call ε α → Cache α
  | get now key => (c.get now key).2
  | put now key answer => c.put now key answer
  | getOrLoad asked answered key source => (c.getOrLoad asked answered key source).cache
  | invalidate key => (c.invalidate key).2
  | clear => c.clear.2
  | cleanupExpired now => (c.cleanupExpired now).2

/-- The steps of a call.  What a source answers is stored. -/
def events (c : Cache α) : Call ε α → List (Event α)
  | get now key => [.lookup now key]
  | put now key answer => [.store now key answer]
  | getOrLoad asked answered key source =>
    .lookup asked key ::
      match (c.get asked key).1, source with
      | none, .ok answer => [.store answered key answer]
      | _, _ => []
  | invalidate key => [.forget key]
  | clear => [.forgetAll]
  | cleanupExpired now => [.sweep now]

/-- Whether a call looks something up. -/
def looksUp : Call ε α → Bool
  | get .. | getOrLoad .. => true
  | _ => false

end Call

/-- The cache behind several calls. -/
def afterCalls (c : Cache α) (calls : List (Call ε α)) : Cache α := calls.foldl Call.apply c

/-- The steps of several calls. -/
def history (c : Cache α) : List (Call ε α) → List (Event α)
  | [] => []
  | call :: calls => call.events c ++ history (call.apply c) calls

/-- The cache behind several steps. -/
def replay (c : Cache α) (steps : List (Event α)) : Cache α := steps.foldl Event.apply c

theorem replay_append (c : Cache α) (steps more : List (Event α)) :
    replay c (steps ++ more) = replay (replay c steps) more := List.foldl_append

/-- A call does what its steps do. -/
theorem apply_eq_replay (c : Cache α) (call : Call ε α) :
    call.apply c = replay c (call.events c) := by
  cases call with
  | getOrLoad asked answered key source =>
    simp only [Call.apply, Call.events, getOrLoad]
    rcases hget : c.get asked key with ⟨_ | answer, c'⟩ <;> cases source <;>
      simp [replay, Event.apply, hget]
  | _ => rfl

theorem afterCalls_eq_replay (c : Cache α) (calls : List (Call ε α)) :
    afterCalls c calls = replay c (history c calls) := by
  induction calls generalizing c with
  | nil => rfl
  | cons call calls ih =>
    rw [history, replay_append, ← apply_eq_replay, ← ih]
    rfl

theorem countP_events (c : Cache α) (call : Call ε α) :
    (call.events c).countP Event.isLookup = if call.looksUp then 1 else 0 := by
  cases call with
  | getOrLoad asked answered key source =>
    simp only [Call.events, Call.looksUp]
    split <;> rfl
  | _ => rfl

theorem countP_history (c : Cache α) (calls : List (Call ε α)) :
    (history c calls).countP Event.isLookup = calls.countP Call.looksUp := by
  induction calls generalizing c with
  | nil => rfl
  | cons call calls ih =>
    rw [history, List.countP_append, ih, countP_events, List.countP_cons, Nat.add_comm]

/-! ### The entries behind a step -/

theorem mem_store {e x : CacheEntry α} {entries : List (CacheEntry α)}
    (hkeys : (entries.map (·.key)).Nodup) :
    x ∈ store e entries ↔ x = e ∨ x ∈ entries ∧ x.key ≠ e.key := by
  induction entries with
  | nil => simp [store]
  | cons y entries ih =>
    obtain ⟨hy, hrest⟩ := List.nodup_cons.mp hkeys
    have hother : x ∈ entries → x.key ≠ y.key :=
      fun hx heq => hy (List.mem_map.mpr ⟨x, hx, heq⟩)
    unfold store
    split
    · rename_i hsame
      rw [List.mem_cons, List.mem_cons, ← hsame]
      constructor
      · rintro (rfl | hx)
        · exact Or.inl rfl
        · exact Or.inr ⟨Or.inr hx, hother hx⟩
      · rintro (rfl | ⟨rfl | hx, hne⟩)
        · exact Or.inl rfl
        · exact absurd rfl hne
        · exact Or.inr hx
    · rename_i hdiffer
      rw [List.mem_cons, List.mem_cons, ih hrest]
      constructor
      · rintro (rfl | rfl | ⟨hx, hne⟩)
        · exact Or.inr ⟨Or.inl rfl, hdiffer⟩
        · exact Or.inl rfl
        · exact Or.inr ⟨Or.inr hx, hne⟩
      · rintro (rfl | ⟨rfl | hx, hne⟩)
        · exact Or.inr (Or.inl rfl)
        · exact Or.inl rfl
        · exact Or.inr (Or.inr ⟨hx, hne⟩)

theorem nodup_store (e : CacheEntry α) {entries : List (CacheEntry α)}
    (hkeys : (entries.map (·.key)).Nodup) : ((store e entries).map (·.key)).Nodup := by
  induction entries with
  | nil => simp [store]
  | cons y entries ih =>
    obtain ⟨hy, hrest⟩ := List.nodup_cons.mp hkeys
    unfold store
    split
    · rename_i hsame
      rw [List.map_cons, ← hsame]
      exact hkeys
    · rename_i hdiffer
      refine List.nodup_cons.mpr ⟨?_, ih hrest⟩
      intro hmem
      obtain ⟨x, hx, hkey⟩ := List.mem_map.mp hmem
      rcases (mem_store hrest).mp hx with rfl | ⟨hx, _⟩
      · exact hdiffer hkey.symm
      · exact hy (List.mem_map.mpr ⟨x, hx, hkey⟩)

/-- Of entries with different keys a key picks one. -/
theorem eq_of_key_eq {c : Cache α} (hkeys : c.keys.Nodup) {x y : CacheEntry α} (hx : x ∈ c.entries)
    (hy : y ∈ c.entries) (h : x.key = y.key) : x = y :=
  List.inj_on_of_nodup_map hkeys hx hy h

theorem mem_of_entry? {c : Cache α} {key : String} {e : CacheEntry α}
    (h : c.entry? key = some e) : e ∈ c.entries ∧ e.key = key :=
  ⟨List.mem_of_find?_eq_some h, by simpa using List.find?_some h⟩

theorem entry?_of_mem {c : Cache α} (hkeys : c.keys.Nodup) {e : CacheEntry α}
    (he : e ∈ c.entries) : c.entry? e.key = some e := by
  cases hfound : c.entry? e.key with
  | none =>
    have hnone := List.find?_eq_none.mp hfound e he
    simp at hnone
  | some x =>
    obtain ⟨hx, hkey⟩ := mem_of_entry? hfound
    rw [eq_of_key_eq hkeys hx he hkey]

theorem mem_erase {c : Cache α} {key : String} {e : CacheEntry α} :
    e ∈ (c.erase key).entries ↔ e ∈ c.entries ∧ e.key ≠ key := by
  simp [erase]

theorem nodup_erase {c : Cache α} (hkeys : c.keys.Nodup) (key : String) :
    (c.erase key).keys.Nodup :=
  hkeys.sublist (List.filter_sublist.map _)

/-- A lookup leaves the cache as it is, or takes an expired entry out of it. -/
theorem get_entries (c : Cache α) (now : Binary64) (key : String) :
    (c.get now key).2.entries = c.entries ∨
      ∃ e, c.entry? key = some e ∧ c.isExpired now e = true ∧
        (c.get now key).2.entries = (c.erase key).entries := by
  unfold get
  split
  · exact Or.inl rfl
  · rename_i e he
    split
    · rename_i hexpired
      exact Or.inr ⟨e, he, hexpired, rfl⟩
    · exact Or.inl rfl

theorem get_counts (c : Cache α) (now : Binary64) (key : String) :
    (c.get now key).2.hits + (c.get now key).2.misses = c.hits + c.misses + 1 := by
  unfold get
  split
  · rfl
  · split
    · rfl
    · show c.hits + 1 + c.misses = c.hits + c.misses + 1
      omega

theorem evictOldest_counts (c : Cache α) :
    c.evictOldest.hits = c.hits ∧ c.evictOldest.misses = c.misses := by
  unfold evictOldest
  split <;> exact ⟨rfl, rfl⟩

theorem put_counts (c : Cache α) (now : Binary64) (key : String) (answer : Option α) :
    (c.put now key answer).hits = c.hits ∧ (c.put now key answer).misses = c.misses := by
  unfold put
  simp only
  split
  · exact evictOldest_counts c
  · exact ⟨rfl, rfl⟩

theorem evictOldest_sublist (c : Cache α) : c.evictOldest.entries.Sublist c.entries := by
  unfold evictOldest
  split
  · exact List.Sublist.refl _
  · exact List.filter_sublist

/-- The entries that a store finds in the cache. -/
def roomFor (c : Cache α) (key : String) : List (CacheEntry α) :=
  if c.maxSize ≤ c.size && (c.entry? key).isNone then c.evictOldest.entries else c.entries

theorem put_entries (c : Cache α) (now : Binary64) (key : String) (answer : Option α) :
    (c.put now key answer).entries = store ⟨key, answer, now⟩ (c.roomFor key) := by
  unfold put roomFor
  simp only
  split <;> rfl

theorem roomFor_sublist (c : Cache α) (key : String) : (c.roomFor key).Sublist c.entries := by
  unfold roomFor
  split
  · exact evictOldest_sublist c
  · exact List.Sublist.refl _

theorem nodup_roomFor {c : Cache α} (hkeys : c.keys.Nodup) (key : String) :
    ((c.roomFor key).map (·.key)).Nodup :=
  hkeys.sublist ((roomFor_sublist c key).map _)

theorem mem_put {c : Cache α} (hkeys : c.keys.Nodup) {now : Binary64} {key : String}
    {answer : Option α} {x : CacheEntry α} :
    x ∈ (c.put now key answer).entries ↔
      x = ⟨key, answer, now⟩ ∨ x ∈ c.roomFor key ∧ x.key ≠ key := by
  rw [put_entries, mem_store (nodup_roomFor hkeys key)]

/-- The entries behind a step are those that were there before, or the one that it stored. -/
theorem apply_entries {c : Cache α} (hkeys : c.keys.Nodup) (step : Event α) :
    (step.apply c).keys.Nodup ∧ ∀ x ∈ (step.apply c).entries,
      (x ∈ c.entries ∧ ¬ step.Touches x.key) ∨ step = .store x.createdAt x.key x.answer := by
  cases step with
  | lookup now key =>
    rcases get_entries c now key with hsame | ⟨e, he, _, herased⟩
    · refine ⟨?_, fun x hx => Or.inl ⟨hsame ▸ hx, id⟩⟩
      show ((c.get now key).2.entries.map (·.key)).Nodup
      rw [hsame]
      exact hkeys
    · refine ⟨?_, fun x hx => Or.inl ⟨(mem_erase.mp (herased ▸ hx)).1, id⟩⟩
      show ((c.get now key).2.entries.map (·.key)).Nodup
      rw [herased]
      exact nodup_erase hkeys key
  | store now key answer =>
    refine ⟨?_, ?_⟩
    · show ((c.put now key answer).entries.map (·.key)).Nodup
      rw [put_entries]
      exact nodup_store _ (nodup_roomFor hkeys key)
    · intro x hx
      rcases (mem_put hkeys).mp hx with rfl | ⟨hx, hne⟩
      · exact Or.inr rfl
      · exact Or.inl ⟨(roomFor_sublist c key).subset hx, fun h => hne h.symm⟩
  | forget key =>
    refine ⟨nodup_erase hkeys key, fun x hx => ?_⟩
    obtain ⟨hx, hne⟩ := mem_erase.mp hx
    exact Or.inl ⟨hx, fun h => hne h.symm⟩
  | forgetAll => exact ⟨List.nodup_nil, fun x hx => absurd hx List.not_mem_nil⟩
  | sweep now =>
    refine ⟨hkeys.sublist (List.filter_sublist.map _), fun x hx => ?_⟩
    exact Or.inl ⟨(List.mem_filter.mp hx).1, id⟩

theorem apply_counts (c : Cache α) (step : Event α) :
    (step.apply c).hits + (step.apply c).misses =
      c.hits + c.misses + if step.isLookup then 1 else 0 := by
  cases step with
  | lookup now key => exact get_counts c now key
  | store now key answer =>
    obtain ⟨hhits, hmisses⟩ := put_counts c now key answer
    show (c.put now key answer).hits + (c.put now key answer).misses = _
    rw [hhits, hmisses]
    rfl
  | _ => rfl

theorem apply_limits (c : Cache α) (step : Event α) :
    (step.apply c).ttl = c.ttl ∧ (step.apply c).maxSize = c.maxSize := by
  cases step with
  | lookup now key =>
    show (c.get now key).2.ttl = c.ttl ∧ (c.get now key).2.maxSize = c.maxSize
    unfold get
    split
    · exact ⟨rfl, rfl⟩
    · split <;> exact ⟨rfl, rfl⟩
  | store now key answer =>
    show (c.put now key answer).ttl = c.ttl ∧ (c.put now key answer).maxSize = c.maxSize
    unfold put evictOldest
    simp only
    split
    · split <;> exact ⟨rfl, rfl⟩
    · exact ⟨rfl, rfl⟩
  | _ => exact ⟨rfl, rfl⟩

theorem replay_limits (c : Cache α) (steps : List (Event α)) :
    (replay c steps).ttl = c.ttl ∧ (replay c steps).maxSize = c.maxSize := by
  induction steps generalizing c with
  | nil => exact ⟨rfl, rfl⟩
  | cons step steps ih =>
    obtain ⟨httl, hmax⟩ := apply_limits c step
    rw [← httl, ← hmax]
    exact ih (step.apply c)

/-! ### What a cache remembers -/

/-- The last word of a history on a key: an answer was stored under it, and behind that, in the
given steps, nothing was stored under the key or forgotten with it. -/
def LastStored (steps : List (Event α)) (key : String) (answer : Option α) (stored : Binary64)
    (after : List (Event α)) : Prop :=
  (∃ before, steps = before ++ .store stored key answer :: after) ∧ ∀ e ∈ after, ¬ e.Touches key

/-- A cache fits a history: its entries are last words of it. -/
structure Fits (c : Cache α) (steps : List (Event α)) : Prop where
  keys : c.keys.Nodup
  entries : ∀ e ∈ c.entries, ∃ after, LastStored steps e.key e.answer e.createdAt after
  lookups : c.hits + c.misses = steps.countP Event.isLookup

theorem fits_empty (ttl : Binary64) (maxSize : Int) : (empty ttl maxSize : Cache α).Fits [] :=
  ⟨List.nodup_nil, fun _ he => absurd he List.not_mem_nil, rfl⟩

/-- A step keeps to the history. -/
theorem Fits.apply {c : Cache α} {steps : List (Event α)} (h : c.Fits steps) (step : Event α) :
    (step.apply c).Fits (steps ++ [step]) := by
  obtain ⟨hkeys, hentries⟩ := apply_entries h.keys step
  refine ⟨hkeys, ?_, ?_⟩
  · intro e he
    rcases hentries e he with ⟨hold, huntouched⟩ | rfl
    · obtain ⟨after, ⟨before, rfl⟩, hafter⟩ := h.entries e hold
      refine ⟨after ++ [step], ⟨before, by simp⟩, ?_⟩
      intro x hx
      rcases List.mem_append.mp hx with hx | hx
      · exact hafter x hx
      · rw [List.mem_singleton.mp hx]
        exact huntouched
    · exact ⟨[], ⟨steps, rfl⟩, fun x hx => absurd hx List.not_mem_nil⟩
  · rw [apply_counts, h.lookups, List.countP_append, List.countP_singleton]

/-- A run keeps to its history. -/
theorem fits_replay {c : Cache α} {before : List (Event α)} (h : c.Fits before)
    (steps : List (Event α)) : (replay c steps).Fits (before ++ steps) := by
  induction steps generalizing c before with
  | nil => simpa [replay] using h
  | cons step steps ih =>
    have hrest := ih (h.apply step)
    rw [List.append_assoc] at hrest
    exact hrest

/-! ### The age of an answer -/

/-- An answer is fresh as long as its age, which is a difference of doubles, is at most the
lifetime.  A lifetime that is no number never ends. -/
def IsFresh (ttl now stored : Binary64) : Prop :=
  ttl.isNaN = true ∨ (now.sub stored).place ≤ ttl.place

theorem isExpired_eq_false_iff {c : Cache α} {now : Binary64} {e : CacheEntry α}
    (hnow : now.isFinite = true) (hstored : e.createdAt.isFinite = true) :
    c.isExpired now e = false ↔ IsFresh c.ttl now e.createdAt := by
  unfold isExpired IsFresh
  cases hnan : c.ttl.isNaN with
  | true => simp [← Bool.not_eq_true, Binary64.lt_iff, hnan]
  | false =>
    rw [Binary64.lt_eq_false_iff (Binary64.isNaN_sub hnow hstored) hnan]
    simp

/-- What is fresh now was fresh before. -/
theorem IsFresh.earlier {ttl now then_ stored : Binary64} (h : IsFresh ttl now stored)
    (hnow : now.isFinite = true) (hthen : then_.isFinite = true)
    (hstored : stored.isFinite = true) (hforward : now.lt then_ = false) :
    IsFresh ttl then_ stored := by
  have hplaces : then_.place ≤ now.place :=
    (Binary64.lt_eq_false_iff (Binary64.isNaN_of_isFinite hthen)
      (Binary64.isNaN_of_isFinite hnow)).mp hforward
  exact h.imp id (Binary64.place_sub_mono hthen hnow hstored hstored hplaces le_rfl).trans

/-- An answer that came later is no less fresh. -/
theorem IsFresh.younger {ttl now stored later : Binary64} (h : IsFresh ttl now stored)
    (hnow : now.isFinite = true) (hstored : stored.isFinite = true) (hlater : later.isFinite = true)
    (horder : stored.place ≤ later.place) : IsFresh ttl now later :=
  h.imp id (Binary64.place_sub_mono hnow hnow hlater hstored le_rfl horder).trans

/-- The readings of a clock that never goes back, up to the given one, and that has gone on between
any two stores. -/
structure Ticks (steps : List (Event α)) (now : Binary64) : Prop where
  finite : ∀ r ∈ steps.filterMap Event.reading? ++ [now], r.isFinite = true
  forward : (steps.filterMap Event.reading? ++ [now]).Pairwise fun r later => later.lt r = false
  advances : (steps.filterMap Event.storedAt?).Pairwise fun s later => s.lt later = true

namespace Ticks

variable {steps : List (Event α)} {now : Binary64} (h : Ticks steps now)
include h

theorem now_isFinite : now.isFinite = true := h.finite now (by simp)

theorem isFinite_reading {step : Event α} (hstep : step ∈ steps) {r : Binary64}
    (hr : step.reading? = some r) : r.isFinite = true :=
  h.finite r (List.mem_append_left _ (List.mem_filterMap.mpr ⟨step, hstep, hr⟩))

theorem not_now_lt {step : Event α} (hstep : step ∈ steps) {r : Binary64}
    (hr : step.reading? = some r) : now.lt r = false :=
  (List.pairwise_append.mp h.forward).2.2 r (List.mem_filterMap.mpr ⟨step, hstep, hr⟩) now (by simp)

end Ticks

/-! ### Which entry goes when the cache is full -/

/-- The earlier of two entries; of entries of one time the first. -/
def earlier (best x : CacheEntry α) : CacheEntry α := if x.createdAt.lt best.createdAt then x else best

theorem foldl_earlier (best : CacheEntry α) (entries : List (CacheEntry α))
    (hfinite : ∀ x ∈ best :: entries, x.createdAt.isFinite = true) :
    entries.foldl earlier best ∈ best :: entries ∧
      ∀ x ∈ best :: entries, (entries.foldl earlier best).createdAt.place ≤ x.createdAt.place := by
  induction entries generalizing best with
  | nil => simp
  | cons y entries ih =>
    obtain ⟨hbest, hy, hrest⟩ := by simpa only [List.forall_mem_cons] using hfinite
    have hnumbers := And.intro (Binary64.isNaN_of_isFinite hbest) (Binary64.isNaN_of_isFinite hy)
    -- the first comparison keeps the earlier one, and what is kept goes on
    have hstart : (earlier best y = best ∨ earlier best y = y) ∧
        (earlier best y).createdAt.place ≤ best.createdAt.place ∧
        (earlier best y).createdAt.place ≤ y.createdAt.place := by
      unfold earlier
      split
      · rename_i hless
        exact ⟨Or.inr rfl, (Binary64.lt_iff.mp hless).2.2.le, le_rfl⟩
      · rename_i hnot
        refine ⟨Or.inl rfl, le_rfl, ?_⟩
        exact (Binary64.lt_eq_false_iff hnumbers.1 hnumbers.2).mp (by simpa using hnot)
    obtain ⟨hkept, hleft, hright⟩ := hstart
    have hnext : ∀ x ∈ earlier best y :: entries, x.createdAt.isFinite = true := by
      intro x hx
      rcases List.mem_cons.mp hx with rfl | hx
      · rcases hkept with hkept | hkept <;> rw [hkept] <;> assumption
      · exact hrest x hx
    obtain ⟨hmem, hmin⟩ := ih (earlier best y) hnext
    rw [List.foldl_cons]
    refine ⟨?_, ?_⟩
    · rcases List.mem_cons.mp hmem with hfirst | hmem
      · rw [hfirst]
        rcases hkept with hkept | hkept <;> rw [hkept] <;> simp
      · simp [hmem]
    · intro x hx
      have hfirst := hmin _ List.mem_cons_self
      rcases List.mem_cons.mp hx with rfl | hx
      · exact hfirst.trans hleft
      · rcases List.mem_cons.mp hx with rfl | hx
        · exact hfirst.trans hright
        · exact hmin x (List.mem_cons_of_mem _ hx)

/-- The oldest entry is one of the entries, and none of them is older. -/
theorem oldest?_spec {entries : List (CacheEntry α)} {m : CacheEntry α}
    (hfinite : ∀ x ∈ entries, x.createdAt.isFinite = true) (h : oldest? entries = some m) :
    m ∈ entries ∧ ∀ x ∈ entries, x.createdAt.lt m.createdAt = false := by
  cases entries with
  | nil => cases h
  | cons e rest =>
    obtain rfl := Option.some.inj h
    obtain ⟨hmem, hmin⟩ := foldl_earlier e rest hfinite
    refine ⟨hmem, fun x hx => ?_⟩
    exact (Binary64.lt_eq_false_iff (Binary64.isNaN_of_isFinite (hfinite _ hmem))
      (Binary64.isNaN_of_isFinite (hfinite x hx))).mpr (hmin x hx)

/-- An entry has a place in the cache, and every other entry is older than it or is under one of
the given keys, which were stored behind it. -/
structure Holds (c : Cache α) (e : CacheEntry α) (later : Finset String) : Prop where
  mem : e ∈ c.entries
  keys : c.keys.Nodup
  finite : ∀ x ∈ c.entries, x.createdAt.isFinite = true
  others : ∀ x ∈ c.entries, x = e ∨ x.createdAt.lt e.createdAt = true ∨ x.key ∈ later

/-- The keys that are stored under in some steps. -/
def storedKeys (steps : List (Event α)) : Finset String :=
  (steps.filterMap Event.storedKey?).toFinset

/-- When an entry is the oldest one of a full cache, the keys of the others and a new key fill it. -/
theorem Holds.full {c : Cache α} {e : CacheEntry α} {later : Finset String} (h : c.Holds e later)
    (holdest : oldest? c.entries = some e) (hfull : c.maxSize ≤ c.size) {key : String}
    (hnew : c.entry? key = none) : c.maxSize ≤ ((insert key later).card : Int) := by
  have hothers : ∀ x ∈ c.entries, x ≠ e → x.key ∈ later := by
    intro x hx hne
    have hmin := (oldest?_spec h.finite holdest).2 x hx
    rcases h.others x hx with heq | hless | hlater
    · exact absurd heq hne
    · rw [hmin] at hless
      cases hless
    · exact hlater
  have hkey : key ∉ c.keys := by
    intro hmem
    obtain ⟨x, hx, rfl⟩ := List.mem_map.mp hmem
    rw [entry?_of_mem h.keys hx] at hnew
    cases hnew
  have hsubset : insert key (c.keys.toFinset.erase e.key) ⊆ insert key later := by
    refine Finset.insert_subset_insert key fun k hk => ?_
    obtain ⟨hne, hmem⟩ := Finset.mem_erase.mp hk
    obtain ⟨x, hx, rfl⟩ := List.mem_map.mp (List.mem_toFinset.mp hmem)
    exact hothers x hx fun heq => hne (heq ▸ rfl)
  have hcount : (insert key (c.keys.toFinset.erase e.key)).card = c.size := by
    have hmem : e.key ∈ c.keys.toFinset := List.mem_toFinset.mpr (List.mem_map_of_mem h.mem)
    have hnotmem : key ∉ c.keys.toFinset.erase e.key :=
      fun hk => hkey (List.mem_toFinset.mp (Finset.mem_of_mem_erase hk))
    have hpos : 0 < c.keys.toFinset.card := Finset.card_pos.mpr ⟨_, hmem⟩
    rw [Finset.card_insert_of_notMem hnotmem, Finset.card_erase_of_mem hmem,
      Nat.sub_add_cancel hpos, List.toFinset_card_of_nodup h.keys]
    exact List.length_map _
  have hle := Finset.card_le_card hsubset
  rw [hcount] at hle
  omega

/-- A store does not push an entry out before the keys stored behind it fill the cache. -/
theorem Holds.mem_roomFor {c : Cache α} {e : CacheEntry α} {later : Finset String}
    (h : c.Holds e later) {key : String} (hroom : ((insert key later).card : Int) < c.maxSize) :
    e ∈ c.roomFor key := by
  unfold roomFor
  split
  · rename_i hfull
    obtain ⟨hfull, hnew⟩ := (Bool.and_eq_true _ _).mp hfull
    unfold evictOldest
    cases holdest : oldest? c.entries with
    | none => exact h.mem
    | some m =>
      refine mem_erase.mpr ⟨h.mem, fun hkey => ?_⟩
      have hmem := (oldest?_spec h.finite holdest).1
      obtain rfl := eq_of_key_eq h.keys h.mem hmem hkey
      have hmany := h.full holdest (of_decide_eq_true hfull) (Option.isNone_iff_eq_none.mp hnew)
      omega
  · exact h.mem

section Survival

variable {c : Cache α} {e : CacheEntry α} {later : Finset String}

/-- A step that leaves the key of a fresh entry alone leaves the entry in the cache, unless it
stores under one key too many. -/
theorem Holds.apply (h : c.Holds e later) {step : Event α} (huntouched : ¬ step.Touches e.key)
    (hfresh : ∀ r, step.reading? = some r → r.isFinite = true ∧ c.isExpired r e = false)
    (hroom : ((later ∪ storedKeys [step]).card : Int) < c.maxSize) :
    (step.apply c).Holds e (later ∪ storedKeys [step]) := by
  obtain ⟨hkeys, hentries⟩ := apply_entries h.keys step
  refine ⟨?_, hkeys, ?_, ?_⟩
  · cases step with
    | lookup now key =>
      rcases get_entries c now key with hsame | ⟨x, hx, hexpired, herased⟩
      · exact hsame ▸ h.mem
      · refine herased ▸ mem_erase.mpr ⟨h.mem, ?_⟩
        rintro rfl
        rw [entry?_of_mem h.keys h.mem] at hx
        obtain rfl := Option.some.inj hx
        rw [(hfresh now rfl).2] at hexpired
        cases hexpired
    | store now key answer =>
      have hinsert : later ∪ storedKeys [Event.store now key answer] = insert key later := by
        rw [Finset.insert_eq, Finset.union_comm]
        rfl
      rw [hinsert] at hroom
      exact (mem_put h.keys).mpr (Or.inr ⟨h.mem_roomFor hroom, fun heq => huntouched heq.symm⟩)
    | forget key => exact mem_erase.mpr ⟨h.mem, fun heq => huntouched heq.symm⟩
    | forgetAll => exact absurd trivial huntouched
    | sweep now => exact List.mem_filter.mpr ⟨h.mem, by rw [(hfresh now rfl).2]; rfl⟩
  · intro x hx
    rcases hentries x hx with ⟨hold, _⟩ | rfl
    · exact h.finite x hold
    · exact (hfresh x.createdAt rfl).1
  · intro x hx
    rcases hentries x hx with ⟨hold, _⟩ | rfl
    · rcases h.others x hold with heq | hless | hlater
      · exact Or.inl heq
      · exact Or.inr (Or.inl hless)
      · exact Or.inr (Or.inr (Finset.mem_union_left _ hlater))
    · exact Or.inr (Or.inr (Finset.mem_union_right _ (by simp [storedKeys, Event.storedKey?])))

theorem storedKeys_cons (step : Event α) (steps : List (Event α)) :
    storedKeys (step :: steps) = storedKeys [step] ∪ storedKeys steps := by
  unfold storedKeys
  rw [← List.toFinset_append, ← List.filterMap_append, List.singleton_append]

/-- A run that leaves the key of an entry alone leaves the entry in the cache, while it is fresh and
fewer keys were stored under than the cache has places. -/
theorem Holds.replay (h : c.Holds e later) {steps : List (Event α)}
    (huntouched : ∀ step ∈ steps, ¬ step.Touches e.key)
    (hfresh : ∀ step ∈ steps, ∀ r, step.reading? = some r →
      r.isFinite = true ∧ IsFresh c.ttl r e.createdAt)
    (hroom : ((later ∪ storedKeys steps).card : Int) < c.maxSize) :
    (Cache.replay c steps).Holds e (later ∪ storedKeys steps) := by
  induction steps generalizing c later with
  | nil => simpa [Cache.replay, storedKeys] using h
  | cons step steps ih =>
    rw [storedKeys_cons, ← Finset.union_assoc] at hroom ⊢
    have hstored := h.finite e h.mem
    have hnow : ∀ r, step.reading? = some r → r.isFinite = true ∧ c.isExpired r e = false := by
      intro r hr
      obtain ⟨hr, hfresh⟩ := hfresh step List.mem_cons_self r hr
      exact ⟨hr, (isExpired_eq_false_iff hr hstored).mpr hfresh⟩
    have hless : ((later ∪ storedKeys [step]).card : Int) < c.maxSize :=
      lt_of_le_of_lt (by exact_mod_cast Finset.card_le_card Finset.subset_union_left) hroom
    obtain ⟨httl, hmax⟩ := apply_limits c step
    have hnext := h.apply (huntouched step List.mem_cons_self) hnow hless
    refine ih hnext (fun x hx => huntouched x (List.mem_cons_of_mem _ hx)) ?_ (hmax ▸ hroom)
    rw [httl]
    exact fun x hx => hfresh x (List.mem_cons_of_mem _ hx)

end Survival

/-! ### Freshness and survival -/

theorem get_eq_some_iff {c : Cache α} {now : Binary64} {key : String} {v : α} :
    (c.get now key).1 = some v ↔
      ∃ e, c.entry? key = some e ∧ c.isExpired now e = false ∧ e.answer = some v := by
  unfold get
  split
  · rename_i hnone
    simp [hnone]
  · rename_i e he
    split
    · rename_i hexpired
      simp [he, hexpired]
    · rename_i hfresh
      simp [he, hfresh]

/-- Behind a store the cache holds its entry, and every other entry is older. -/
theorem holds_put {c : Cache α} {before : List (Event α)} (hfits : c.Fits before)
    {stored : Binary64} {key : String} {answer : Option α} {now : Binary64}
    (hticks : Ticks (before ++ [.store stored key answer]) now) :
    (c.put stored key answer).Holds ⟨key, answer, stored⟩ ∅ := by
  have hlast : Event.store stored key answer ∈ before ++ [.store stored key answer] := by simp
  have hreading : stored.isFinite = true := hticks.isFinite_reading hlast rfl
  have hold : ∀ x ∈ c.roomFor key, x.createdAt.isFinite = true ∧ x.createdAt.lt stored = true := by
    intro x hx
    obtain ⟨after, ⟨front, rfl⟩, _⟩ := hfits.entries x ((roomFor_sublist c key).subset hx)
    have hmem : Event.store x.createdAt x.key x.answer ∈
        front ++ Event.store x.createdAt x.key x.answer :: after := by simp
    refine ⟨hticks.isFinite_reading (List.mem_append_left _ hmem) rfl, ?_⟩
    have hadvances := hticks.advances
    rw [List.filterMap_append, List.pairwise_append] at hadvances
    exact hadvances.2.2 _ (List.mem_filterMap.mpr ⟨_, hmem, rfl⟩) _ (by simp [Event.storedAt?])
  refine ⟨(mem_put hfits.keys).mpr (Or.inl rfl),
    (apply_entries hfits.keys (.store stored key answer)).1, ?_, ?_⟩
  · intro x hx
    rcases (mem_put hfits.keys).mp hx with rfl | ⟨hx, _⟩
    · exact hreading
    · exact (hold x hx).1
  · intro x hx
    rcases (mem_put hfits.keys).mp hx with rfl | ⟨hx, _⟩
    · exact Or.inl rfl
    · exact Or.inr (Or.inl (hold x hx).2)

section History

variable {ttl : Binary64} {maxSize : Int} {steps : List (Event α)} {now : Binary64}
  (hticks : Ticks steps now) {key : String} {v : α}
include hticks

theorem lastStored_of_get (h : ((replay (empty ttl maxSize) steps).get now key).1 = some v) :
    ∃ stored after, LastStored steps key (some v) stored after ∧ IsFresh ttl now stored := by
  obtain ⟨e, he, hfresh, hanswer⟩ := get_eq_some_iff.mp h
  obtain ⟨hmem, rfl⟩ := mem_of_entry? he
  have hfits := fits_replay (fits_empty ttl maxSize) steps
  obtain ⟨after, hlast⟩ := hfits.entries e hmem
  rw [List.nil_append] at hlast
  obtain ⟨⟨before, hsplit⟩, _⟩ := id hlast
  have hstep : Event.store e.createdAt e.key e.answer ∈ steps := by simp [hsplit]
  have hstored : e.createdAt.isFinite = true := hticks.isFinite_reading hstep rfl
  refine ⟨e.createdAt, after, hanswer ▸ hlast, ?_⟩
  rw [isExpired_eq_false_iff hticks.now_isFinite hstored, (replay_limits _ steps).1] at hfresh
  exact hfresh

theorem Ticks.init {before after : List (Event α)} (h : steps = before ++ after) :
    Ticks before now := by
  subst h
  obtain ⟨hfinite, hforward, hadvances⟩ := hticks
  have hsub : (before.filterMap Event.reading? ++ [now]).Sublist
      ((before ++ after).filterMap Event.reading? ++ [now]) :=
    ((List.sublist_append_left before after).filterMap _).append_right _
  exact ⟨fun r hr => hfinite r (hsub.subset hr), hforward.sublist hsub,
    hadvances.sublist ((List.sublist_append_left before after).filterMap _)⟩

theorem get_of_lastStored {stored : Binary64} {after : List (Event α)}
    (hlast : LastStored steps key (some v) stored after) (hfresh : IsFresh ttl now stored)
    (hroom : ((storedKeys after).card : Int) < maxSize) :
    ((replay (empty ttl maxSize) steps).get now key).1 = some v := by
  obtain ⟨⟨before, rfl⟩, huntouched⟩ := hlast
  have hstore : before ++ Event.store stored key (some v) :: after =
      (before ++ [.store stored key (some v)]) ++ after := by simp
  have hstep : Event.store stored key (some v) ∈
      before ++ .store stored key (some v) :: after := by simp
  have hstored : stored.isFinite = true := hticks.isFinite_reading hstep rfl
  have hfits := fits_replay (fits_empty ttl maxSize) before
  have hholds := holds_put hfits (hticks.init hstore)
  generalize hput : (replay (empty ttl maxSize) before).put stored key (some v) = c at hholds
  obtain ⟨httl, hmax⟩ : c.ttl = ttl ∧ c.maxSize = maxSize := by
    obtain ⟨httl, hmax⟩ := replay_limits (empty ttl maxSize : Cache α) before
    obtain ⟨httl', hmax'⟩ := apply_limits (replay (empty ttl maxSize) before)
      (.store stored key (some v))
    rw [← hput]
    exact ⟨httl'.trans httl, hmax'.trans hmax⟩
  have hrun : replay (empty ttl maxSize) (before ++ Event.store stored key (some v) :: after) =
      replay c after := by
    rw [replay_append, ← hput]
    rfl
  have hend := hholds.replay huntouched (fun step hstep r hr => by
    have hmem : step ∈ before ++ Event.store stored key (some v) :: after := by simp [hstep]
    have hr' := hticks.isFinite_reading hmem hr
    exact ⟨hr', httl ▸ hfresh.earlier hticks.now_isFinite hr' hstored (hticks.not_now_lt hmem hr)⟩)
    (by rwa [Finset.empty_union, hmax])
  rw [hrun, get_eq_some_iff]
  refine ⟨_, entry?_of_mem hend.keys hend.mem, ?_, rfl⟩
  rw [isExpired_eq_false_iff hticks.now_isFinite hstored, (replay_limits c after).1, httl]
  exact hfresh

end History

/-- What a run of calls leaves behind.  Every lookup is counted once, and the size is the number of
entries, which are under different keys.  An answer is given only if it is the last one stored under
its key and fresh; and if it is, and fewer other keys were stored under behind it than the cache has
places, it is given. -/
theorem freshness_and_survival (ttl : Binary64) (maxSize : Int) (calls : List (Call ε α)) :
    ((afterCalls (empty ttl maxSize) calls).stats.hits +
          (afterCalls (empty ttl maxSize) calls).stats.misses = calls.countP Call.looksUp ∧
        (afterCalls (empty ttl maxSize) calls).stats.size =
          (afterCalls (empty ttl maxSize) calls).entries.length ∧
        (afterCalls (empty ttl maxSize) calls).keys.Nodup) ∧
      ∀ now, Ticks (history (empty ttl maxSize) calls) now → ∀ key v,
        (((afterCalls (empty ttl maxSize) calls).get now key).1 = some v →
          ∃ stored after,
            LastStored (history (empty ttl maxSize) calls) key (some v) stored after ∧
              IsFresh ttl now stored) ∧
        ∀ stored after,
          LastStored (history (empty ttl maxSize) calls) key (some v) stored after →
          IsFresh ttl now stored → ((storedKeys after).card : Int) < maxSize →
          ((afterCalls (empty ttl maxSize) calls).get now key).1 = some v := by
  rw [afterCalls_eq_replay]
  have hfits := fits_replay (fits_empty ttl maxSize) (history (empty ttl maxSize) calls)
  refine ⟨⟨?_, rfl, hfits.keys⟩, ?_⟩
  · rw [← countP_history (empty ttl maxSize) calls]
    exact hfits.lookups
  · intro now hticks key v
    exact ⟨lastStored_of_get hticks, fun _ _ => get_of_lastStored hticks⟩

/-- A cache of two places and a lifetime of a minute. -/
def smallCache : Cache Nat := empty (.ofInt 60) 2

/-- One answer is stored; a second later another one is asked for, and it comes after one more. -/
def twoAnswers : List (Call String Nat) :=
  [.put (.ofInt 0) "a" (some 1), .getOrLoad (.ofInt 1) (.ofInt 2) "b" (.ok (some 2))]

/-- The answer stored first is still there in the third second. -/
theorem freshness_and_survival_twoAnswers :
    Ticks (history smallCache twoAnswers) (.ofInt 3) ∧
      ((afterCalls smallCache twoAnswers).get (.ofInt 3) "a").1 = some 1 ∧
      (afterCalls smallCache twoAnswers).stats.hits +
        (afterCalls smallCache twoAnswers).stats.misses = 1 := by
  have hhistory : history smallCache twoAnswers =
      [.store (.ofInt 0) "a" (some 1), .lookup (.ofInt 1) "b",
        .store (.ofInt 2) "b" (some 2)] := rfl
  have hticks : Ticks (history smallCache twoAnswers) (.ofInt 3) := by
    rw [hhistory]
    exact ⟨by decide +kernel, by decide +kernel, by decide +kernel⟩
  obtain ⟨⟨hcounts, _⟩, hrun⟩ := freshness_and_survival (.ofInt 60) 2 twoAnswers
  have hlast : LastStored (history smallCache twoAnswers) "a" (some 1) (.ofInt 0)
      [.lookup (.ofInt 1) "b", .store (.ofInt 2) "b" (some 2)] := by
    refine ⟨⟨[], hhistory⟩, ?_⟩
    simp [Event.Touches]
  have hfresh : IsFresh (.ofInt 60) (.ofInt 3) (.ofInt 0) := by
    refine Or.inr ((Binary64.lt_eq_false_iff ?_ ?_).mp ?_) <;> decide +kernel
  have hget := (hrun (.ofInt 3) hticks "a" 1).2 _ _ hlast hfresh (by decide)
  exact ⟨hticks, hget, hcounts⟩

end Cache
end QueryGate
