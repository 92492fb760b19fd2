import QueryGate.Proofs.Cache.Run

/-!
# Room in a cache

Which entry a lookup finds, which one a store pushes out, and how many are left behind them.  A cache
never has more entries than its capacity, or than one if it has no capacity at all.
-/

namespace QueryGate
namespace Cache

variable {α ε : Type}

/-! ### Lookups -/

/-- The entry that a lookup finds: the one under its key, unless that has expired. -/
def fresh? (c : Cache α) (now : Binary64) (key : String) : Option (CacheEntry α) :=
  (c.entry? key).filter fun e => !c.isExpired now e

theorem fresh?_eq_some_iff {c : Cache α} {now : Binary64} {key : String} {e : CacheEntry α} :
    c.fresh? now key = some e ↔ c.entry? key = some e ∧ c.isExpired now e = false := by
  simp [fresh?, Option.filter_eq_some_iff]

/-- A lookup gives the answer of the entry that it finds, and counts as found or not found. -/
theorem get_eq (c : Cache α) (now : Binary64) (key : String) :
    (c.get now key).1 = (c.fresh? now key).bind (·.answer) ∧
      (c.get now key).2.hits = c.hits + (c.fresh? now key).isSome.toNat ∧
      (c.get now key).2.misses = c.misses + (c.fresh? now key).isNone.toNat := by
  unfold get fresh?
  cases c.entry? key with
  | none => simp
  | some e => cases h : c.isExpired now e <;> simp [Option.filter_some, erase, h]

/-- A source is asked when a lookup gives nothing, and then it has the last word. -/
theorem getOrLoad_eq (c : Cache α) (asked answered : Binary64) (key : String)
    (source : Except ε (Option α)) :
    (c.getOrLoad asked answered key source).asked = (c.get asked key).1.isNone ∧
      (c.getOrLoad asked answered key source).result =
        ((c.get asked key).1.map fun v => .ok (some v)).getD source := by
  unfold getOrLoad
  rcases c.get asked key with ⟨_ | v, c'⟩
  · cases source <;> exact ⟨rfl, rfl⟩
  · exact ⟨rfl, rfl⟩

theorem key_ne_of_entry?_eq_none {c : Cache α} (hkeys : c.keys.Nodup) {key : String}
    (h : c.entry? key = none) {x : CacheEntry α} (hx : x ∈ c.entries) : x.key ≠ key := by
  rintro rfl
  rw [entry?_of_mem hkeys hx] at h
  cases h

/-- A lookup leaves every entry but an expired one under its key. -/
theorem mem_get {c : Cache α} (hkeys : c.keys.Nodup) {now : Binary64} {key : String}
    {x : CacheEntry α} :
    x ∈ (c.get now key).2.entries ↔
      x ∈ c.entries ∧ ¬ (x.key = key ∧ c.isExpired now x = true) := by
  have hunder : ∀ e, c.entry? key = some e → x ∈ c.entries → x.key = key → x = e := by
    rintro e he hx rfl
    exact Option.some.inj ((entry?_of_mem hkeys hx).symm.trans he)
  unfold get
  split
  · rename_i hnone
    refine ⟨fun hx => ⟨hx, fun h => ?_⟩, And.left⟩
    exact key_ne_of_entry?_eq_none hkeys hnone hx h.1
  · rename_i e he
    split
    · rename_i hexpired
      refine mem_erase.trans (and_congr_right fun hx => not_congr ⟨fun hkey => ⟨hkey, ?_⟩, And.left⟩)
      rw [hunder e he hx hkey]
      exact hexpired
    · rename_i hfresh
      refine ⟨fun hx => ⟨hx, fun h => hfresh ?_⟩, And.left⟩
      rw [← hunder e he hx h.1]
      exact h.2

/-! ### Stores -/

/-- The entry that a store under a key pushes out. -/
def evicted? (c : Cache α) (key : String) : Option (CacheEntry α) :=
  if c.maxSize ≤ c.size && (c.entry? key).isNone then oldest? c.entries else none

theorem mem_roomFor {c : Cache α} {key : String} {x : CacheEntry α} :
    x ∈ c.roomFor key ↔ x ∈ c.entries ∧ ∀ e, c.evicted? key = some e → x.key ≠ e.key := by
  unfold roomFor evicted? evictOldest
  split
  · cases oldest? c.entries with
    | none => simp
    | some e => simp [mem_erase]
  · simp

/-- A store pushes an entry out only when the cache is full and the key new, and then the oldest. -/
theorem evicted?_eq_some_iff {c : Cache α} {key : String} {e : CacheEntry α} :
    c.evicted? key = some e ↔
      c.maxSize ≤ c.size ∧ c.entry? key = none ∧ oldest? c.entries = some e := by
  simp [evicted?, and_assoc]

theorem length_store_le (e : CacheEntry α) (entries : List (CacheEntry α)) :
    (store e entries).length ≤ entries.length + 1 := by
  induction entries with
  | nil => exact le_rfl
  | cons x entries ih =>
    unfold store
    split
    · exact Nat.le_succ _
    · exact Nat.succ_le_succ ih

theorem length_store_of_mem {e x : CacheEntry α} {entries : List (CacheEntry α)} (hx : x ∈ entries)
    (hkey : x.key = e.key) : (store e entries).length = entries.length := by
  induction entries with
  | nil => cases hx
  | cons y entries ih =>
    unfold store
    split
    · rfl
    · rename_i hdiffer
      rcases List.mem_cons.mp hx with rfl | hx
      · exact absurd hkey hdiffer
      · exact congrArg Nat.succ (ih hx)

theorem size_erase_lt {c : Cache α} {e : CacheEntry α} (he : e ∈ c.entries) :
    (c.erase e.key).size < c.size :=
  List.length_filter_lt_length_iff_exists.mpr ⟨e, he, by simp⟩

/-- A cache does not outgrow its capacity. -/
theorem size_put_le {c : Cache α} (hfinite : ∀ x ∈ c.entries, x.createdAt.isFinite = true)
    (hsize : (c.size : Int) ≤ max 1 c.maxSize) (now : Binary64) (key : String)
    (answer : Option α) : ((c.put now key answer).size : Int) ≤ max 1 c.maxSize := by
  unfold size at hsize ⊢
  rw [put_entries]
  have hgrow := length_store_le ⟨key, answer, now⟩ (c.roomFor key)
  unfold roomFor evictOldest at hgrow ⊢
  split at hgrow
  · rename_i hfull
    rw [if_pos hfull]
    cases holdest : oldest? c.entries with
    | none =>
      cases hentries : c.entries with
      | nil => simp [store]
      | cons x rest => simp [hentries, oldest?] at holdest
    | some e =>
      have hless := size_erase_lt (oldest?_spec hfinite holdest).1
      unfold size at hless
      simp only [holdest] at hgrow ⊢
      omega
  · rename_i hroom
    rw [if_neg hroom]
    cases hentry : c.entry? key with
    | none =>
      simp [hentry] at hroom
      unfold size at hroom
      omega
    | some x =>
      obtain ⟨hx, hkey⟩ := mem_of_entry? hentry
      rw [length_store_of_mem hx hkey]
      exact hsize

/-- Only a store adds an entry. -/
theorem size_apply_le (c : Cache α) {step : Event α} (h : step.storedAt? = none) :
    (step.apply c).size ≤ c.size := by
  cases step with
  | lookup now key =>
    show ((c.get now key).2.entries).length ≤ c.entries.length
    rcases get_entries c now key with hsame | ⟨_, _, _, herased⟩
    · rw [hsame]
    · rw [herased]
      exact List.length_filter_le _ _
  | store now key answer => cases h
  | forget key => exact List.length_filter_le _ _
  | forgetAll => exact Nat.zero_le _
  | sweep now => exact List.length_filter_le _ _

/-! ### Caches in bounds -/

/-- A cache in bounds: one entry under a key, every one dated, and no more of them than there is room
for. -/
structure InBounds (c : Cache α) : Prop where
  keys : c.keys.Nodup
  dated : ∀ x ∈ c.entries, x.createdAt.isFinite = true
  room : (c.size : Int) ≤ max 1 c.maxSize

theorem inBounds_empty (ttl : Binary64) (maxSize : Int) : (empty ttl maxSize : Cache α).InBounds where
  keys := List.nodup_nil
  dated := List.forall_mem_nil _
  room := by
    show ((0 : Nat) : Int) ≤ max 1 maxSize
    omega

/-- A step leaves a cache in bounds. -/
theorem InBounds.apply {c : Cache α} (h : c.InBounds) {step : Event α}
    (hfinite : ∀ r, step.reading? = some r → r.isFinite = true) : (step.apply c).InBounds := by
  obtain ⟨hkeys, hentries⟩ := apply_entries h.keys step
  refine ⟨hkeys, fun x hx => ?_, ?_⟩
  · rcases hentries x hx with ⟨hold, _⟩ | rfl
    · exact h.dated x hold
    · exact hfinite x.createdAt rfl
  · rw [(apply_limits c step).2]
    cases hstored : step.storedAt? with
    | none =>
      have hless := size_apply_le c hstored
      have hroom := h.room
      omega
    | some s =>
      cases step with
      | store now key answer => exact size_put_le h.dated h.room now key answer
      | _ => cases hstored

/-- A run leaves a cache in bounds. -/
theorem InBounds.replay {c : Cache α} (h : c.InBounds) {steps : List (Event α)}
    (hfinite : ∀ r ∈ steps.filterMap Event.reading?, r.isFinite = true) :
    (Cache.replay c steps).InBounds := by
  induction steps generalizing c with
  | nil => exact h
  | cons step steps ih =>
    refine ih (h.apply fun r hr => hfinite r (List.mem_filterMap.mpr ⟨step, by simp, hr⟩)) ?_
    exact fun r hr => hfinite r (((List.sublist_cons_self step steps).filterMap _).subset hr)

end Cache
end QueryGate
