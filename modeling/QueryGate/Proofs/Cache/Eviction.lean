import QueryGate.Proofs.Cache.Room

/-!
# What a store pushes out

A store under a key displaces at most one entry under another key, and that one is the oldest of a
full cache.  Entries grow old in the order in which they came, so while any entry has expired the
displaced one has expired as well.
-/

namespace QueryGate
namespace Cache

variable {α ε : Type}

/-- A store displaces an entry: it was in the cache under another key and is no longer there. -/
def Displaces (c : Cache α) (now : Binary64) (key : String) (answer : Option α)
    (x : CacheEntry α) : Prop :=
  x ∈ c.entries ∧ x.key ≠ key ∧ x ∉ (c.put now key answer).entries

/-- The entry that a store finds under its key is the one that it put there. -/
theorem entry?_put {c : Cache α} (hkeys : c.keys.Nodup) (now : Binary64) (key : String)
    (answer : Option α) : Cache.entry? (c.put now key answer) key = some ⟨key, answer, now⟩ :=
  entry?_of_mem (c := c.put now key answer) (apply_entries hkeys (.store now key answer)).1
    ((mem_put hkeys).mpr (Or.inl rfl))

section Stores

variable {c : Cache α} (h : c.InBounds) {now : Binary64} {key : String} {answer : Option α}
include h

theorem displaces_iff {x : CacheEntry α} :
    c.Displaces now key answer x ↔ c.evicted? key = some x := by
  constructor
  · rintro ⟨hx, hkey, hgone⟩
    have hroom : x ∉ c.roomFor key := fun hmem =>
      hgone ((mem_put h.keys).mpr (Or.inr ⟨hmem, hkey⟩))
    rw [mem_roomFor, not_and] at hroom
    have hout := hroom hx
    push Not at hout
    obtain ⟨e, he, hsame⟩ := hout
    have hmem := (oldest?_spec h.dated (evicted?_eq_some_iff.mp he).2.2).1
    rw [he, eq_of_key_eq h.keys hx hmem hsame]
  · intro he
    obtain ⟨_, hnew, holdest⟩ := evicted?_eq_some_iff.mp he
    have hx := (oldest?_spec h.dated holdest).1
    have hkey := key_ne_of_entry?_eq_none h.keys hnew hx
    refine ⟨hx, hkey, fun hmem => ?_⟩
    rcases (mem_put h.keys).mp hmem with rfl | ⟨hkept, _⟩
    · exact hkey rfl
    · exact (mem_roomFor.mp hkept).2 x he rfl

/-- What stays in the cache was there before. -/
theorem mem_of_mem_put {x : CacheEntry α} (hx : x ∈ (c.put now key answer).entries)
    (hkey : x.key ≠ key) : x ∈ c.entries := by
  rcases (mem_put h.keys).mp hx with rfl | ⟨hx, _⟩
  · exact absurd rfl hkey
  · exact (roomFor_sublist c key).subset hx

/-- While an entry has expired, so has every entry that no other one is older than. -/
theorem isExpired_of_oldest {x y : CacheEntry α} (hx : x ∈ c.entries) (hy : y ∈ c.entries)
    (holdest : y.createdAt.lt x.createdAt = false) {moment : Binary64}
    (hmoment : moment.isFinite = true) (hexpired : c.isExpired moment y = true) :
    c.isExpired moment x = true := by
  have hxdate := h.dated x hx
  have hydate := h.dated y hy
  have hplaces : x.createdAt.place ≤ y.createdAt.place :=
    (Binary64.lt_eq_false_iff (Binary64.isNaN_of_isFinite hxdate)
      (Binary64.isNaN_of_isFinite hydate)).mp holdest
  by_contra hfresh
  rw [Bool.not_eq_true, isExpired_eq_false_iff hmoment hxdate] at hfresh
  have hyounger := hfresh.younger hmoment hxdate hydate hplaces
  rw [← isExpired_eq_false_iff hmoment hydate, hexpired] at hyounger
  cases hyounger

end Stores

/-- Behind any calls on a clock, a store leaves its answer under its key with the time of the store,
and no more entries than the cache has places.  It adds nothing else and displaces at most one entry,
and that only for a new key in a full cache: the displaced entry is as old as any, and it had expired
at every moment at which some entry had. -/
theorem put_displaces_oldest {ttl : Binary64} {maxSize : Int} (hsize : 1 ≤ maxSize)
    {calls : List (Call ε α)}
    (hclock : ∀ r ∈ (history (empty ttl maxSize) calls).filterMap Event.reading?,
      r.isFinite = true) (now : Binary64) (key : String) (answer : Option α) :
    let c := afterCalls (empty ttl maxSize) calls
    let d := c.put now key answer
    d.entry? key = some ⟨key, answer, now⟩ ∧ (d.size : Int) ≤ maxSize ∧
      (∀ x ∈ d.entries, x.key ≠ key → x ∈ c.entries) ∧
      (∀ x y, c.Displaces now key answer x → c.Displaces now key answer y → x = y) ∧
      ∀ x, c.Displaces now key answer x →
        c.entry? key = none ∧ (c.size : Int) = maxSize ∧
        (∀ y ∈ c.entries, y.createdAt.lt x.createdAt = false) ∧
        ∀ moment, moment.isFinite = true → (∃ y ∈ c.entries, c.isExpired moment y = true) →
          c.isExpired moment x = true := by
  intro c d
  have hrun : c = replay (empty ttl maxSize) (history (empty ttl maxSize) calls) :=
    afterCalls_eq_replay _ _
  have hbounds : c.InBounds := hrun ▸ (inBounds_empty ttl maxSize).replay hclock
  have hmax : c.maxSize = maxSize := by
    rw [hrun, (replay_limits _ _).2]
    rfl
  have hroom := hbounds.room
  have hsmall : (d.size : Int) ≤ max 1 c.maxSize := size_put_le hbounds.dated hroom now key answer
  rw [hmax] at hroom hsmall
  refine ⟨entry?_put hbounds.keys now key answer, by omega,
    fun x => mem_of_mem_put hbounds, fun x y hx hy => ?_, fun x hx => ?_⟩
  · rw [displaces_iff hbounds] at hx hy
    exact Option.some.inj (hx.symm.trans hy)
  · obtain ⟨hfull, hnew, holdest⟩ := evicted?_eq_some_iff.mp ((displaces_iff hbounds).mp hx)
    obtain ⟨hmem, hleast⟩ := oldest?_spec hbounds.dated holdest
    rw [hmax] at hfull
    refine ⟨hnew, by omega, hleast, fun moment hmoment => ?_⟩
    rintro ⟨y, hy, hexpired⟩
    exact isExpired_of_oldest hbounds hmem hy (hleast y hy) hmoment hexpired

/-- An answer that is refreshed, another of the same moment, and one more that has no room. -/
def crowded : List (Call String Nat) :=
  [.put (.ofInt 0) "a" (some 1), .getOrLoad (.ofInt 2) (.ofInt 5) "b" (.ok (some 2)),
    .put (.ofInt 5) "a" none]

/-- The first of two entries of one moment, in the place of its key. -/
def refreshed : CacheEntry Nat := ⟨"a", none, .ofInt 5⟩

/-- Both entries have expired by the second minute, and the one whose key came first has to go. -/
theorem put_displaces_refreshed :
    (∀ r ∈ (history smallCache crowded).filterMap Event.reading?, r.isFinite = true) ∧
      (afterCalls smallCache crowded).Displaces (.ofInt 120) "c" (some 3) refreshed ∧
      ((afterCalls smallCache crowded).put (.ofInt 120) "c" (some 3)).size ≤ 2 ∧
      (afterCalls smallCache crowded).isExpired (.ofInt 120) refreshed = true := by
  have hclock : ∀ r ∈ (history smallCache crowded).filterMap Event.reading?,
      r.isFinite = true := by decide +kernel
  obtain ⟨_, hsize, _, _, hdisplaced⟩ :=
    put_displaces_oldest (by decide : (1 : Int) ≤ 2) hclock (.ofInt 120) "c" (some 3)
  have hentries : (afterCalls smallCache crowded).entries =
      [refreshed, ⟨"b", some 2, .ofInt 5⟩] := rfl
  have hgone : ((afterCalls smallCache crowded).put (.ofInt 120) "c" (some 3)).keys =
      ["b", "c"] := by decide +kernel
  have hout : (afterCalls smallCache crowded).Displaces (.ofInt 120) "c" (some 3) refreshed := by
    refine ⟨hentries ▸ List.mem_cons_self, by decide, fun hmem => ?_⟩
    have hkey := List.mem_map_of_mem (f := CacheEntry.key) hmem
    rw [← keys, hgone] at hkey
    revert hkey
    decide
  obtain ⟨_, _, _, hexpired⟩ := hdisplaced refreshed hout
  refine ⟨hclock, hout, by exact_mod_cast hsize, hexpired (.ofInt 120) (by decide +kernel) ?_⟩
  exact ⟨⟨"b", some 2, .ofInt 5⟩, hentries ▸ by simp, by decide +kernel⟩

end Cache
end QueryGate
