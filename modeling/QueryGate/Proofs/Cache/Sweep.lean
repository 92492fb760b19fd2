import QueryGate.Proofs.Cache.Room

/-!
# Sweeping a cache

Taking the expired entries out of a cache cannot be noticed by those who look things up in it.  The
swept cache lacks some expired entries of the other one, which are older than all that it has.  So
as long as there is one of them, it is one of them that the other cache pushes out for a new key, and
the swept one has room.
-/

namespace QueryGate
namespace Cache

variable {α ε : Type}

/-! ### Entries and the stores to come -/

/-- A cache and the steps that follow: the entries are from different moments, all of them before the
stores to come, and they are no more than there is room for. -/
structure Timely (c : Cache α) (steps : List (Event α)) : Prop where
  keys : c.keys.Nodup
  dated : ∀ x ∈ c.entries, x.createdAt.isFinite = true
  distinct : ∀ x ∈ c.entries, ∀ y ∈ c.entries, x.createdAt.place = y.createdAt.place → x = y
  past : ∀ x ∈ c.entries, ∀ s ∈ steps.filterMap Event.storedAt?, x.createdAt.lt s = true
  room : (c.size : Int) ≤ max 1 c.maxSize
  finite : ∀ r ∈ steps.filterMap Event.reading?, r.isFinite = true
  advances : (steps.filterMap Event.storedAt?).Pairwise fun s later => s.lt later = true

theorem timely_empty (ttl : Binary64) (maxSize : Int) {steps : List (Event α)} {now : Binary64}
    (h : Ticks steps now) : (empty ttl maxSize : Cache α).Timely steps where
  keys := List.nodup_nil
  dated := List.forall_mem_nil _
  distinct := List.forall_mem_nil _
  past := List.forall_mem_nil _
  room := by
    show ((0 : Nat) : Int) ≤ max 1 maxSize
    omega
  finite := fun r hr => h.finite r (List.mem_append_left _ hr)
  advances := h.advances

theorem Timely.sublist {c : Cache α} {steps fewer : List (Event α)} (h : c.Timely steps)
    (hsub : fewer.Sublist steps) : c.Timely fewer where
  keys := h.keys
  dated := h.dated
  distinct := h.distinct
  past := fun x hx s hs => h.past x hx s ((hsub.filterMap _).subset hs)
  room := h.room
  finite := fun r hr => h.finite r ((hsub.filterMap _).subset hr)
  advances := h.advances.sublist (hsub.filterMap _)

/-- A step leaves a cache in order. -/
theorem Timely.apply {c : Cache α} {step : Event α} {steps : List (Event α)}
    (h : c.Timely (step :: steps)) : (step.apply c).Timely steps := by
  have hentries := (apply_entries h.keys step).2
  have hbounds : (step.apply c).InBounds := InBounds.apply ⟨h.keys, h.dated, h.room⟩ fun r hr =>
    h.finite r (List.mem_filterMap.mpr ⟨step, List.mem_cons_self, hr⟩)
  have hrest := h.sublist (List.sublist_cons_self step steps)
  -- an entry that the step stored is younger than all that were there before
  have hyounger : ∀ x ∈ c.entries, ∀ y : CacheEntry α, step = .store y.createdAt y.key y.answer →
      x.createdAt.place < y.createdAt.place := by
    rintro x hx y rfl
    exact (Binary64.lt_iff.mp (h.past x hx y.createdAt (by simp [Event.storedAt?]))).2.2
  refine ⟨hbounds.keys, hbounds.dated, ?_, ?_, hbounds.room, hrest.finite, hrest.advances⟩
  · intro x hx y hy hplace
    rcases hentries x hx with ⟨hxold, _⟩ | hxnew <;> rcases hentries y hy with ⟨hyold, _⟩ | hynew
    · exact h.distinct x hxold y hyold hplace
    · exact absurd hplace (hyounger x hxold y hynew).ne
    · exact absurd hplace (hyounger y hyold x hxnew).ne'
    · cases x
      cases y
      simp_all
  · intro x hx s hs
    rcases hentries x hx with ⟨hold, _⟩ | rfl
    · exact hrest.past x hold s hs
    · have hadvances := h.advances
      rw [List.filterMap_cons_some (by rfl)] at hadvances
      exact List.rel_of_pairwise_cons hadvances hs

theorem Timely.replay {c : Cache α} {steps more : List (Event α)} (h : c.Timely (steps ++ more)) :
    (Cache.replay c steps).Timely more := by
  induction steps generalizing c with
  | nil => exact h
  | cons step steps ih => exact ih h.apply

/-- Entries from different moments have one oldest, in whatever order they stand. -/
theorem oldest?_congr {xs ys : List (CacheEntry α)}
    (hdated : ∀ x ∈ xs, x.createdAt.isFinite = true)
    (hdistinct : ∀ x ∈ xs, ∀ y ∈ xs, x.createdAt.place = y.createdAt.place → x = y)
    (h : ∀ x, x ∈ ys ↔ x ∈ xs) : oldest? ys = oldest? xs := by
  cases xs with
  | nil =>
    have hys : ys = [] := List.eq_nil_iff_forall_not_mem.mpr fun y hy => by simpa using (h y).mp hy
    rw [hys]
  | cons x xs =>
    obtain ⟨y, ys, rfl⟩ : ∃ y rest, ys = y :: rest :=
      List.exists_cons_of_ne_nil (List.ne_nil_of_mem ((h x).mpr List.mem_cons_self))
    have hdated' : ∀ z ∈ y :: ys, z.createdAt.isFinite = true := fun z hz => hdated z ((h z).mp hz)
    obtain ⟨hleft, hleast⟩ := oldest?_spec hdated' (m := _) rfl
    obtain ⟨hright, hleast'⟩ := oldest?_spec hdated (m := _) rfl
    have hle {a b : CacheEntry α} (ha : a ∈ x :: xs) (hb : b ∈ x :: xs)
        (hnot : a.createdAt.lt b.createdAt = false) : b.createdAt.place ≤ a.createdAt.place :=
      (Binary64.lt_eq_false_iff (Binary64.isNaN_of_isFinite (hdated b hb))
        (Binary64.isNaN_of_isFinite (hdated a ha))).mp hnot
    have hmem := (h _).mp hleft
    refine congrArg some (hdistinct _ hmem _ hright (le_antisymm ?_ ?_))
    · exact hle hright hmem (hleast _ ((h _).mpr hright))
    · exact hle hmem hright (hleast' _ hmem)

/-! ### A cache that lacks expired entries -/

/-- A cache lacks entries of another one, all of which had expired at a given moment and are older
than any that it has. -/
structure LacksExpired (d c : Cache α) (moment : Binary64) : Prop where
  limits : d.ttl = c.ttl ∧ d.maxSize = c.maxSize
  counts : d.hits = c.hits ∧ d.misses = c.misses
  keys : d.keys.Nodup
  subset : ∀ x ∈ d.entries, x ∈ c.entries
  expired : ∀ x ∈ c.entries, x ∉ d.entries → c.isExpired moment x = true
  older : ∀ x ∈ c.entries, x ∉ d.entries → ∀ y ∈ d.entries, x.createdAt.place < y.createdAt.place

theorem isExpired_congr {c d : Cache α} (h : d.ttl = c.ttl) (now : Binary64) (e : CacheEntry α) :
    d.isExpired now e = c.isExpired now e := by
  unfold isExpired
  rw [h]

/-- What has expired stays expired. -/
theorem isExpired_later {c : Cache α} {moment now : Binary64} {e : CacheEntry α}
    (hmoment : moment.isFinite = true) (hnow : now.isFinite = true)
    (hstored : e.createdAt.isFinite = true) (hforward : now.lt moment = false)
    (h : c.isExpired moment e = true) : c.isExpired now e = true := by
  by_contra hfresh
  rw [Bool.not_eq_true, isExpired_eq_false_iff hnow hstored] at hfresh
  have hbefore := hfresh.earlier hnow hmoment hstored hforward
  rw [(isExpired_eq_false_iff hmoment hstored).mpr hbefore] at h
  cases h

/-- A sweep takes out entries that are older than all it leaves. -/
theorem lacksExpired_sweep {c : Cache α} {steps : List (Event α)} (h : c.Timely steps)
    {moment : Binary64} (hmoment : moment.isFinite = true) :
    (c.cleanupExpired moment).2.LacksExpired c moment := by
  have hmem : ∀ x, x ∈ (c.cleanupExpired moment).2.entries ↔
      x ∈ c.entries ∧ c.isExpired moment x = false := fun x => by simp [cleanupExpired]
  have hexpired : ∀ x ∈ c.entries, x ∉ (c.cleanupExpired moment).2.entries →
      c.isExpired moment x = true := by
    intro x hx hnot
    by_contra hfresh
    exact hnot ((hmem x).mpr ⟨hx, Bool.not_eq_true _ ▸ hfresh⟩)
  refine ⟨⟨rfl, rfl⟩, ⟨rfl, rfl⟩, h.keys.sublist (List.filter_sublist.map _),
    fun x hx => ((hmem x).mp hx).1, hexpired, ?_⟩
  intro x hx hnot y hy
  obtain ⟨hyold, hfresh⟩ := (hmem y).mp hy
  have hxdate := h.dated x hx
  have hydate := h.dated y hyold
  by_contra hle
  rw [isExpired_eq_false_iff hmoment hydate] at hfresh
  have hfresh' := hfresh.younger hmoment hydate hxdate (not_lt.mp hle)
  rw [← isExpired_eq_false_iff hmoment hxdate, hexpired x hx hnot] at hfresh'
  cases hfresh'

namespace LacksExpired

variable {d c : Cache α} {moment : Binary64} {steps : List (Event α)}
  (h : d.LacksExpired c moment)
include h

/-- Taking out the same entries on both sides keeps the relation. -/
theorem restrict {d' c' : Cache α} (p : CacheEntry α → Prop)
    (hlimits : (d'.ttl = d.ttl ∧ d'.maxSize = d.maxSize) ∧ c'.ttl = c.ttl ∧ c'.maxSize = c.maxSize)
    (hcounts : d'.hits = c'.hits ∧ d'.misses = c'.misses) (hkeys : d'.keys.Nodup)
    (hd : ∀ x, x ∈ d'.entries ↔ x ∈ d.entries ∧ p x)
    (hc : ∀ x, x ∈ c'.entries ↔ x ∈ c.entries ∧ p x) : d'.LacksExpired c' moment := by
  obtain ⟨⟨hdttl, hdmax⟩, hcttl, hcmax⟩ := hlimits
  have hlacked : ∀ x ∈ c'.entries, x ∉ d'.entries → x ∈ c.entries ∧ x ∉ d.entries := by
    intro x hx hnot
    obtain ⟨hx, hp⟩ := (hc x).mp hx
    exact ⟨hx, fun hxd => hnot ((hd x).mpr ⟨hxd, hp⟩)⟩
  refine ⟨⟨hdttl.trans (h.limits.1.trans hcttl.symm), hdmax.trans (h.limits.2.trans hcmax.symm)⟩,
    hcounts, hkeys, ?_, ?_, ?_⟩
  · intro x hx
    obtain ⟨hx, hp⟩ := (hd x).mp hx
    exact (hc x).mpr ⟨h.subset x hx, hp⟩
  · intro x hx hnot
    obtain ⟨hx, hnot⟩ := hlacked x hx hnot
    exact (isExpired_congr hcttl moment x).trans (h.expired x hx hnot)
  · intro x hx hnot y hy
    obtain ⟨hx, hnot⟩ := hlacked x hx hnot
    exact h.older x hx hnot y ((hd y).mp hy).1

theorem size_lt {x : CacheEntry α} (hx : x ∈ c.entries) (hnot : x ∉ d.entries) :
    d.size < c.size := by
  have hnodup : (x :: d.entries).Nodup := List.nodup_cons.mpr ⟨hnot, h.keys.of_map⟩
  have hsub : x :: d.entries ⊆ c.entries := List.cons_subset.mpr ⟨hx, h.subset⟩
  exact (hnodup.subperm hsub).length_le

section Stores

variable (hc : c.Timely steps)
include hc

/-- Both caches find the same. -/
theorem fresh?_eq {now : Binary64} (hmoment : moment.isFinite = true)
    (hnow : now.isFinite = true) (hforward : now.lt moment = false) (key : String) :
    d.fresh? now key = c.fresh? now key := by
  refine Option.ext fun e => ?_
  rw [fresh?_eq_some_iff, fresh?_eq_some_iff, isExpired_congr h.limits.1]
  refine and_congr_left fun hfresh => ?_
  constructor
  · intro he
    obtain ⟨hmem, rfl⟩ := mem_of_entry? he
    exact entry?_of_mem hc.keys (h.subset e hmem)
  · intro he
    obtain ⟨hmem, rfl⟩ := mem_of_entry? he
    -- an entry that only the other cache has is expired by now
    by_cases hd : e ∈ d.entries
    · exact entry?_of_mem h.keys hd
    · have hexpired := isExpired_later hmoment hnow (hc.dated e hmem) hforward
        (h.expired e hmem hd)
      rw [hexpired] at hfresh
      cases hfresh

/-- A cache that lacks nothing pushes the same entries out. -/
theorem evicted?_eq (hall : ∀ x ∈ c.entries, x ∈ d.entries) (key : String) :
    d.evicted? key = c.evicted? key := by
  have hsame : ∀ x, x ∈ d.entries ↔ x ∈ c.entries := fun x => ⟨h.subset x, hall x⟩
  have hsize : d.size = c.size :=
    le_antisymm (h.keys.of_map.subperm h.subset).length_le (hc.keys.of_map.subperm hall).length_le
  have hnew : d.entry? key = none ↔ c.entry? key = none := by
    simp only [ entry?, List.find?_eq_none, hsame]
  refine Option.ext fun e => ?_
  rw [evicted?_eq_some_iff, evicted?_eq_some_iff, h.limits.2, hsize, hnew,
    oldest?_congr hc.dated hc.distinct hsame]

/-- While the cache lacks something, the other one pushes out what it lacks. -/
theorem not_mem_of_evicted? {key : String} {e : CacheEntry α} (he : c.evicted? key = some e) :
    e ∉ d.entries ∨ d.evicted? key = some e := by
  by_cases hall : ∀ x ∈ c.entries, x ∈ d.entries
  · exact Or.inr ((h.evicted?_eq hc hall key).trans he)
  · left
    intro hmem
    push Not at hall
    obtain ⟨x, hx, hnot⟩ := hall
    obtain ⟨_, _, holdest⟩ := evicted?_eq_some_iff.mp he
    have hleast := (oldest?_spec hc.dated holdest).2 x hx
    have hless : x.createdAt.lt e.createdAt = true :=
      Binary64.lt_iff.mpr ⟨Binary64.isNaN_of_isFinite (hc.dated x hx),
        Binary64.isNaN_of_isFinite (hc.dated e (h.subset e hmem)), h.older x hx hnot e hmem⟩
    rw [hleast] at hless
    cases hless

/-- A cache that lacks something has room. -/
theorem evicted?_of_evicted? {key : String} {e : CacheEntry α} (he : d.evicted? key = some e) :
    c.evicted? key = some e := by
  by_cases hall : ∀ x ∈ c.entries, x ∈ d.entries
  · exact (h.evicted?_eq hc hall key).symm.trans he
  · push Not at hall
    obtain ⟨x, hx, hnot⟩ := hall
    have hless := h.size_lt hx hnot
    obtain ⟨hfull, _, holdest⟩ := evicted?_eq_some_iff.mp he
    have hmem := (oldest?_spec (fun y hy => hc.dated y (h.subset y hy)) holdest).1
    have hpos : 0 < d.size := List.length_pos_of_mem hmem
    have hroom := hc.room
    rw [h.limits.2] at hfull
    omega

/-- A store on both sides keeps the relation. -/
theorem put {now : Binary64} {key : String} {answer : Option α}
    (hpast : ∀ x ∈ c.entries, x.createdAt.place < now.place) :
    (d.put now key answer).LacksExpired (c.put now key answer) moment := by
  have hlimits := apply_limits d (.store now key answer)
  have hlimits' := apply_limits c (.store now key answer)
  have hcounts := put_counts d now key answer
  have hcounts' := put_counts c now key answer
  have hroom : ∀ x ∈ d.entries, x ∈ d.roomFor key ↔ x ∈ c.roomFor key := by
    intro x hx
    rw [mem_roomFor, mem_roomFor, and_iff_right hx, and_iff_right (h.subset x hx)]
    constructor
    · intro hkept e he hkey
      rcases h.not_mem_of_evicted? hc he with hnot | hd
      · have hmem := (oldest?_spec hc.dated (evicted?_eq_some_iff.mp he).2.2).1
        exact hnot (eq_of_key_eq hc.keys (h.subset x hx) hmem hkey ▸ hx)
      · exact hkept e hd hkey
    · exact fun hkept e he => hkept e (h.evicted?_of_evicted? hc he)
  have hlacked : ∀ x ∈ (c.put now key answer).entries, x ∉ (d.put now key answer).entries →
      x ∈ c.entries ∧ x ∉ d.entries := by
    intro x hx hnot
    rcases (mem_put hc.keys).mp hx with rfl | ⟨hx, hkey⟩
    · exact absurd ((mem_put h.keys).mpr (Or.inl rfl)) hnot
    · refine ⟨(roomFor_sublist c key).subset hx, fun hxd => hnot ?_⟩
      exact (mem_put h.keys).mpr (Or.inr ⟨(hroom x hxd).mpr hx, hkey⟩)
  refine ⟨⟨hlimits.1.trans (h.limits.1.trans hlimits'.1.symm),
    hlimits.2.trans (h.limits.2.trans hlimits'.2.symm)⟩,
    ⟨hcounts.1.trans (h.counts.1.trans hcounts'.1.symm),
      hcounts.2.trans (h.counts.2.trans hcounts'.2.symm)⟩,
    (apply_entries h.keys (.store now key answer)).1, ?_, ?_, ?_⟩
  · intro x hx
    refine (mem_put hc.keys).mpr (((mem_put h.keys).mp hx).imp id fun ⟨hx, hkey⟩ => ⟨?_, hkey⟩)
    exact (hroom x ((roomFor_sublist d key).subset hx)).mp hx
  · intro x hx hnot
    obtain ⟨hx, hnot⟩ := hlacked x hx hnot
    exact (isExpired_congr hlimits'.1 moment x).trans (h.expired x hx hnot)
  · intro x hx hnot y hy
    obtain ⟨hx, hnot⟩ := hlacked x hx hnot
    rcases (mem_put h.keys).mp hy with rfl | ⟨hy, _⟩
    · exact hpast x hx
    · exact h.older x hx hnot y ((roomFor_sublist d key).subset hy)

end Stores

/-- A step on both sides, not before the sweep, keeps the relation. -/
theorem apply {step : Event α} (hc : c.Timely (step :: steps)) (hmoment : moment.isFinite = true)
    (hforward : ∀ r, step.reading? = some r → r.lt moment = false) :
    (step.apply d).LacksExpired (step.apply c) moment := by
  have hlimits := And.intro (apply_limits d step) (apply_limits c step)
  have hkeys := (apply_entries h.keys step).1
  cases step with
  | lookup now key =>
    have hnow : now.isFinite = true := hc.finite now (by simp [Event.reading?])
    have hfresh := h.fresh?_eq hc hmoment hnow (hforward now rfl) key
    obtain ⟨_, hhits, hmisses⟩ := get_eq d now key
    obtain ⟨_, hhits', hmisses'⟩ := get_eq c now key
    refine h.restrict (fun x => ¬ (x.key = key ∧ c.isExpired now x = true)) hlimits
      ⟨?_, ?_⟩ hkeys (fun x => ?_) fun x => mem_get hc.keys
    · rw [Event.apply, Event.apply, hhits, hhits', hfresh, h.counts.1]
    · rw [Event.apply, Event.apply, hmisses, hmisses', hfresh, h.counts.2]
    · rw [← isExpired_congr h.limits.1]
      exact mem_get h.keys
  | store now key answer =>
    refine h.put hc fun x hx => ?_
    exact (Binary64.lt_iff.mp (hc.past x hx now (by simp [Event.storedAt?]))).2.2
  | forget key =>
    exact h.restrict (fun x => x.key ≠ key) hlimits h.counts hkeys (fun _ => mem_erase)
      fun _ => mem_erase
  | forgetAll =>
    exact h.restrict (fun _ => False) hlimits h.counts hkeys (fun _ => by simp [Event.apply, clear])
      fun _ => by simp [Event.apply, clear]
  | sweep now =>
    refine h.restrict (fun x => c.isExpired now x = false) hlimits h.counts hkeys (fun x => ?_)
      fun x => by simp [Event.apply, cleanupExpired]
    rw [← isExpired_congr h.limits.1]
    simp [Event.apply, cleanupExpired]

/-- Steps on both sides, none of them before the sweep, keep the relation. -/
theorem replay {steps more : List (Event α)} (hc : c.Timely (steps ++ more))
    (hmoment : moment.isFinite = true)
    (hforward : ∀ r ∈ steps.filterMap Event.reading?, r.lt moment = false) :
    (Cache.replay d steps).LacksExpired (Cache.replay c steps) moment := by
  induction steps generalizing d c with
  | nil => exact h
  | cons step steps ih =>
    have hstep : ∀ r, step.reading? = some r → r.lt moment = false :=
      fun r hr => hforward r (List.mem_filterMap.mpr ⟨step, List.mem_cons_self, hr⟩)
    refine ih (h.apply hc hmoment hstep) hc.apply fun r hr => ?_
    exact hforward r (((List.sublist_cons_self step steps).filterMap _).subset hr)

end LacksExpired

/-! ### What callers see -/

/-- What the caller of a lookup gets, and whether the source had to be asked for it. -/
structure Reply (ε α : Type) where
  result : Except ε (Option α)
  asked : Bool
  deriving DecidableEq

/-- The reply to a call, if it looks something up. -/
def Call.reply? (c : Cache α) : Call ε α → Option (Reply ε α)
  | .get now key => some ⟨.ok (c.get now key).1, false⟩
  | .getOrLoad asked answered key source =>
    let loaded := c.getOrLoad asked answered key source
    some ⟨loaded.result, loaded.asked⟩
  | _ => none

/-- The replies to several calls. -/
def replies (c : Cache α) : List (Call ε α) → List (Option (Reply ε α))
  | [] => []
  | call :: calls => call.reply? c :: replies (call.apply c) calls

theorem history_append (c : Cache α) (calls more : List (Call ε α)) :
    history c (calls ++ more) = history c calls ++ history (afterCalls c calls) more := by
  induction calls generalizing c with
  | nil => rfl
  | cons call calls ih =>
    rw [List.cons_append, history, history, ih, List.append_assoc]
    rfl

/-- A call makes the same steps and gets the same reply of two caches in which it finds the same. -/
theorem call_congr {c d : Cache α} {call : Call ε α}
    (h : ∀ now key, .lookup now key ∈ call.events d → (d.get now key).1 = (c.get now key).1) :
    call.events d = call.events c ∧ call.reply? d = call.reply? c := by
  cases call with
  | get now key =>
    have hget := h now key (by simp [Call.events])
    exact ⟨rfl, by simp only [Call.reply?, hget]⟩
  | getOrLoad asked answered key source =>
    have hget := h asked key (by simp [Call.events])
    obtain ⟨hasked, hresult⟩ := getOrLoad_eq d asked answered key source
    obtain ⟨hasked', hresult'⟩ := getOrLoad_eq c asked answered key source
    refine ⟨by simp only [Call.events, hget], ?_⟩
    simp only [Call.reply?, hasked, hasked', hresult, hresult', hget]
  | _ => exact ⟨rfl, rfl⟩

/-- A run on both sides leaves the same history and gets the same replies. -/
theorem LacksExpired.run {d c : Cache α} {moment : Binary64} (h : d.LacksExpired c moment)
    (hmoment : moment.isFinite = true) (calls : List (Call ε α)) (hc : c.Timely (history d calls))
    (hforward : ∀ r ∈ (history d calls).filterMap Event.reading?, r.lt moment = false) :
    history d calls = history c calls ∧ replies d calls = replies c calls ∧
      (afterCalls d calls).LacksExpired (afterCalls c calls) moment := by
  induction calls generalizing d c with
  | nil => exact ⟨rfl, rfl, h⟩
  | cons call calls ih =>
    rw [history] at hc hforward
    rw [List.filterMap_append, List.forall_mem_append] at hforward
    obtain ⟨hfirst, hrest⟩ := hforward
    have hget : ∀ now key, .lookup now key ∈ call.events d → (d.get now key).1 = (c.get now key).1 := by
      intro now key hmem
      have hreading : now ∈ (call.events d).filterMap Event.reading? :=
        List.mem_filterMap.mpr ⟨_, hmem, rfl⟩
      have hnow : now.isFinite = true := by
        refine hc.finite now ?_
        rw [List.filterMap_append]
        exact List.mem_append_left _ hreading
      rw [(get_eq d now key).1, (get_eq c now key).1,
        h.fresh?_eq hc hmoment hnow (hfirst now hreading) key]
    obtain ⟨hevents, hreply⟩ := call_congr hget
    have hbehind : (call.apply d).LacksExpired (call.apply c) moment := by
      rw [apply_eq_replay, apply_eq_replay, ← hevents]
      exact h.replay hc hmoment hfirst
    have hc' : (call.apply c).Timely (history (call.apply d) calls) := by
      rw [apply_eq_replay c, ← hevents]
      exact hc.replay
    obtain ⟨hhistory, hreplies, hend⟩ := ih hbehind hc' hrest
    refine ⟨?_, ?_, hend⟩
    · rw [history, history, hevents, hhistory]
    · rw [replies, replies, hreply, hreplies]

/-- Sweeping a cache at any moment changes nothing for those who look things up in it later: the
later calls make the same steps, each of them gets the same reply and asks its source as before, and
in the end as many lookups have found something and as many have not. -/
theorem replies_after_sweep {ttl : Binary64} {maxSize : Int} {before later : List (Call ε α)}
    {moment last : Binary64}
    (hticks : Ticks (history (empty ttl maxSize) (before ++ .cleanupExpired moment :: later)) last) :
    let plain := afterCalls (empty ttl maxSize) before
    let swept := (plain.cleanupExpired moment).2
    history swept later = history plain later ∧ replies swept later = replies plain later ∧
      (afterCalls swept later).hits = (afterCalls plain later).hits ∧
      (afterCalls swept later).misses = (afterCalls plain later).misses := by
  intro plain swept
  have hsplit : history (empty ttl maxSize) (before ++ .cleanupExpired moment :: later) =
      history (empty ttl maxSize) before ++ .sweep moment :: history swept later :=
    history_append _ _ _
  rw [hsplit] at hticks
  have htimely := (timely_empty ttl maxSize hticks).replay
  rw [← afterCalls_eq_replay] at htimely
  have hmoment : moment.isFinite = true := htimely.finite moment (by simp [Event.reading?])
  have hforward : ∀ r ∈ (history swept later).filterMap Event.reading?, r.lt moment = false := by
    have hreadings := hticks.forward
    rw [List.filterMap_append, List.append_assoc, List.pairwise_append] at hreadings
    exact fun r hr => List.rel_of_pairwise_cons hreadings.2.1 (List.mem_append_left _ hr)
  obtain ⟨hhistory, hreplies, hend⟩ := (lacksExpired_sweep htimely hmoment).run hmoment later
    (htimely.sublist (List.sublist_cons_self _ _)) hforward
  exact ⟨hhistory, hreplies, hend.counts⟩

/-- Two answers, of which the first is older than a minute soon after the second has come. -/
def apart : List (Call String Nat) := [.put (.ofInt 0) "a" (some 1), .put (.ofInt 50) "b" (some 2)]

/-- A third answer comes, for which the unswept cache has no room; then the second is looked up, and
the first is asked for again. -/
def askedLater : List (Call String Nat) :=
  [.put (.ofInt 75) "c" (some 3), .get (.ofInt 80) "b",
    .getOrLoad (.ofInt 81) (.ofInt 82) "a" (.ok (some 4))]

theorem replies_after_sweep_of_smallCache :
    Ticks (history smallCache (apart ++ .cleanupExpired (.ofInt 70) :: askedLater)) (.ofInt 90) ∧
      replies ((afterCalls smallCache apart).cleanupExpired (.ofInt 70)).2 askedLater =
        [none, some ⟨.ok (some 2), false⟩, some ⟨.ok (some 4), true⟩] := by
  have hticks : Ticks (history smallCache (apart ++ .cleanupExpired (.ofInt 70) :: askedLater))
      (.ofInt 90) :=
    ⟨by decide +kernel, by decide +kernel, by decide +kernel⟩
  obtain ⟨_, hreplies, _⟩ := replies_after_sweep hticks
  exact ⟨hticks, hreplies.trans (by decide +kernel)⟩

end Cache
end QueryGate
