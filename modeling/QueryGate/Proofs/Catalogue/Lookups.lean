import QueryGate.Catalogue
import QueryGate.Policy.Shipped
import QueryGate.Proofs.Cache.Room
import QueryGate.Proofs.Text.LetterCase

/-!
# The catalogue behind its cache

What calls of the catalogue give, in any number, while the clock goes on and the database changes or
fails.  The store mirrors what the database has said: each of its entries is an answer that a lookup
has found, and every such answer that is still fresh is one of its entries.  There are fewer keys
than places, so nothing is pushed out.
-/

namespace QueryGate
namespace Catalogue

/-! ### Calls -/

/-- What is asked of the catalogue. -/
inductive Request where
  | tables
  | columns (table : String)
  deriving DecidableEq

/-- A call: what is asked, the database that a lookup would find, and the readings of the clock when
the cache is asked and when the database has answered. -/
structure Call where
  request : Request
  database : Database
  asked : Binary64
  answered : Binary64

/-- The outcome of a call. -/
def Call.run (a : AllowList) (store : Store) (c : Call) : Outcome :=
  match c.request with
  | .tables => listTables c.database store c.asked c.answered
  | .columns table => listColumns a c.database store c.asked c.answered table

/-- The store behind several calls. -/
def storeAfter (a : AllowList) (store : Store) (calls : List Call) : Store :=
  calls.foldl (fun s c => (c.run a s).store) store

/-- What the callers of several calls get, and the lookups that were made for them. -/
def replies (a : AllowList) (store : Store) : List Call → List (Except Fault Answer × List Lookup)
  | [] => []
  | c :: calls =>
    ((c.run a store).result, (c.run a store).lookups) :: replies a (c.run a store).store calls

/-- The readings of the clock that calls make. -/
def readings (calls : List Call) : List Binary64 := calls.flatMap fun c => [c.asked, c.answered]

/-- Readings of a clock that never goes back. -/
structure Forward (rs : List Binary64) : Prop where
  finite : ∀ r ∈ rs, r.isFinite = true
  order : rs.Pairwise fun r later => later.lt r = false

/-- An answer that a lookup has found, and when it came. -/
structure Finding where
  lookup : Lookup
  answer : Answer
  moment : Binary64

/-- What the lookups of a call have found. -/
def Call.findings (a : AllowList) (store : Store) (c : Call) : List Finding :=
  match (c.run a store).lookups, (c.run a store).result with
  | [l], .ok answer => [⟨l, answer, c.answered⟩]
  | _, _ => []

/-- What the lookups of several calls have found. -/
def findings (a : AllowList) (store : Store) : List Call → List Finding
  | [] => []
  | c :: calls => c.findings a store ++ findings a (c.run a store).store calls

/-! ### Which lookup answers a request -/

/-- Whether a name is plain: letters, digits and underscores, and at least one of them. -/
abbrev IsPlain (table : String) : Prop :=
  table.toList ≠ [] ∧ ∀ c ∈ table.toList, isNameChar c = true

-- Characters have an instance for all statements about all of them, which is not one to evaluate.
instance (table : String) : Decidable (IsPlain table) :=
  decidable_of_iff (table.toList ≠ [] ∧ table.toList.all isNameChar = true) (by simp [IsPlain])

/-- The lookup that answers a request.  There is none for a table without a plain name, and none for
one that is not allowed. -/
def Request.lookup? (a : AllowList) : Request → Option Lookup
  | .tables => some .tableNames
  | .columns table =>
    if IsPlain table ∧ a.isAllowedTable table = true then some (.columnsOf (lowerText table))
    else none

/-- Whether a call failed because its table is not known. -/
def Fault.isUnknownTable : Fault → Bool
  | .invalidName _ | .notAllowed _ => true
  | .illTyped | .failed _ => false

theorem ascii_of_isNameChar {c : Char} (h : isNameChar c = true) : c.toNat < 128 := by
  rcases (Bool.or_eq_true _ _).mp h with h | h
  · have := Text.toNat_of_isAlphanum h
    omega
  · rw [eq_of_beq h]
    decide

theorem isPlainName_iff {cs : List Char} :
    isPlainName cs = true ↔
      Text.withoutLineBreak cs ≠ [] ∧ ∀ c ∈ Text.withoutLineBreak cs, isNameChar c = true := by
  simp [isPlainName]

theorem lowerText_lowerText {table : String} (h : IsPlain table) :
    lowerText (lowerText table) = lowerText table := by
  unfold lowerText
  rw [String.toList_ofList, Text.lower_lower_of_ascii fun c hc => ascii_of_isNameChar (h.2 c hc)]

theorem isNameChar_toLower (c : Char) : isNameChar c.toLower = isNameChar c := by
  by_cases hc : c.toNat < 128
  · exact Text.forall_ascii (p := fun c => isNameChar c.toLower = isNameChar c) (by decide +kernel) hc
  · rw [Text.toLower_of_not_ascii (by omega)]

/-- Names that differ in the case of letters only are looked up together. -/
theorem lookup?_congr (a : AllowList) {table table' : String}
    (h : table.toList.map Char.toLower = table'.toList.map Char.toLower) :
    (Request.columns table).lookup? a = (Request.columns table').lookup? a := by
  have hplain (name : String) : IsPlain name ↔ name.toList.map Char.toLower ≠ [] ∧
      ∀ c ∈ name.toList.map Char.toLower, isNameChar c = true := by
    simp [IsPlain, isNameChar_toLower]
  have hlower : lowerText table = lowerText table' := by
    unfold lowerText
    rw [← Text.lower_map_toLower, h, Text.lower_map_toLower]
  simp only [Request.lookup?, AllowList.isAllowedTable, hlower, hplain, h]

section Requests

variable {a : AllowList} (hnames : ∀ entry ∈ a.tables, '\n' ∉ entry.1.toList)
include hnames

/-- A name with a line break behind it is allowed nowhere. -/
theorem not_isAllowedTable_of_mem {table : String} (h : '\n' ∈ table.toList) :
    a.isAllowedTable (lowerText table) = false := by
  have hblank : Text.isBlank '\n' = true := by decide
  have hmem : '\n' ∈ (lowerText (lowerText table)).toList := by
    unfold lowerText
    rw [String.toList_ofList, String.toList_ofList]
    exact Text.mem_lower_of_isBlank hblank (Text.mem_lower_of_isBlank hblank h)
  rw [AllowList.isAllowedTable, Bool.eq_false_iff]
  intro htable
  obtain ⟨columns, hlisted⟩ := AllowList.exists_mem_of_hasTable htable
  exact hnames (lowerText (lowerText table), columns) hlisted hmem

/-- A request with a lookup is answered by it, every other one is refused. -/
theorem run_cases (c : Call) :
    (∃ l, c.request.lookup? a = some l ∧
        ∀ store, c.run a store = lookUp c.database store c.asked c.answered l) ∨
      c.request.lookup? a = none ∧
        ∃ f, f.isUnknownTable = true ∧ ∀ store, c.run a store = ⟨.error f, [], store⟩ := by
  unfold Call.run
  cases hrequest : c.request with
  | tables => exact Or.inl ⟨.tableNames, rfl, fun _ => rfl⟩
  | columns table =>
    simp only [Request.lookup?, listColumns]
    by_cases hplain : IsPlain table
    · have hname : isPlainName table.toList = true := by
        rw [isPlainName_iff]
        rcases Text.eq_of_withoutLineBreak table.toList with hsame | hbreak
        · rw [hsame]
          exact hplain
        · exact absurd (hplain.2 '\n' (by rw [hbreak]; simp)) (by decide)
      have hallowed : a.isAllowedTable (lowerText table) = a.isAllowedTable table := by
        rw [AllowList.isAllowedTable, AllowList.isAllowedTable, lowerText_lowerText hplain]
      rw [hname, hallowed]
      cases htable : a.isAllowedTable table with
      | true => exact Or.inl ⟨_, if_pos ⟨hplain, rfl⟩, fun _ => rfl⟩
      | false => exact Or.inr ⟨if_neg (by simp), .notAllowed (lowerText table), rfl, fun _ => rfl⟩
    · refine Or.inr ⟨if_neg fun h => hplain h.1, ?_⟩
      cases hname : isPlainName table.toList with
      | false => exact ⟨.invalidName _, rfl, fun _ => rfl⟩
      | true =>
        -- a plain name may have a line break behind it, but no table is called that
        obtain ⟨hne, hall⟩ := isPlainName_iff.mp hname
        have hbreak : '\n' ∈ table.toList := by
          rcases Text.eq_of_withoutLineBreak table.toList with hsame | hbreak
          · rw [hsame] at hne hall
            exact absurd ⟨hne, hall⟩ hplain
          · rw [hbreak]
            simp
        rw [not_isAllowedTable_of_mem hnames hbreak]
        exact ⟨.notAllowed (lowerText table), rfl, fun _ => rfl⟩

end Requests

/-! ### Keys -/

theorem key_injective {l l' : Lookup} (h : l.key = l'.key) : l = l' := by
  have hne (table : String) : "tables" ≠ "columns:" ++ table := by
    intro h
    have := congrArg (fun s => s.toList.head?) h
    simp at this
  cases l <;> cases l'
  · rfl
  · exact absurd h (hne _)
  · exact absurd h.symm (hne _)
  · rename_i table table'
    have := congrArg String.toList h
    simp only [Lookup.key, String.toList_append, List.append_cancel_left_eq] at this
    rw [String.toList_injective this]

/-- The keys of all lookups. -/
def allKeys (a : AllowList) : List String :=
  Lookup.tableNames.key :: a.tables.map fun entry => (Lookup.columnsOf entry.1).key

theorem key_mem_allKeys {a : AllowList} {r : Request} {l : Lookup} (h : r.lookup? a = some l) :
    l.key ∈ allKeys a := by
  cases r with
  | tables =>
    obtain rfl := Option.some.inj h
    exact List.mem_cons_self
  | columns table =>
    obtain ⟨⟨_, hallowed⟩, hl⟩ := (Option.ite_none_right_eq_some).mp h
    obtain rfl := Option.some.inj hl
    obtain ⟨columns, hlisted⟩ := AllowList.exists_mem_of_hasTable hallowed
    exact List.mem_cons_of_mem _ (List.mem_map.mpr ⟨_, hlisted, rfl⟩)

/-! ### Lookups through the cache -/

theorem answer_cases (db : Database) (l : Lookup) :
    (∃ message, db.failure = some message ∧ db.answer l = .error (.failed message)) ∨
      db.failure = none ∧ ∃ v, db.answer l = .ok (some v) := by
  unfold Database.answer
  cases db.failure with
  | some message => exact Or.inl ⟨message, rfl, rfl⟩
  | none => cases l <;> exact Or.inr ⟨rfl, _, rfl⟩

section LookUp

variable {db : Database} {store : Store} {asked answered : Binary64} {l : Lookup}

theorem lookUp_of_get {v : Answer} (h : (store.get asked l.key).1 = some v) :
    lookUp db store asked answered l = ⟨.ok v, [], (store.get asked l.key).2⟩ := by
  unfold lookUp Cache.getOrLoad
  rcases hget : store.get asked l.key with ⟨_ | w, store'⟩ <;> rw [hget] at h
  · cases h
  · obtain rfl := Option.some.inj h
    rfl

theorem lookUp_of_failure {message : String} (h : (store.get asked l.key).1 = none)
    (hdb : db.answer l = .error (.failed message)) :
    lookUp db store asked answered l =
      ⟨.error (.failed message), [l], (store.get asked l.key).2⟩ := by
  unfold lookUp Cache.getOrLoad
  rcases hget : store.get asked l.key with ⟨_ | w, store'⟩ <;> rw [hget] at h
  · rw [hdb]
    rfl
  · cases h

theorem lookUp_of_answer {v : Answer} (h : (store.get asked l.key).1 = none)
    (hdb : db.answer l = .ok (some v)) :
    lookUp db store asked answered l =
      ⟨.ok v, [l], (store.get asked l.key).2.put answered l.key (some v)⟩ := by
  unfold lookUp Cache.getOrLoad
  rcases hget : store.get asked l.key with ⟨_ | w, store'⟩ <;> rw [hget] at h
  · rw [hdb]
    rfl
  · cases h

end LookUp

/-- The entry that remembers a finding. -/
def Finding.entry (f : Finding) : CacheEntry Answer := ⟨f.lookup.key, some f.answer, f.moment⟩

/-- A store mirrors what has been found, for a clock with the given readings to come: its entries
are findings, and every finding that is fresh at one of the readings is among them. -/
structure Mirrors (a : AllowList) (ttl : Binary64) (store : Store) (found : List Finding)
    (coming : List Binary64) : Prop where
  limits : store.ttl = ttl ∧ store.maxSize = Cache.defaultMaxSize
  keys : store.keys.Nodup
  known : ∀ f ∈ found, f.moment.isFinite = true ∧ f.lookup.key ∈ allKeys a
  entries : ∀ e ∈ store.entries, ∃ f ∈ found, e = f.entry
  fresh : ∀ f ∈ found, ∀ r ∈ coming, Cache.IsFresh ttl r f.moment → f.entry ∈ store.entries
  clock : Forward coming

theorem mirrors_empty (a : AllowList) (ttl : Binary64) {coming : List Binary64}
    (hclock : Forward coming) :
    Mirrors a ttl (Cache.empty ttl Cache.defaultMaxSize) [] coming where
  limits := ⟨rfl, rfl⟩
  keys := List.nodup_nil
  known := List.forall_mem_nil _
  entries := List.forall_mem_nil _
  fresh := List.forall_mem_nil _
  clock := hclock

namespace Mirrors

variable {a : AllowList} {ttl : Binary64} {store : Store} {found : List Finding}
  {coming : List Binary64} {asked : Binary64} {l : Lookup}

/-- The keys of the store are keys of lookups, so there is always a place for one more. -/
theorem size_le (h : Mirrors a ttl store found coming) : store.size ≤ (allKeys a).length := by
  have hsub : store.keys ⊆ allKeys a := by
    intro key hkey
    obtain ⟨e, he, rfl⟩ := List.mem_map.mp hkey
    obtain ⟨f, hf, rfl⟩ := h.entries e he
    exact (h.known f hf).2
  have hlength := (h.keys.subperm hsub).length_le
  rwa [Cache.keys, List.length_map] at hlength

/-- A fresh finding is what the cache gives. -/
theorem get_of_fresh (h : Mirrors a ttl store found (asked :: coming)) {f : Finding} (hf : f ∈ found)
    (hlookup : f.lookup = l) (hfresh : Cache.IsFresh ttl asked f.moment) :
    (store.get asked l.key).1 = some f.answer := by
  have hmem := h.fresh f hf asked List.mem_cons_self hfresh
  refine Cache.get_eq_some_iff.mpr ⟨f.entry, ?_, ?_, rfl⟩
  · rw [← hlookup]
    exact Cache.entry?_of_mem h.keys hmem
  · rw [Cache.isExpired_eq_false_iff (h.clock.finite asked List.mem_cons_self) (h.known f hf).1,
      h.limits.1]
    exact hfresh

/-- The cache gives nothing when no finding is fresh. -/
theorem get_of_stale (h : Mirrors a ttl store found (asked :: coming))
    (hstale : ∀ f ∈ found, f.lookup = l → ¬ Cache.IsFresh ttl asked f.moment) :
    (store.get asked l.key).1 = none := by
  by_contra hsome
  obtain ⟨v, hv⟩ := Option.ne_none_iff_exists'.mp hsome
  obtain ⟨e, he, hexpired, _⟩ := Cache.get_eq_some_iff.mp hv
  obtain ⟨hmem, hkey⟩ := Cache.mem_of_entry? he
  obtain ⟨f, hf, rfl⟩ := h.entries e hmem
  rw [Cache.isExpired_eq_false_iff (h.clock.finite asked List.mem_cons_self) (h.known f hf).1,
    h.limits.1] at hexpired
  exact hstale f hf (key_injective hkey) hexpired

theorem tail {r : Binary64} (h : Mirrors a ttl store found (r :: coming)) :
    Mirrors a ttl store found coming where
  limits := h.limits
  keys := h.keys
  known := h.known
  entries := h.entries
  fresh := fun f hf r' hr => h.fresh f hf r' (List.mem_cons_of_mem _ hr)
  clock := ⟨fun r' hr => h.clock.finite r' (List.mem_cons_of_mem _ hr), h.clock.order.tail⟩

/-- A finding that is fresh at some reading to come is fresh at the first of them. -/
theorem fresh_of_later (h : Mirrors a ttl store found (asked :: coming)) {f : Finding}
    (hf : f ∈ found) {r : Binary64} (hr : r ∈ coming) (hfresh : Cache.IsFresh ttl r f.moment) :
    Cache.IsFresh ttl asked f.moment :=
  hfresh.earlier (h.clock.finite r (List.mem_cons_of_mem _ hr))
    (h.clock.finite asked List.mem_cons_self) (h.known f hf).1
    (List.rel_of_pairwise_cons h.clock.order hr)

theorem not_isExpired (h : Mirrors a ttl store found (asked :: coming)) {f : Finding}
    (hf : f ∈ found) (hfresh : Cache.IsFresh ttl asked f.moment) :
    store.isExpired asked f.entry = false := by
  rw [Cache.isExpired_eq_false_iff (h.clock.finite asked List.mem_cons_self) (h.known f hf).1,
    h.limits.1]
  exact hfresh

/-- Asking the cache keeps it a mirror of what has been found. -/
theorem get (h : Mirrors a ttl store found (asked :: coming)) (key : String) :
    Mirrors a ttl (store.get asked key).2 found coming where
  limits := by
    obtain ⟨httl, hmax⟩ := Cache.apply_limits store (.lookup asked key)
    exact ⟨httl.trans h.limits.1, hmax.trans h.limits.2⟩
  keys := (Cache.apply_entries h.keys (.lookup asked key)).1
  known := h.known
  entries := fun e he => h.entries e ((Cache.mem_get h.keys).mp he).1
  fresh := by
    intro f hf r hr hfresh
    refine (Cache.mem_get h.keys).mpr ⟨h.fresh f hf r (List.mem_cons_of_mem _ hr) hfresh, ?_⟩
    rintro ⟨_, hexpired⟩
    rw [h.not_isExpired hf (h.fresh_of_later hf hr hfresh)] at hexpired
    cases hexpired
  clock := h.tail.clock

variable (hroom : (allKeys a).length < Cache.defaultMaxSize.toNat)
include hroom

/-- Nothing is ever pushed out of the store. -/
theorem evicted?_eq_none (h : Mirrors a ttl store found coming) (key : String) :
    store.evicted? key = none := by
  have hsize := h.size_le
  refine Option.eq_none_iff_forall_not_mem.mpr fun e he => ?_
  obtain ⟨hfull, _⟩ := Cache.evicted?_eq_some_iff.mp he
  rw [h.limits.2] at hfull
  omega

theorem mem_put_iff (h : Mirrors a ttl store found coming) {answered : Binary64} {key : String}
    {answer : Option Answer} {x : CacheEntry Answer} :
    x ∈ (store.put answered key answer).entries ↔
      x = ⟨key, answer, answered⟩ ∨ x ∈ store.entries ∧ x.key ≠ key := by
  rw [Cache.mem_put h.keys, Cache.mem_roomFor, h.evicted?_eq_none hroom]
  simp

/-- Remembering an answer keeps the store a mirror of what has been found, when nothing that was
found under its key is still fresh. -/
theorem put {answered : Binary64} {v : Answer} (h : Mirrors a ttl store found (answered :: coming))
    (hkey : l.key ∈ allKeys a)
    (hstale : ∀ f ∈ found, f.lookup = l → ∀ r ∈ coming, ¬ Cache.IsFresh ttl r f.moment) :
    Mirrors a ttl (store.put answered l.key (some v)) (found ++ [⟨l, v, answered⟩]) coming where
  limits := by
    obtain ⟨httl, hmax⟩ := Cache.apply_limits store (.store answered l.key (some v))
    exact ⟨httl.trans h.limits.1, hmax.trans h.limits.2⟩
  keys := (Cache.apply_entries h.keys (.store answered l.key (some v))).1
  known := by
    intro f hf
    rcases List.mem_append.mp hf with hf | hf
    · exact h.known f hf
    · rw [List.mem_singleton.mp hf]
      exact ⟨h.clock.finite answered List.mem_cons_self, hkey⟩
  entries := by
    intro e he
    rcases (h.mem_put_iff hroom).mp he with rfl | ⟨he, _⟩
    · exact ⟨⟨l, v, answered⟩, by simp, rfl⟩
    · obtain ⟨f, hf, rfl⟩ := h.entries e he
      exact ⟨f, List.mem_append_left _ hf, rfl⟩
  fresh := by
    intro f hf r hr hfresh
    rcases List.mem_append.mp hf with hf | hf
    · refine (h.mem_put_iff hroom).mpr (Or.inr ⟨h.fresh f hf r (List.mem_cons_of_mem _ hr) hfresh, ?_⟩)
      exact fun hsame => hstale f hf (key_injective hsame) r hr hfresh
    · rw [List.mem_singleton.mp hf]
      exact (h.mem_put_iff hroom).mpr (Or.inl rfl)
  clock := h.tail.clock

end Mirrors

/-! ### One call -/

/-- What becomes of a call with a lookup: an answer that was found before and is fresh is given again;
otherwise the database is asked, and its failure or its answer is given. -/
inductive Serves (ttl : Binary64) (store : Store) (found : List Finding) (c : Call) (l : Lookup) :
    Outcome → Prop
  | again {v : Answer} (hsome : ∃ f ∈ found, f.lookup = l ∧ Cache.IsFresh ttl c.asked f.moment)
      (hall : ∀ f ∈ found, f.lookup = l → Cache.IsFresh ttl c.asked f.moment → f.answer = v) :
      Serves ttl store found c l ⟨.ok v, [], (store.get c.asked l.key).2⟩
  | failed {message : String}
      (hstale : ∀ f ∈ found, f.lookup = l → ¬ Cache.IsFresh ttl c.asked f.moment)
      (hfailed : c.database.answer l = .error (.failed message)) :
      Serves ttl store found c l ⟨.error (.failed message), [l], (store.get c.asked l.key).2⟩
  | answered {v : Answer}
      (hstale : ∀ f ∈ found, f.lookup = l → ¬ Cache.IsFresh ttl c.asked f.moment)
      (hanswer : c.database.answer l = .ok (some v)) :
      Serves ttl store found c l
        ⟨.ok v, [l], (store.get c.asked l.key).2.put c.answered l.key (some v)⟩

section OneCall

variable {a : AllowList} {ttl : Binary64} {store : Store} {found : List Finding} {c : Call}
  {l : Lookup} {coming : List Binary64}

theorem serves_lookUp (h : Mirrors a ttl store found (c.asked :: coming)) :
    Serves ttl store found c l (lookUp c.database store c.asked c.answered l) := by
  by_cases hfresh : ∃ f ∈ found, f.lookup = l ∧ Cache.IsFresh ttl c.asked f.moment
  · obtain ⟨f, hf, hl, hnow⟩ := hfresh
    have hget := h.get_of_fresh hf hl hnow
    rw [lookUp_of_get hget]
    refine .again ⟨f, hf, hl, hnow⟩ fun f' hf' hl' hnow' => ?_
    exact Option.some.inj ((h.get_of_fresh hf' hl' hnow').symm.trans hget)
  · have hstale : ∀ f ∈ found, f.lookup = l → ¬ Cache.IsFresh ttl c.asked f.moment :=
      fun f hf hl hnow => hfresh ⟨f, hf, hl, hnow⟩
    have hget := h.get_of_stale hstale
    rcases answer_cases c.database l with ⟨message, _, hdb⟩ | ⟨_, v, hdb⟩
    · rw [lookUp_of_failure hget hdb]
      exact .failed hstale hdb
    · rw [lookUp_of_answer hget hdb]
      exact .answered hstale hdb

/-- What is given again, and whether the database is asked, depends on the findings alone. -/
theorem Serves.congr {store' : Store} {out out' : Outcome} (h : Serves ttl store found c l out)
    (h' : Serves ttl store' found c l out') :
    out.result = out'.result ∧ out.lookups = out'.lookups := by
  cases h with
  | again hsome hall =>
    obtain ⟨f, hf, hl, hfresh⟩ := hsome
    cases h' with
    | again hsome' hall' =>
      rw [← hall f hf hl hfresh, ← hall' f hf hl hfresh]
      exact ⟨rfl, rfl⟩
    | failed hstale => exact absurd hfresh (hstale f hf hl)
    | answered hstale => exact absurd hfresh (hstale f hf hl)
  | failed hstale hfailed =>
    cases h' with
    | again hsome =>
      obtain ⟨f, hf, hl, hfresh⟩ := hsome
      exact absurd hfresh (hstale f hf hl)
    | failed _ hfailed' =>
      obtain rfl := Fault.failed.inj (Except.error.inj (hfailed.symm.trans hfailed'))
      exact ⟨rfl, rfl⟩
    | answered _ hanswer =>
      rw [hfailed] at hanswer
      cases hanswer
  | answered hstale hanswer =>
    cases h' with
    | again hsome =>
      obtain ⟨f, hf, hl, hfresh⟩ := hsome
      exact absurd hfresh (hstale f hf hl)
    | failed _ hfailed =>
      rw [hanswer] at hfailed
      cases hfailed
    | answered _ hanswer' =>
      obtain rfl := Option.some.inj (Except.ok.inj (hanswer.symm.trans hanswer'))
      exact ⟨rfl, rfl⟩

/-- What the lookups of a call have found, from its outcome. -/
theorem findings_eq {out : Outcome} (hrun : c.run a store = out) :
    c.findings a store = match out.lookups, out.result with
      | [l], .ok answer => [⟨l, answer, c.answered⟩]
      | _, _ => [] := by
  rw [Call.findings, hrun]

variable (hnames : ∀ entry ∈ a.tables, '\n' ∉ entry.1.toList)
  (hroom : (allKeys a).length < Cache.defaultMaxSize.toNat)
include hnames hroom

/-- A call keeps the store a mirror of what has been found. -/
theorem Mirrors.call (h : Mirrors a ttl store found (c.asked :: c.answered :: coming)) :
    Mirrors a ttl (c.run a store).store (found ++ c.findings a store) coming := by
  rcases run_cases hnames c with ⟨l, hl, hrun⟩ | ⟨_, f, _, hrun⟩
  · have hserves := serves_lookUp (l := l) h
    rw [← hrun] at hserves
    generalize hout : c.run a store = out at hserves
    rw [findings_eq hout]
    cases hserves with
    | again hsome hall =>
      rw [List.append_nil]
      exact (h.get l.key).tail
    | failed hstale hfailed =>
      rw [List.append_nil]
      exact (h.get l.key).tail
    | answered hstale hanswer =>
      refine (h.get l.key).put hroom (key_mem_allKeys hl) fun f hf hlookup r hr hfresh => ?_
      exact hstale f hf hlookup (h.fresh_of_later hf (List.mem_cons_of_mem _ hr) hfresh)
  · rw [findings_eq (hrun store), hrun, List.append_nil]
    exact h.tail.tail

/-- An entry leaves the store only when it has expired. -/
theorem Mirrors.mem_or_isExpired (h : Mirrors a ttl store found (c.asked :: c.answered :: coming))
    {e : CacheEntry Answer} (he : e ∈ store.entries) :
    e ∈ (c.run a store).store.entries ∨ store.isExpired c.asked e = true := by
  by_cases hexpired : store.isExpired c.asked e = true
  · exact Or.inr hexpired
  · left
    have hget (key : String) : e ∈ (store.get c.asked key).2.entries :=
      (Cache.mem_get h.keys).mpr ⟨he, fun hold => hexpired hold.2⟩
    rcases run_cases hnames c with ⟨l, _, hrun⟩ | ⟨_, f, _, hrun⟩
    · have hserves := serves_lookUp (l := l) h
      rw [← hrun] at hserves
      generalize c.run a store = out at hserves
      cases hserves with
      | again => exact hget l.key
      | failed => exact hget l.key
      | answered hstale hanswer =>
        refine ((h.get l.key).mem_put_iff hroom).mpr (Or.inr ⟨hget l.key, fun hkey => ?_⟩)
        obtain ⟨f, hf, rfl⟩ := h.entries e he
        rw [Bool.not_eq_true, Cache.isExpired_eq_false_iff
          (h.clock.finite c.asked List.mem_cons_self) (h.known f hf).1, h.limits.1] at hexpired
        exact hstale f hf (key_injective hkey) hexpired
    · rw [hrun]
      exact he

end OneCall

/-! ### Runs -/

section Runs

variable {a : AllowList} {ttl : Binary64} {store store' : Store} {found : List Finding}
  {coming : List Binary64} (hnames : ∀ entry ∈ a.tables, '\n' ∉ entry.1.toList)
include hnames

/-- A call gets the same of two stores that mirror the same findings. -/
theorem reply_congr {c : Call} (h : Mirrors a ttl store found (c.asked :: coming))
    (h' : Mirrors a ttl store' found (c.asked :: coming)) :
    (c.run a store).result = (c.run a store').result ∧
      (c.run a store).lookups = (c.run a store').lookups := by
  rcases run_cases hnames c with ⟨l, _, hrun⟩ | ⟨_, f, _, hrun⟩
  · rw [hrun, hrun]
    exact (serves_lookUp h).congr (serves_lookUp h')
  · rw [hrun, hrun]
    exact ⟨rfl, rfl⟩

variable (hroom : (allKeys a).length < Cache.defaultMaxSize.toNat)
include hroom

theorem Mirrors.run {calls : List Call}
    (h : Mirrors a ttl store found (readings calls ++ coming)) :
    Mirrors a ttl (storeAfter a store calls) (found ++ findings a store calls) coming := by
  induction calls generalizing store found with
  | nil => rwa [findings, List.append_nil]
  | cons c calls ih =>
    have hnext := ih (h.call hnames hroom)
    rwa [List.append_assoc] at hnext

/-- Calls get the same of two stores that mirror the same findings. -/
theorem replies_congr {calls : List Call} (h : Mirrors a ttl store found (readings calls ++ coming))
    (h' : Mirrors a ttl store' found (readings calls ++ coming)) :
    replies a store calls = replies a store' calls := by
  induction calls generalizing store store' found with
  | nil => rfl
  | cons c calls ih =>
    obtain ⟨hresult, hlookups⟩ := reply_congr hnames h h'
    have hfindings : c.findings a store = c.findings a store' := by
      rw [Call.findings, Call.findings, hresult, hlookups]
    have hnext := h.call hnames hroom
    have hnext' := h'.call hnames hroom
    rw [hfindings] at hnext
    rw [replies, replies, hresult, hlookups, ih hnext hnext']

/-- A call that fails changes nothing for the calls that follow. -/
theorem replies_of_error {c : Call} {calls : List Call} {f : Fault}
    (h : Mirrors a ttl store found (c.asked :: c.answered :: (readings calls ++ coming)))
    (hfailed : (c.run a store).result = .error f) :
    replies a (c.run a store).store calls = replies a store calls := by
  have hnone : c.findings a store = [] := by
    rw [Call.findings, hfailed]
    split
    · rename_i hok
      cases hok
    · rfl
  have hnext := h.call hnames hroom
  rw [hnone, List.append_nil] at hnext
  exact replies_congr hnames hroom hnext h.tail.tail

end Runs

theorem shipped_names : ∀ entry ∈ Policy.shipped.tables, '\n' ∉ entry.1.toList := by decide

theorem shipped_room : (allKeys Policy.shipped).length < Cache.defaultMaxSize.toNat := by decide

/-- The store of the catalogue before anything is asked. -/
abbrev emptyStore (ttl : Binary64) : Store := Cache.empty ttl Cache.defaultMaxSize

/-- Any call of the catalogue, behind any others and in front of any others.  A table that has no
plain name or is not allowed is refused without a lookup.  Every other request has a lookup, which
letter case does not change, and is served by it: what an earlier lookup found is given again as
long as it is fresh, and else the database is asked.  A call that fails changes nothing for the calls
that follow.  No entry is pushed out of the store: one leaves it only when it has expired. -/
theorem served_through_cache (ttl : Binary64) {before later : List Call} {call : Call}
    (hclock : Forward (readings (before ++ call :: later))) :
    let store := storeAfter Policy.shipped (emptyStore ttl) before
    let found := findings Policy.shipped (emptyStore ttl) before
    let out := call.run Policy.shipped store
    (call.request.lookup? Policy.shipped = none →
        out.lookups = [] ∧ ∃ f, f.isUnknownTable = true ∧ out.result = .error f) ∧
      (∀ l, call.request.lookup? Policy.shipped = some l → Serves ttl store found call l out) ∧
      (∀ table table' : String, table.toList.map Char.toLower = table'.toList.map Char.toLower →
        (Request.columns table).lookup? Policy.shipped =
          (Request.columns table').lookup? Policy.shipped) ∧
      (∀ f, out.result = .error f →
        replies Policy.shipped out.store later = replies Policy.shipped store later) ∧
      (∀ e ∈ store.entries, e ∈ out.store.entries ∨ store.isExpired call.asked e = true) ∧
      ∀ key, store.evicted? key = none := by
  intro store found out
  have hreadings : readings (before ++ call :: later) =
      readings before ++ (call.asked :: call.answered :: (readings later ++ [])) := by
    simp [readings]
  rw [hreadings] at hclock
  have hmirrors : Mirrors Policy.shipped ttl store found
      (call.asked :: call.answered :: (readings later ++ [])) :=
    (mirrors_empty Policy.shipped ttl hclock).run shipped_names shipped_room
  refine ⟨?_, ?_, fun _ _ => lookup?_congr _, fun f => replies_of_error shipped_names shipped_room
    hmirrors, fun e => hmirrors.mem_or_isExpired shipped_names shipped_room,
    hmirrors.evicted?_eq_none shipped_room⟩
  · intro hnone
    rcases run_cases shipped_names call with ⟨l, hl, _⟩ | ⟨_, f, hf, hrun⟩
    · rw [hnone] at hl
      cases hl
    · exact ⟨congrArg Outcome.lookups (hrun store), f, hf, congrArg Outcome.result (hrun store)⟩
  · intro l hl
    rcases run_cases shipped_names call with ⟨l', hl', hrun⟩ | ⟨hnone, _⟩
    · obtain rfl := Option.some.inj (hl.symm.trans hl')
      show Serves ttl store found call l (call.run Policy.shipped store)
      rw [hrun]
      exact serves_lookUp hmirrors
    · rw [hnone] at hl
      cases hl

/-- A database with one table. -/
def kitchen : Database := ⟨["daily_check"], [("daily_check", [⟨"id", "INTEGER", false⟩])], none⟩

/-- A database that cannot be reached. -/
def unreachable : Database := ⟨[], [], some "gone away"⟩

/-- The columns of a table, and half a minute later all tables. -/
def firstCalls : List Call :=
  [⟨.columns "daily_check", kitchen, .ofInt 0, .ofInt 1⟩, ⟨.tables, kitchen, .ofInt 30, .ofInt 31⟩]

/-- The same columns a minute later: what was found is too old, and the database is gone. -/
def callInVain : Call := ⟨.columns "Daily_Check", unreachable, .ofInt 62, .ofInt 63⟩

theorem served_through_cache_of_unreachable :
    let store := storeAfter Policy.shipped (emptyStore (.ofInt 60)) firstCalls
    let later : List Call := [⟨.tables, unreachable, .ofInt 90, .ofInt 90⟩]
    Forward (readings (firstCalls ++ callInVain :: later)) ∧
      (callInVain.run Policy.shipped store).result = .error (.failed "gone away") ∧
      replies Policy.shipped (callInVain.run Policy.shipped store).store later =
        [(.ok (.tables ["daily_check"]), [])] := by
  intro store later
  have hclock : Forward (readings (firstCalls ++ callInVain :: later)) :=
    ⟨by decide +kernel, by decide +kernel⟩
  have hfailed : (callInVain.run Policy.shipped store).result = .error (.failed "gone away") := by
    decide +kernel
  obtain ⟨_, _, _, hlater, _⟩ := served_through_cache (.ofInt 60) hclock
  exact ⟨hclock, hfailed, (hlater _ hfailed).trans (by decide +kernel)⟩

end Catalogue
end QueryGate
