import QueryGate.Number.Shortest

/-!
# A cache with a lifetime

A cache remembers answers under keys.  An answer is forgotten when it has become older than the
lifetime, or when the cache is full and it is the oldest.  The cache has no clock: every operation
that depends on the time is told it.  An answer can be that there is nothing; such an answer is
remembered but never spares asking again.
-/

namespace QueryGate

/-- A remembered answer. -/
structure CacheEntry (α : Type) where
  key : String
  answer : Option α
  createdAt : Binary64

/-- A cache: its lifetime in seconds, its capacity, the entries in the order in which their keys
came, and how many lookups found an answer and how many did not. -/
structure Cache (α : Type) where
  ttl : Binary64
  maxSize : Int
  entries : List (CacheEntry α)
  hits : Nat
  misses : Nat

namespace Cache

variable {α : Type}

/-- The capacity of a cache that is not given one. -/
def defaultMaxSize : Int := 256

/-- A cache without entries. -/
def empty (ttl : Binary64) (maxSize : Int) : Cache α := ⟨ttl, maxSize, [], 0, 0⟩

/-- The keys in the order in which they came. -/
def keys (c : Cache α) : List String := c.entries.map (·.key)

/-- The number of entries. -/
def size (c : Cache α) : Nat := c.entries.length

/-- The entry under a key. -/
def entry? (c : Cache α) (key : String) : Option (CacheEntry α) :=
  c.entries.find? fun e => e.key == key

/-- Whether an entry is older than the lifetime. -/
def isExpired (c : Cache α) (now : Binary64) (e : CacheEntry α) : Bool :=
  c.ttl.lt (now.sub e.createdAt)

/-- The cache without the entry under a key. -/
def erase (c : Cache α) (key : String) : Cache α :=
  { c with entries := c.entries.filter fun e => e.key != key }

/-- Looks up a key.  An expired entry is removed and does not count as found. -/
def get (c : Cache α) (now : Binary64) (key : String) : Option α × Cache α :=
  match c.entry? key with
  | none => (none, { c with misses := c.misses + 1 })
  | some e =>
    if c.isExpired now e then (none, { c.erase key with misses := c.misses + 1 })
    else (e.answer, { c with hits := c.hits + 1 })

/-- The earliest of several entries; of entries of one time the first. -/
def oldest? : List (CacheEntry α) → Option (CacheEntry α)
  | [] => none
  | e :: rest =>
    some (rest.foldl (fun best x => if x.createdAt.lt best.createdAt then x else best) e)

/-- The cache without its oldest entry. -/
def evictOldest (c : Cache α) : Cache α :=
  match oldest? c.entries with
  | none => c
  | some e => c.erase e.key

/-- Puts an entry in the place of the one under its key, or at the end. -/
def store (e : CacheEntry α) : List (CacheEntry α) → List (CacheEntry α)
  | [] => [e]
  | x :: rest => if x.key = e.key then e :: rest else x :: store e rest

/-- Remembers an answer.  When the key is new and the cache full, the oldest entry goes. -/
def put (c : Cache α) (now : Binary64) (key : String) (answer : Option α) : Cache α :=
  let c := if c.maxSize ≤ c.size && (c.entry? key).isNone then c.evictOldest else c
  { c with entries := store ⟨key, answer, now⟩ c.entries }

/-- What a lookup gave, whether the source had to be asked, and the cache behind it. -/
structure Loaded (ε α : Type) where
  result : Except ε (Option α)
  asked : Bool
  cache : Cache α

/-- Looks up a key and, if there is no answer, asks the source, whose answer is remembered unless
asking failed.  The source may take its time: the answer is as old as the moment when it came. -/
def getOrLoad {ε : Type} (c : Cache α) (asked answered : Binary64) (key : String)
    (source : Except ε (Option α)) : Loaded ε α :=
  match c.get asked key with
  | (some answer, c) => ⟨.ok (some answer), false, c⟩
  | (none, c) =>
    match source with
    | .error e => ⟨.error e, true, c⟩
    | .ok answer => ⟨.ok answer, true, c.put answered key answer⟩

/-- Forgets the answer under a key, and says how many entries that removed. -/
def invalidate (c : Cache α) (key : String) : Nat × Cache α :=
  (if (c.entry? key).isSome then 1 else 0, c.erase key)

/-- Forgets everything, and says how many entries that removed. -/
def clear (c : Cache α) : Nat × Cache α := (c.size, { c with entries := [] })

/-- Removes the expired entries, and says how many. -/
def cleanupExpired (c : Cache α) (now : Binary64) : Nat × Cache α :=
  let kept := c.entries.filter fun e => !c.isExpired now e
  (c.size - kept.length, { c with entries := kept })

/-- The part of the lookups that found an answer, to three places. -/
def hitRate (c : Cache α) : Binary64 :=
  let total := c.hits + c.misses
  if total = 0 then Binary64.zero else (Binary64.ofRatio false c.hits total).roundTo 3

/-- What a cache says about itself. -/
structure Stats where
  size : Nat
  maxSize : Int
  ttl : Binary64
  hits : Nat
  misses : Nat
  hitRate : Binary64

/-- The figures of a cache. -/
def stats (c : Cache α) : Stats := ⟨c.size, c.maxSize, c.ttl, c.hits, c.misses, c.hitRate⟩

end Cache
end QueryGate
