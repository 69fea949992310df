import CacheBench.SlabManager
import CacheBench.ChainedTable

namespace CacheBench

/-!
# The cache of `cache.c`

A meta describes one stored value: its key, where the value lies in slab
memory, its size, the slab class of its slot and its age.  The cache is a hash
table of metas over a slab manager.

Two counters are not in the program.  `ticks` counts the calls of
`update_timers` and `lastAccess` keeps the count at a meta's last set or get;
no other field depends on them.
-/

/--
`meta_obj`.  `key` holds the bytes `strcpy` left in `key[32]`: the key and its
terminator, or the key alone when it takes all 32 bytes.
-/
structure Meta where
  key : List UInt8
  address : Nat
  size : Nat
  allocated : UInt8
  timer : UInt8
  slabClass : Nat
  lastAccess : Nat

namespace Meta

/--
The string that starts at `key`.  Without a NUL among the 32 bytes, reading
goes on into `address` and `size`, which follow in the struct.
-/
def storedKey (item : Meta) : CString :=
  CString.read
    (item.key ++ leBytes 8 item.address ++ leBytes 4 item.size)

end Meta

/-- Whether a meta has the given key. -/
def metaCompare (item : Meta) (key : CString) : Bool :=
  item.storedKey = key

/-- A function from keys to bucket numbers. -/
abbrev HashFunc := CString → UInt64

/-- `cache_obj`; the length of `buckets` is `num_buckets`. -/
structure Cache where
  hasher : HashFunc
  size : UInt32
  slabManager : Manager
  buckets : List (List Meta)
  maxmem : UInt64
  numValues : UInt32
  ticks : Nat

namespace Cache

/-- Number of buckets in the table. -/
def numBuckets (cache : Cache) : Nat :=
  cache.buckets.length

/-- The bucket a key hashes to. -/
def bucketOf (cache : Cache) (key : CString) : Nat :=
  (cache.hasher key).toNat % cache.numBuckets

/-- All metas, bucket by bucket. -/
def metas (cache : Cache) : List Meta :=
  cache.buckets.flatten

end Cache

/-- A byte as the program's `char`, sign-extended to 32 bits. -/
def charToUInt32 (byte : UInt8) : UInt32 :=
  if byte < 128 then byte.toUInt32 else byte.toUInt32 + 0xFFFFFF00

/-- Shift-Add-XOR hash. -/
def hash (key : CString) : UInt64 :=
  (key.bytes.foldl
    (fun (h : UInt32) byte =>
      h ^^^ ((h <<< 5) + (h >>> 2) + charToUInt32 byte))
    0).toUInt64

/-- The meta of a key, if the key is in the table. -/
def getMeta (cache : Cache) (key : CString) : Option Meta :=
  llFind metaCompare
    (ChainedTable.bucketAt cache.buckets (cache.bucketOf key)) key

/-- `create_cache`; without a hasher the cache uses `hash`. -/
def createCache
    (blocks : Nat → Slab)
    (maxmem : UInt64)
    (hasher : Option HashFunc) :
    Cache :=
  let maxmem :=
    if maxmem < UInt64.ofNat getSlabSize then
      2 * UInt64.ofNat getSlabSize
    else
      maxmem
  let maxmem :=
    if maxmem > UInt64.ofNat (2 ^ 32) then
      UInt64.ofNat (2 ^ 32)
    else
      maxmem
  { hasher := hasher.getD hash
    size := 0
    slabManager := initializeManager blocks none
    buckets := List.replicate 30 []
    maxmem := maxmem
    numValues := 0
    ticks := 0 }

/-- Allocate a new slab if the memory limit allows one more. -/
def expandCache (cache : Cache) (slabClass : Nat) : Outcome Cache :=
  if cache.maxmem - cache.size.toUInt64 > UInt64.ofNat getSlabSize then do
    let slabManager ← slabAdd cache.slabManager slabClass
    .ok { cache with
      slabManager := slabManager
      size := cache.size + UInt32.ofNat getSlabSize }
  else
    .ok cache

/--
`create_meta`.  The caller assigns `address` and `slab_class`; the terminator
of a 32-byte key is lost when it assigns `address`.
-/
def createMeta (key : CString) (valSize : Nat) : Meta where
  key := (key.bytes ++ [0]).take 32
  address := 0
  size := valSize
  allocated := 1
  timer := 0
  slabClass := 0
  lastAccess := 0

/-- Increment a meta's timer; every 8-bit value passes the test `<= 255`. -/
def tick (item : Meta) : Meta :=
  if item.timer ≤ 255 then { item with timer := item.timer + 1 } else item

/-- Increment the timer of every meta. -/
def updateTimers (cache : Cache) : Cache :=
  { cache with
    buckets := cache.buckets.map (·.map tick)
    ticks := cache.ticks + 1 }

/-- Delete a key and its value if the key is in the table. -/
def cacheDelete (cache : Cache) (key : CString) :
    Outcome (UInt8 × Cache) :=
  match getMeta cache key with
  | none =>
      .ok (255, cache)
  | some keyLoc => do
      let slabManager ← manDelete cache.slabManager keyLoc.address
      .ok (0, updateTimers
        { cache with
          slabManager := slabManager
          buckets := cache.buckets.modify (cache.bucketOf key)
            fun bucket => llDelete metaCompare bucket key
          numValues := cache.numValues - 1 })

/--
The search of `cache_evict`: the first meta of the class with the greatest
timer above 0.
-/
def findVictim (cache : Cache) (slabClass : Nat) : Option Meta :=
  (cache.metas.foldl
    (fun (maxTimer, maxMeta) current =>
      if current.timer > maxTimer ∧ slabClass = current.slabClass then
        (current.timer, some current)
      else
        (maxTimer, maxMeta))
    ((0 : UInt8), (none : Option Meta))).2

/-- Evict a value of the given class. -/
def cacheEvict (cache : Cache) (slabClass : Nat) : Outcome Cache :=
  match findVictim cache slabClass with
  | none =>
      .ok cache
  | some maxMeta => do
      let (_, cache) ← cacheDelete cache maxMeta.storedKey
      .ok cache

/-- A free address of the class, from a new slab if need be. -/
def freeSpace (cache : Cache) (slabClass : Nat) :
    Outcome (Option Nat × Cache) := do
  let (ret, slabManager) ← getAddress cache.slabManager slabClass
  let cache := { cache with slabManager := slabManager }
  match ret with
  | some address =>
      .ok (some address, cache)
  | none =>
      if cache.size.toUInt64 < cache.maxmem then do
        let cache ← expandCache cache slabClass
        let (ret, slabManager) ← getAddress cache.slabManager slabClass
        .ok (ret, { cache with slabManager := slabManager })
      else
        .ok (none, cache)

/--
The checks at the head of `cache_set`: the error code of a call that does not
go through with the set.  `val` is the memory from the value's address on; of
the cache they read the limit alone.
-/
def refusalWithin
    (maxmem : UInt64)
    (key : CString)
    (val : Nat → UInt8)
    (valSize : UInt32) :
    Option UInt8 :=
  if 32 < key.length then
    some 1
  else if getSlabSize < valSize.toNat then
    some 2
  else if valSize.toUInt64 > maxmem then
    some 3
  else if val (valSize - 1).toNat ≠ 0 then
    some 6
  else
    none

/-- The checks of `cache_set` on a cache. -/
def setRefusal
    (cache : Cache)
    (key : CString)
    (val : Nat → UInt8)
    (valSize : UInt32) :
    Option UInt8 :=
  refusalWithin cache.maxmem key val valSize

/-- `cache_set` deletes the value if the key is already in the cache. -/
def deleteOld (cache : Cache) (key : CString) : Outcome Cache :=
  match getMeta cache key with
  | none =>
      .ok cache
  | some _ => do
      let (_, cache) ← cacheDelete cache key
      .ok cache

/-- `cache_set` looks for space, and once more after an eviction. -/
def makeSpace (cache : Cache) (slabClass : Nat) :
    Outcome (Option Nat × Cache) := do
  let (address, cache) ← freeSpace cache slabClass
  match address with
  | some address =>
      .ok (some address, cache)
  | none => do
      let cache ← cacheEvict cache slabClass
      freeSpace cache slabClass

/-- `cache_set` copies the value and files its meta. -/
def storeValue
    (cache : Cache)
    (key : CString)
    (val : Nat → UInt8)
    (valSize slabClass address : Nat) :
    Outcome Cache := do
  let slabManager ← cache.slabManager.memcpy address val valSize
  let cache := updateTimers { cache with slabManager := slabManager }
  let nextMeta :=
    { createMeta key valSize with
      address := address
      slabClass := slabClass
      lastAccess := cache.ticks }
  .ok { cache with
    buckets := cache.buckets.modify (cache.bucketOf key)
      fun bucket => llAppend bucket nextMeta
    numValues := cache.numValues + 1 }

/-- Add a key and its value to the cache. -/
def cacheSet
    (cache : Cache)
    (key : CString)
    (val : Nat → UInt8)
    (valSize : UInt32) :
    Outcome (UInt8 × Cache) :=
  match setRefusal cache key val valSize with
  | some code =>
      .ok (code, cache)
  | none => do
      let cache ← deleteOld cache key
      let slabClass := getSlabClass cache.slabManager valSize.toNat
      let (address, cache) ← makeSpace cache slabClass
      match address with
      | none =>
          .ok (4, cache)
      | some address => do
          let cache ←
            storeValue cache key val valSize.toNat slabClass address
          .ok (0, cache)

/-- What `cache_get` returns, and the size it stores. -/
structure Found where
  address : Option Nat
  size : Nat
  deriving Repr, DecidableEq

/-- Retrieve the value of a key; a hit resets the key's timer. -/
def cacheGet (cache : Cache) (key : CString) :
    Outcome (Found × Cache) :=
  match getMeta cache key with
  | none =>
      .ok ({ address := none, size := 0 }, cache)
  | some keyLoc => do
      let cache :=
        { cache with
          buckets := cache.buckets.modify (cache.bucketOf key)
            fun bucket => llUpdate metaCompare bucket key fun item =>
              { item with timer := 0, lastAccess := cache.ticks } }
      let length ← cache.slabManager.strlen keyLoc.address
      if length + 1 = keyLoc.size then
        .ok ({ address := some keyLoc.address, size := keyLoc.size }, cache)
      else
        .error .assertionFailed

/-- The total size of all values in the cache. -/
def cacheSpaceUsed (cache : Cache) : UInt64 :=
  cache.metas.foldl
    (fun size item => size + UInt64.ofNat item.size) 0

end CacheBench
