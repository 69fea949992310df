import CacheBench.Cache
import CacheBench.SlabBits

namespace CacheBench

open ChainedTable

/-!
# The hash table of the cache

What the cache's functions do to the table of metas, whatever happens in slab
memory.  Each function that changes the table has one equation for the metas
and one for lookups.  `TableOk` is the representation invariant: metas whose
stored key is at most 32 bytes long, the longest key `cache_set` admits, are in
the bucket of that key and have distinct keys.  A longer stored key comes from
a 32-byte key whose terminator was lost and is never looked up as such.
-/

/-- A key that `cache_set` admits. -/
def Admitted (key : CString) : Prop :=
  key.length ≤ 32

/-- The representation invariant of the table. -/
structure TableOk (cache : Cache) : Prop where
  numBuckets : cache.numBuckets = 30
  placed : Placed Admitted Meta.storedKey cache.bucketOf cache.buckets
  unique : Unique Admitted Meta.storedKey cache.buckets

/-- Searching the bucket of a key is a lookup in the table. -/
theorem getMeta_eq_lookup
    (cache : Cache)
    (key : CString) :
    getMeta cache key =
      lookup Meta.storedKey cache.bucketOf cache.buckets key :=
  rfl

/-- Caches with one hash function and table size agree on buckets. -/
theorem bucketOf_congr
    {cache other : Cache}
    (sameHasher : other.hasher = cache.hasher)
    (sameSize : other.buckets.length = cache.buckets.length) :
    other.bucketOf = cache.bucketOf := by
  funext key
  unfold Cache.bucketOf Cache.numBuckets
  rw [sameHasher, sameSize]

/-- A found meta is in the table and has the key. -/
theorem getMeta_sound
    {cache : Cache}
    {key : CString}
    {item : Meta}
    (found : getMeta cache key = some item) :
    item ∈ cache.metas ∧ item.storedKey = key :=
  lookup_sound found

/-- Nothing is found in an empty table. -/
theorem getMeta_of_no_metas
    {cache : Cache}
    (noMetas : cache.metas = [])
    (key : CString) :
    getMeta cache key = none := by
  cases search : getMeta cache key with
  | none =>
      rfl
  | some item =>
      have member := (getMeta_sound search).1
      rw [noMetas] at member
      cases member

/-! ## The stored key -/

/-- A key shorter than the field is stored with its terminator. -/
theorem storedKey_of_lt
    {key : CString}
    (fits : key.length < 32)
    {item : Meta}
    (stored : item.key = (key.bytes ++ [0]).take 32) :
    item.storedKey = key := by
  have whole : (key.bytes ++ [0]).take 32 = key.bytes ++ [0] := by
    apply List.take_of_length_le
    unfold CString.length at fits
    simp only [List.length_append, List.length_singleton]
    omega
  rw [Meta.storedKey, stored, whole]
  simp only [List.append_assoc, List.singleton_append]
  exact key.read_append_nul _

/-- A key that fills the field is read on into the address. -/
theorem storedKey_of_eq
    {key : CString}
    (fills : key.length = 32)
    {item : Meta}
    (stored : item.key = (key.bytes ++ [0]).take 32) :
    item.storedKey.bytes =
      key.bytes ++
        (CString.read (leBytes 8 item.address ++ leBytes 4 item.size)).bytes := by
  have unterminated : (key.bytes ++ [0]).take 32 = key.bytes := by
    unfold CString.length at fills
    rw [List.take_append_of_le_length (by omega),
      List.take_of_length_le (by omega)]
  rw [Meta.storedKey, stored, unterminated, List.append_assoc]
  exact key.read_append _

/-- Without a zero byte after it, a key that fills the field is lost. -/
theorem storedKey_ne_of_eq
    {key : CString}
    (fills : key.length = 32)
    {item : Meta}
    (stored : item.key = (key.bytes ++ [0]).take 32)
    (notNul : item.address % 256 ≠ 0) :
    item.storedKey ≠ key := by
  intro same
  have bytes := storedKey_of_eq fills stored
  rw [same, List.self_eq_append_right] at bytes
  have firstByte : leByte item.address 0 ≠ 0 := by
    intro isNul
    have value := congrArg UInt8.toNat isNul
    simp only [leByte, Nat.pow_zero, Nat.div_one, UInt8.toNat_ofNat']
      at value
    exact notNul value
  simp [CString.read, leBytes, List.range_succ_eq_map, firstByte] at bytes

/-- A stored key that is still admitted is the key it was stored for. -/
theorem storedKey_eq_of_admitted
    {key : CString}
    (admitted : Admitted key)
    {item : Meta}
    (stored : item.key = (key.bytes ++ [0]).take 32)
    (stillAdmitted : Admitted item.storedKey) :
    item.storedKey = key := by
  by_cases fits : key.length < 32
  · exact storedKey_of_lt fits stored
  · have fills : key.length = 32 := by
      unfold Admitted at admitted
      omega
    have bytes := storedKey_of_eq fills stored
    apply CString.ext
    rw [bytes]
    unfold Admitted CString.length at stillAdmitted
    rw [bytes, List.length_append] at stillAdmitted
    unfold CString.length at fills
    have rest :
        (CString.read
          (leBytes 8 item.address ++ leBytes 4 item.size)).bytes = [] := by
      apply List.eq_nil_of_length_eq_zero
      omega
    rw [rest, List.append_nil]

/-! ## Timers -/

/-- A tick always increments, modulo 256. -/
theorem tick_eq
    (item : Meta) :
    tick item = { item with timer := item.timer + 1 } := by
  have bounded : item.timer ≤ 255 := by
    rw [UInt8.le_iff_toNat_le]
    have := item.timer.toNat_lt
    simp only [UInt8.reduceToNat]
    omega
  rw [tick, if_pos bounded]

@[simp] theorem tick_storedKey (item : Meta) :
    (tick item).storedKey = item.storedKey := by
  rw [tick_eq]
  rfl

@[simp] theorem tick_address (item : Meta) :
    (tick item).address = item.address := by
  rw [tick_eq]

@[simp] theorem tick_size (item : Meta) :
    (tick item).size = item.size := by
  rw [tick_eq]

@[simp] theorem tick_slabClass (item : Meta) :
    (tick item).slabClass = item.slabClass := by
  rw [tick_eq]

@[simp] theorem tick_timer (item : Meta) :
    (tick item).timer = item.timer + 1 := by
  rw [tick_eq]

@[simp] theorem tick_lastAccess (item : Meta) :
    (tick item).lastAccess = item.lastAccess := by
  rw [tick_eq]

/-- Updating the timers ticks every meta. -/
@[simp] theorem updateTimers_metas (cache : Cache) :
    (updateTimers cache).metas = cache.metas.map tick :=
  flatten_mapEntries tick cache.buckets

/-- Updating the timers keeps every meta in its bucket. -/
theorem bucketOf_updateTimers (cache : Cache) :
    (updateTimers cache).bucketOf = cache.bucketOf :=
  bucketOf_congr rfl (by simp [updateTimers])

/-- Lookups after the timers were updated. -/
theorem getMeta_updateTimers
    (cache : Cache)
    (key : CString) :
    getMeta (updateTimers cache) key = (getMeta cache key).map tick := by
  rw [getMeta_eq_lookup, bucketOf_updateTimers]
  exact lookup_mapEntries tick_storedKey cache.buckets key

theorem TableOk.updateTimers
    {cache : Cache}
    (tableOk : TableOk cache) :
    TableOk (updateTimers cache) where
  numBuckets := by
    simpa [Cache.numBuckets, CacheBench.updateTimers] using
      tableOk.numBuckets
  placed := by
    rw [bucketOf_updateTimers]
    exact tableOk.placed.mapEntries tick_storedKey
  unique := tableOk.unique.mapEntries tick_storedKey

/-! ## Lookups under the invariant -/

namespace TableOk

variable {cache : Cache} {key : CString}

theorem bucketOf_lt
    (tableOk : TableOk cache)
    (key : CString) :
    cache.bucketOf key < cache.buckets.length := by
  have size : cache.buckets.length = 30 := tableOk.numBuckets
  unfold Cache.bucketOf Cache.numBuckets
  rw [size]
  exact Nat.mod_lt _ (by decide)

/-- Lookup is membership in the table. -/
theorem getMeta_eq_some_iff
    (tableOk : TableOk cache)
    (admitted : Admitted key)
    {item : Meta} :
    getMeta cache key = some item ↔
      item ∈ cache.metas ∧ item.storedKey = key :=
  lookup_eq_some_iff tableOk.placed tableOk.unique admitted

/-- A failed lookup means that no meta has the key. -/
theorem getMeta_eq_none_iff
    (tableOk : TableOk cache)
    (admitted : Admitted key) :
    getMeta cache key = none ↔
      ∀ item ∈ cache.metas, item.storedKey ≠ key :=
  lookup_eq_none_iff tableOk.placed admitted

end TableOk

/-! ## Deleting, filing and touching one meta -/

/-- The cache `cache_delete` leaves after it freed the value. -/
def afterDelete
    (cache : Cache)
    (key : CString)
    (slabManager : Manager) :
    Cache :=
  updateTimers
    { cache with
      slabManager := slabManager
      buckets := cache.buckets.modify (cache.bucketOf key)
        fun bucket => llDelete metaCompare bucket key
      numValues := cache.numValues - 1 }

/-- The meta `cache_set` files for a value. -/
def newMeta
    (cache : Cache)
    (key : CString)
    (valSize slabClass address : Nat) :
    Meta :=
  { createMeta key valSize with
    address := address
    slabClass := slabClass
    lastAccess := cache.ticks + 1 }

/-- The cache `cache_set` leaves after it copied the value. -/
def afterStore
    (cache : Cache)
    (key : CString)
    (valSize slabClass address : Nat)
    (slabManager : Manager) :
    Cache :=
  let ticked := updateTimers { cache with slabManager := slabManager }
  { ticked with
    buckets := ticked.buckets.modify (ticked.bucketOf key)
      fun bucket =>
        llAppend bucket (newMeta cache key valSize slabClass address)
    numValues := cache.numValues + 1 }

/-- The cache `cache_get` leaves after a hit. -/
def afterGet (cache : Cache) (key : CString) : Cache :=
  { cache with
    buckets := cache.buckets.modify (cache.bucketOf key)
      fun bucket => llUpdate metaCompare bucket key fun item =>
        { item with timer := 0, lastAccess := cache.ticks } }

section Delete

variable {cache : Cache} {key : CString} {item : Meta}

/-- The two ways `cache_delete` returns. -/
theorem cacheDelete_cases
    {code : UInt8}
    {after : Cache}
    (returned : cacheDelete cache key = .ok (code, after)) :
    (getMeta cache key = none ∧ code = 255 ∧ after = cache) ∨
      ∃ item slabManager,
        getMeta cache key = some item ∧
          manDelete cache.slabManager item.address = .ok slabManager ∧
          code = 0 ∧
          after = afterDelete cache key slabManager := by
  unfold cacheDelete at returned
  cases search : getMeta cache key with
  | none =>
      simp only [search, Except.ok.injEq, Prod.mk.injEq] at returned
      exact Or.inl ⟨rfl, returned.1.symm, returned.2.symm⟩
  | some item =>
      simp only [search] at returned
      cases freed : manDelete cache.slabManager item.address with
      | error fault =>
          simp [freed, bind, Except.bind] at returned
      | ok slabManager =>
          simp only [freed, bind, Except.bind, Except.ok.injEq,
            Prod.mk.injEq] at returned
          exact Or.inr ⟨item, slabManager, rfl, freed,
            returned.1.symm, returned.2.symm⟩

/-- A key that is present is deleted as soon as its slot is freed. -/
theorem cacheDelete_eq_ok
    {slabManager : Manager}
    (found : getMeta cache key = some item)
    (freed : manDelete cache.slabManager item.address = .ok slabManager) :
    cacheDelete cache key =
      .ok (0, afterDelete cache key slabManager) := by
  simp only [cacheDelete, found, freed, bind, Except.bind]
  rfl

/-- A key that is absent is not deleted. -/
theorem cacheDelete_of_none
    (missing : getMeta cache key = none) :
    cacheDelete cache key = .ok (255, cache) := by
  simp [cacheDelete, missing]

/-- Deleting removes the found meta and ticks the others. -/
theorem afterDelete_metas
    (tableOk : TableOk cache)
    (found : getMeta cache key = some item)
    (slabManager : Manager) :
    ∃ rest,
      cache.metas.Perm (item :: rest) ∧
        (afterDelete cache key slabManager).metas = rest.map tick := by
  refine
    ⟨(erase Meta.storedKey cache.bucketOf cache.buckets key).flatten,
      erase_perm (tableOk.bucketOf_lt key) found, ?_⟩
  rw [afterDelete, updateTimers_metas]
  rfl

/-- Every meta left by a deletion is a ticked meta of before. -/
theorem mem_afterDelete
    (tableOk : TableOk cache)
    (found : getMeta cache key = some item)
    (slabManager : Manager)
    {other : Meta}
    (member : other ∈ (afterDelete cache key slabManager).metas) :
    ∃ before ∈ cache.metas, other = tick before := by
  obtain ⟨rest, perm, metas⟩ :=
    afterDelete_metas tableOk found slabManager
  rw [metas] at member
  obtain ⟨before, beforeMember, rfl⟩ := List.mem_map.mp member
  exact ⟨before,
    perm.mem_iff.mpr (List.mem_cons_of_mem item beforeMember), rfl⟩

/-- Every meta of another key is still there, ticked. -/
theorem tick_mem_afterDelete
    (tableOk : TableOk cache)
    (found : getMeta cache key = some item)
    (slabManager : Manager)
    {other : Meta}
    (member : other ∈ cache.metas)
    (otherKey : other.storedKey ≠ key) :
    tick other ∈ (afterDelete cache key slabManager).metas := by
  obtain ⟨rest, perm, metas⟩ :=
    afterDelete_metas tableOk found slabManager
  rw [metas]
  apply List.mem_map_of_mem
  rcases List.mem_cons.mp (perm.mem_iff.mp member) with isItem | inRest
  · rw [isItem] at otherKey
    exact (otherKey (getMeta_sound found).2).elim
  · exact inRest

/-- Erasing a meta leaves every key its bucket. -/
private theorem bucketOf_erased (slabManager : Manager) :
    Cache.bucketOf
      { cache with
        slabManager := slabManager
        buckets := cache.buckets.modify (cache.bucketOf key)
          fun bucket => llDelete metaCompare bucket key
        numValues := cache.numValues - 1 } =
      cache.bucketOf :=
  bucketOf_congr rfl (by simp)

theorem TableOk.afterDelete
    (tableOk : TableOk cache)
    (found : getMeta cache key = some item)
    (slabManager : Manager) :
    TableOk (afterDelete cache key slabManager) := by
  apply TableOk.updateTimers
  refine ⟨?_, ?_, ?_⟩
  · simpa [Cache.numBuckets] using tableOk.numBuckets
  · rw [bucketOf_erased]
    exact tableOk.placed.erase (tableOk.bucketOf_lt key)
  · exact tableOk.unique.erase (tableOk.bucketOf_lt key) found

/-- Lookups of other keys after a key was deleted. -/
theorem getMeta_afterDelete_of_ne
    (tableOk : TableOk cache)
    (slabManager : Manager)
    {query : CString}
    (different : query ≠ key) :
    getMeta (afterDelete cache key slabManager) query =
      (getMeta cache query).map tick := by
  rw [afterDelete, getMeta_updateTimers, getMeta_eq_lookup, bucketOf_erased]
  exact congrArg (Option.map tick)
    (lookup_erase_of_ne (tableOk.bucketOf_lt key) different)

/-- Lookups after a key was deleted. -/
theorem getMeta_afterDelete
    (tableOk : TableOk cache)
    (found : getMeta cache key = some item)
    (slabManager : Manager)
    {query : CString}
    (admitted : Admitted query) :
    getMeta (afterDelete cache key slabManager) query =
      if query = key then none else (getMeta cache query).map tick := by
  obtain ⟨rest, perm, metas⟩ :=
    afterDelete_metas tableOk found slabManager
  have afterOk := tableOk.afterDelete found slabManager
  have itemKey := (getMeta_sound found).2
  by_cases same : query = key
  · subst query
    rw [if_pos rfl, afterOk.getMeta_eq_none_iff admitted]
    intro candidate member sameKey
    rw [metas, List.mem_map] at member
    obtain ⟨old, oldMember, rfl⟩ := member
    rw [tick_storedKey] at sameKey
    have atMostOnce : (cache.metas.map Meta.storedKey).count key ≤ 1 :=
      tableOk.unique key admitted
    rw [(perm.map Meta.storedKey).count_eq, List.map_cons, itemKey,
      List.count_cons_self] at atMostOnce
    have occurs : 0 < (rest.map Meta.storedKey).count key := by
      rw [List.count_pos_iff, ← sameKey]
      exact List.mem_map_of_mem oldMember
    omega
  · rw [if_neg same]
    exact getMeta_afterDelete_of_ne tableOk slabManager same

end Delete

section Store

variable {cache : Cache} {key : CString} {valSize slabClass address : Nat}

/-- Storing copies the value and files its meta. -/
theorem storeValue_eq
    (cache : Cache)
    (key : CString)
    (val : Nat → UInt8)
    (valSize slabClass address : Nat) :
    storeValue cache key val valSize slabClass address =
      (cache.slabManager.memcpy address val valSize).map
        (afterStore cache key valSize slabClass address) := by
  unfold storeValue
  cases cache.slabManager.memcpy address val valSize <;> rfl

/-- Storing that returned has copied the value. -/
theorem storeValue_cases
    {after : Cache}
    {val : Nat → UInt8}
    (returned :
      storeValue cache key val valSize slabClass address = .ok after) :
    ∃ slabManager,
      cache.slabManager.memcpy address val valSize = .ok slabManager ∧
        after =
          afterStore cache key valSize slabClass address slabManager := by
  rw [storeValue_eq] at returned
  cases copied : cache.slabManager.memcpy address val valSize with
  | error fault =>
      rw [copied] at returned
      cases returned
  | ok slabManager =>
      rw [copied] at returned
      cases returned
      exact ⟨slabManager, rfl, rfl⟩

/-- The table `cache_set` files its meta in. -/
private theorem TableOk.ticked
    (tableOk : TableOk cache)
    (slabManager : Manager) :
    TableOk
      (CacheBench.updateTimers { cache with slabManager := slabManager }) :=
  TableOk.updateTimers ⟨tableOk.numBuckets, tableOk.placed, tableOk.unique⟩

/-- Filing adds the new meta and ticks the others. -/
theorem afterStore_metas
    (tableOk : TableOk cache)
    (slabManager : Manager) :
    (afterStore cache key valSize slabClass address slabManager).metas.Perm
      (newMeta cache key valSize slabClass address ::
        cache.metas.map tick) := by
  have ticked := tableOk.ticked slabManager
  have filed :=
    insert_perm (ticked.bucketOf_lt key)
      (newMeta cache key valSize slabClass address)
  have others :
      (updateTimers
        { cache with slabManager := slabManager }).buckets.flatten =
        cache.metas.map tick :=
    updateTimers_metas _
  rw [others] at filed
  exact filed

/-- Every meta after a store is the new one or a ticked one of before. -/
theorem mem_afterStore
    (tableOk : TableOk cache)
    {slabManager : Manager}
    {other : Meta}
    (member :
      other ∈
        (afterStore cache key valSize slabClass address
          slabManager).metas) :
    other = newMeta cache key valSize slabClass address ∨
      ∃ before ∈ cache.metas, other = tick before := by
  have perm :
      (afterStore cache key valSize slabClass address
        slabManager).metas.Perm
        (newMeta cache key valSize slabClass address ::
          cache.metas.map tick) :=
    afterStore_metas tableOk slabManager
  rcases List.mem_cons.mp (perm.mem_iff.mp member) with isNew | isOld
  · exact Or.inl isNew
  · obtain ⟨before, beforeMember, rfl⟩ := List.mem_map.mp isOld
    exact Or.inr ⟨before, beforeMember, rfl⟩

/-- The new meta is in the table. -/
theorem newMeta_mem_afterStore
    (tableOk : TableOk cache)
    (slabManager : Manager) :
    newMeta cache key valSize slabClass address ∈
      (afterStore cache key valSize slabClass address
        slabManager).metas :=
  (afterStore_metas tableOk slabManager).mem_iff.mpr (by simp)

/-- The key bytes of the new meta. -/
theorem newMeta_key :
    (newMeta cache key valSize slabClass address).key =
      (key.bytes ++ [0]).take 32 :=
  rfl

/-- Filing a meta leaves every key its bucket. -/
private theorem bucketOf_afterStore (slabManager : Manager) :
    (afterStore cache key valSize slabClass address slabManager).bucketOf =
      (updateTimers { cache with slabManager := slabManager }).bucketOf :=
  bucketOf_congr rfl (by simp [afterStore])

theorem TableOk.afterStore
    (tableOk : TableOk cache)
    (admitted : Admitted key)
    (missing : getMeta cache key = none)
    (slabManager : Manager) :
    TableOk
      (afterStore cache key valSize slabClass address slabManager) := by
  have ticked := tableOk.ticked slabManager
  have ownKey :
      Admitted (newMeta cache key valSize slabClass address).storedKey →
        (newMeta cache key valSize slabClass address).storedKey = key :=
    storedKey_eq_of_admitted admitted newMeta_key
  refine ⟨?_, ?_, ?_⟩
  · simpa [Cache.numBuckets, CacheBench.afterStore] using
      ticked.numBuckets
  · rw [bucketOf_afterStore]
    exact ticked.placed.insert (ticked.bucketOf_lt key) ownKey
  · refine ticked.unique.insert (ticked.bucketOf_lt key) ?_
    intro stillAdmitted other member
    rw [ownKey stillAdmitted]
    have tickedMissing :
        getMeta (CacheBench.updateTimers
          { cache with slabManager := slabManager }) key = none := by
      rw [getMeta_updateTimers]
      have same :
          getMeta { cache with slabManager := slabManager } key =
            getMeta cache key := rfl
      rw [same, missing]
      rfl
    exact (ticked.getMeta_eq_none_iff admitted).mp
      tickedMissing other member

/-- A key that was found before a value was stored is found after it. -/
theorem getMeta_afterStore_of_some
    (tableOk : TableOk cache)
    {query : CString}
    {item : Meta}
    (found : getMeta cache query = some item)
    (slabManager : Manager) :
    getMeta (afterStore cache key valSize slabClass address slabManager)
        query =
      some (tick item) := by
  have ticked := tableOk.ticked slabManager
  have tickedFound :
      getMeta (updateTimers { cache with slabManager := slabManager })
          query =
        some (tick item) := by
    rw [getMeta_updateTimers]
    exact congrArg (Option.map tick) found
  rw [getMeta_eq_lookup, bucketOf_afterStore]
  exact lookup_insert_of_some (ticked.bucketOf_lt key) _ tickedFound

/-- Lookups after a value was stored. -/
theorem getMeta_afterStore
    (tableOk : TableOk cache)
    (admitted : Admitted key)
    (missing : getMeta cache key = none)
    (slabManager : Manager)
    {query : CString}
    (queryAdmitted : Admitted query) :
    getMeta
        (afterStore cache key valSize slabClass address slabManager)
        query =
      if (newMeta cache key valSize slabClass address).storedKey =
          query then
        some (newMeta cache key valSize slabClass address)
      else
        (getMeta cache query).map tick := by
  have afterOk :
      TableOk
        (afterStore cache key valSize slabClass address slabManager) :=
    tableOk.afterStore admitted missing slabManager
  have perm :
      (afterStore cache key valSize slabClass address
        slabManager).metas.Perm
        (newMeta cache key valSize slabClass address ::
          cache.metas.map tick) :=
    afterStore_metas tableOk slabManager
  by_cases own :
      (newMeta cache key valSize slabClass address).storedKey = query
  · rw [if_pos own, afterOk.getMeta_eq_some_iff queryAdmitted]
    exact ⟨perm.mem_iff.mpr (by simp), own⟩
  · rw [if_neg own]
    cases search : getMeta cache query with
    | none =>
        rw [Option.map_none, afterOk.getMeta_eq_none_iff queryAdmitted]
        rw [tableOk.getMeta_eq_none_iff queryAdmitted] at search
        intro candidate member
        rcases List.mem_cons.mp (perm.mem_iff.mp member) with
            isNew | isOld
        · subst candidate
          exact own
        · obtain ⟨old, oldMember, rfl⟩ := List.mem_map.mp isOld
          rw [tick_storedKey]
          exact search old oldMember
    | some other =>
        exact getMeta_afterStore_of_some tableOk search slabManager

end Store

section Get

variable {cache : Cache} {key : CString} {item : Meta}

/-- A meta whose timer a get has reset. -/
def touch (cache : Cache) (item : Meta) : Meta :=
  { item with timer := 0, lastAccess := cache.ticks }

/-- A miss returns NULL and changes nothing. -/
theorem cacheGet_of_none
    (missing : getMeta cache key = none) :
    cacheGet cache key = .ok ({ address := none, size := 0 }, cache) := by
  simp [cacheGet, missing]

/-- The ways `cache_get` returns. -/
theorem cacheGet_cases
    {found : Found}
    {after : Cache}
    (returned : cacheGet cache key = .ok (found, after)) :
    (getMeta cache key = none ∧
      found = { address := none, size := 0 } ∧ after = cache) ∨
      ∃ item,
        getMeta cache key = some item ∧
          found = { address := some item.address, size := item.size } ∧
          after = afterGet cache key := by
  unfold cacheGet at returned
  cases search : getMeta cache key with
  | none =>
      simp only [search, Except.ok.injEq, Prod.mk.injEq] at returned
      exact Or.inl ⟨rfl, returned.1.symm, returned.2.symm⟩
  | some item =>
      simp only [search] at returned
      cases measured : cache.slabManager.strlen item.address with
      | error fault =>
          simp [measured, bind, Except.bind] at returned
      | ok length =>
          simp only [measured, bind, Except.bind] at returned
          by_cases matching : length + 1 = item.size
          · simp only [matching, ↓reduceIte, Except.ok.injEq,
              Prod.mk.injEq] at returned
            exact Or.inr ⟨item, rfl, returned.1.symm, returned.2.symm⟩
          · simp [matching] at returned

/-- The size `cache_get` reports is one more than the length of the string. -/
theorem strlen_of_cacheGet
    {address size : Nat}
    {after : Cache}
    (returned :
      cacheGet cache key =
        .ok ({ address := some address, size := size }, after)) :
    ∃ length,
      after.slabManager.strlen address = .ok length ∧
        length + 1 = size := by
  unfold cacheGet at returned
  cases search : getMeta cache key with
  | none =>
      simp [search] at returned
  | some item =>
      simp only [search] at returned
      cases measured : cache.slabManager.strlen item.address with
      | error fault =>
          simp [measured, bind, Except.bind] at returned
      | ok length =>
          simp only [measured, bind, Except.bind] at returned
          by_cases matching : length + 1 = item.size
          · simp only [matching, ↓reduceIte, Except.ok.injEq,
              Prod.mk.injEq, Found.mk.injEq, Option.some.injEq] at returned
            obtain ⟨⟨rfl, rfl⟩, rfl⟩ := returned
            exact ⟨length, measured, matching⟩
          · simp [matching] at returned

/-- A get that hits touches exactly the found meta. -/
theorem afterGet_metas
    (tableOk : TableOk cache)
    (found : getMeta cache key = some item) :
    ∃ rest,
      cache.metas.Perm (item :: rest) ∧
        (afterGet cache key).metas.Perm (touch cache item :: rest) :=
  update_perm (tableOk.bucketOf_lt key) found (touch cache)

/-- Every meta after a get is the touched one or one of before. -/
theorem mem_afterGet
    (tableOk : TableOk cache)
    (found : getMeta cache key = some item)
    {other : Meta}
    (member : other ∈ (afterGet cache key).metas) :
    other = touch cache item ∨ other ∈ cache.metas := by
  obtain ⟨rest, oldPerm, newPerm⟩ := afterGet_metas tableOk found
  rcases List.mem_cons.mp (newPerm.mem_iff.mp member) with
      isTouched | inRest
  · exact Or.inl isTouched
  · exact Or.inr
      (oldPerm.mem_iff.mpr (List.mem_cons_of_mem item inRest))

theorem TableOk.afterGet
    (tableOk : TableOk cache)
    (found : getMeta cache key = some item) :
    TableOk (afterGet cache key) := by
  have sameBuckets :
      (CacheBench.afterGet cache key).bucketOf = cache.bucketOf :=
    bucketOf_congr rfl (by simp [CacheBench.afterGet])
  refine ⟨?_, ?_, ?_⟩
  · simpa [Cache.numBuckets, CacheBench.afterGet] using
      tableOk.numBuckets
  · rw [sameBuckets]
    exact tableOk.placed.update (tableOk.bucketOf_lt key)
      (fun _ => rfl)
  · exact tableOk.unique.update (tableOk.bucketOf_lt key) found
      (fun _ => rfl)

/-- Lookups after a get that hit. -/
theorem getMeta_afterGet
    (tableOk : TableOk cache)
    (found : getMeta cache key = some item)
    {query : CString}
    (admitted : Admitted query) :
    getMeta (afterGet cache key) query =
      if query = key then
        some (touch cache item)
      else
        getMeta cache query := by
  obtain ⟨rest, oldPerm, newPerm⟩ := afterGet_metas tableOk found
  have afterOk := tableOk.afterGet found
  have itemKey := (getMeta_sound found).2
  by_cases same : query = key
  · subst query
    rw [if_pos rfl, afterOk.getMeta_eq_some_iff admitted]
    exact ⟨newPerm.mem_iff.mpr (by simp), itemKey⟩
  · rw [if_neg same]
    cases search : getMeta cache query with
    | none =>
        rw [afterOk.getMeta_eq_none_iff admitted]
        rw [tableOk.getMeta_eq_none_iff admitted] at search
        intro candidate member
        rcases List.mem_cons.mp (newPerm.mem_iff.mp member) with
            isItem | inRest
        · subst candidate
          intro sameKey
          exact same (sameKey.symm.trans itemKey)
        · exact search candidate
            (oldPerm.mem_iff.mpr (by simp [inRest]))
    | some other =>
        obtain ⟨member, otherKey⟩ := getMeta_sound search
        rw [afterOk.getMeta_eq_some_iff admitted]
        refine ⟨?_, otherKey⟩
        rcases List.mem_cons.mp (oldPerm.mem_iff.mp member) with
            isItem | inRest
        · subst other
          exact (same (otherKey.symm.trans itemKey)).elim
        · exact newPerm.mem_iff.mpr (by simp [inRest])

end Get

end CacheBench
