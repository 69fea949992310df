import CacheBench.CacheRun
import CacheBench.SlabGrants

namespace CacheBench

open Manager

/-!
# The cache and its slots

`CacheOk` joins the table to the slab manager: the metas hold the grants that
are out, every value fits its slot, and the memory limit is kept.  A grant that
is pending has been reserved for a value that is not in the table yet.  The
module specifies each stage of the cache's functions on such states; none of
them faults.
-/

/-- The class `get_slab_class` selects from the default table. -/
def classOf (size : Nat) : Nat :=
  getSlabClassFrom size 0 defaultClasses

theorem isClass_classOf (size : Nat) : IsClass (classOf size) :=
  defaultTable.select_mem size

/-- Values of up to 2^20 bytes fit the class selected for them. -/
theorem le_classOf
    {size : Nat}
    (bounded : size ≤ memorySize) :
    size ≤ classOf size := by
  rw [← defaultTable_largest] at bounded
  exact defaultTable.le_select bounded

theorem Manager.WellFormed.getSlabClass_eq
    {man : Manager}
    (wellFormed : man.WellFormed)
    (size : Nat) :
    getSlabClass man size = classOf size := by
  rw [getSlabClass, wellFormed.classes, classOf]

/-- The grant a meta holds. -/
def Meta.grant (item : Meta) : Grant where
  address := item.address
  slabClass := item.slabClass

@[simp] theorem tick_grant (item : Meta) :
    (tick item).grant = item.grant := by
  simp [Meta.grant]

/-- The memory limit: the size is the slabs' and is below the maximum. -/
structure Limits (cache : Cache) : Prop where
  slab_le_maxmem : getSlabSize ≤ cache.maxmem.toNat
  maxmem_le : cache.maxmem.toNat ≤ 2 ^ 32
  numSlabs :
    cache.slabManager.numSlabs.toNat = cache.slabManager.slabs.length
  size_eq :
    cache.size.toNat = cache.slabManager.slabs.length * getSlabSize
  size_le : cache.size.toNat ≤ cache.maxmem.toNat

/-- The invariant of the cache, with the grants that are pending. -/
structure CacheOk (pending : List Grant) (cache : Cache) : Prop where
  table : TableOk cache
  granted :
    cache.slabManager.Granted (pending ++ cache.metas.map Meta.grant)
  selected : ∀ item ∈ cache.metas, item.slabClass = classOf item.size
  fits : ∀ item ∈ cache.metas, item.size ≤ item.slabClass
  limits : Limits cache

/-- The limit leaves room for one more slab. -/
def Cache.CanGrow (cache : Cache) : Prop :=
  cache.slabManager.slabs.length * getSlabSize + getSlabSize <
    cache.maxmem.toNat

instance (cache : Cache) : Decidable cache.CanGrow :=
  inferInstanceAs (Decidable (_ < _))

/--
A block that still has a free slot after `allocate_slab` prepared it.  Classes
of 65536 bytes and more have fewer slots than a status word has bits, and
`allocate_slab` leaves the bits of those slots as `malloc` returned them.
-/
def Usable (block : Slab) (slabClass : Nat) : Prop :=
  ∃ item < capacity slabClass, freshBit block slabClass item = false

/-! ## Values -/

section Values

variable {cache after : Cache}

/-- A value reads the same where the bytes of its slot are the same. -/
theorem valueOf_eq
    (ok : CacheOk pending cache)
    (same :
      SameBytes cache.slabManager after.slabManager
        (cache.metas.map Meta.grant))
    {item other : Meta}
    (member : item ∈ cache.metas)
    (sameAddress : other.address = item.address)
    (sameSize : other.size = item.size) :
    after.valueOf other = cache.valueOf item := by
  rw [Cache.valueOf, Cache.valueOf, sameAddress, sameSize]
  exact same.bytesFrom_eq (List.mem_map_of_mem member)
    (ok.fits item member)

/-- Lookups that keep address and size keep the contents. -/
theorem contents_eq
    (ok : CacheOk pending cache)
    (same :
      SameBytes cache.slabManager after.slabManager
        (cache.metas.map Meta.grant))
    {query : CString}
    {change : Meta → Meta}
    (sameAddress : ∀ item, (change item).address = item.address)
    (sameSize : ∀ item, (change item).size = item.size)
    (lookup :
      getMeta after query = (getMeta cache query).map change) :
    after.contents query = cache.contents query := by
  rw [Cache.contents, Cache.contents, lookup]
  cases search : getMeta cache query with
  | none =>
      rfl
  | some item =>
      simp only [Option.map_some]
      rw [valueOf_eq ok same (getMeta_sound search).1 (sameAddress item)
        (sameSize item)]

end Values

/-! ## Deleting -/

/-- What deleting a present key does to the slabs. -/
structure Freed
    (cache : Cache)
    (item : Meta)
    (slabManager : Manager) : Prop where
  store : SameStore cache.slabManager slabManager
  bytes :
    SameBytes cache.slabManager slabManager
      (cache.metas.map Meta.grant)
  notExhausted : ¬ slabManager.Exhausted item.slabClass
  otherClasses :
    ∀ other, other ≠ item.slabClass →
      (slabManager.Exhausted other ↔
        cache.slabManager.Exhausted other)

section Delete

variable {cache : Cache} {key : CString} {item : Meta}

/-- Deleting a present key succeeds and keeps the invariant. -/
theorem CacheOk.cacheDelete
    (ok : CacheOk [] cache)
    (found : getMeta cache key = some item) :
    ∃ slabManager,
      cacheDelete cache key =
          .ok (0, afterDelete cache key slabManager) ∧
        CacheOk [] (afterDelete cache key slabManager) ∧
        Freed cache item slabManager := by
  obtain ⟨rest, perm, -⟩ :=
    afterDelete_metas ok.table found cache.slabManager
  have split :
      cache.slabManager.Granted (item.grant :: rest.map Meta.grant) :=
    ok.granted.perm (perm.map Meta.grant)
  obtain ⟨slabManager, freed, store, granted, notExhausted, otherClasses⟩ :=
    split.manDelete
  obtain ⟨others, othersPerm, metas⟩ :=
    afterDelete_metas ok.table found slabManager
  have sameRest : others.Perm rest :=
    (List.perm_cons item).mp (othersPerm.symm.trans perm)
  refine ⟨slabManager, cacheDelete_eq_ok found freed,
    ⟨ok.table.afterDelete found slabManager, ?_, ?_, ?_, ?_⟩,
    ⟨store, store.sameBytes ok.granted granted.wellFormed,
      notExhausted, otherClasses⟩⟩
  · rw [metas, List.map_map]
    have sameGrants :
        (fun candidate : Meta => (tick candidate).grant) = Meta.grant := by
      funext candidate
      exact tick_grant candidate
    have grants :
        others.map (Meta.grant ∘ tick) = others.map Meta.grant :=
      congrArg (others.map ·) sameGrants
    rw [grants]
    exact granted.perm (sameRest.map Meta.grant).symm
  · intro other member
    obtain ⟨before, beforeMember, rfl⟩ :=
      mem_afterDelete ok.table found slabManager member
    simpa using ok.selected before beforeMember
  · intro other member
    obtain ⟨before, beforeMember, rfl⟩ :=
      mem_afterDelete ok.table found slabManager member
    simpa using ok.fits before beforeMember
  · have sameSlabs := store.length
    exact ⟨ok.limits.slab_le_maxmem, ok.limits.maxmem_le,
      (congrArg UInt32.toNat store.numSlabs).trans
        (ok.limits.numSlabs.trans sameSlabs.symm),
      ok.limits.size_eq.trans (by
        rw [← sameSlabs]
        rfl),
      ok.limits.size_le⟩

/-- The contents after a deletion. -/
theorem contents_afterDelete
    (ok : CacheOk [] cache)
    (found : getMeta cache key = some item)
    {slabManager : Manager}
    (freed : Freed cache item slabManager)
    {query : CString}
    (admitted : Admitted query) :
    (afterDelete cache key slabManager).contents query =
      if query = key then none else cache.contents query := by
  have lookup := getMeta_afterDelete ok.table found slabManager admitted
  by_cases same : query = key
  · rw [if_pos same] at lookup ⊢
    rw [Cache.contents, lookup]
    rfl
  · rw [if_neg same] at lookup ⊢
    exact contents_eq ok freed.bytes tick_address tick_size lookup

end Delete

/-! ## Looking for space -/

/-- What `free_space` does for a class. -/
structure Searched
    (cache : Cache)
    (slabClass : Nat)
    (result : Option Nat)
    (after : Cache) : Prop where
  same : SameTable cache after
  ok : CacheOk (result.map (Grant.mk · slabClass)).toList after
  bytes :
    SameBytes cache.slabManager after.slabManager
      (cache.metas.map Meta.grant)
  blocks : after.slabManager.blocks = cache.slabManager.blocks
  none_iff :
    result = none ↔
      cache.slabManager.Exhausted slabClass ∧
        (cache.CanGrow →
          ¬ Usable
            (cache.slabManager.blocks cache.slabManager.slabs.length)
            slabClass)
  exhausted :
    result = none →
      after.slabManager.Exhausted slabClass ∧
        after.slabManager.slabs.length =
          cache.slabManager.slabs.length +
            if cache.CanGrow then 1 else 0

section Search

variable {cache : Cache} {slabClass : Nat}

/-- The invariant with the slab manager and the size replaced. -/
private theorem CacheOk.withManager
    {pending : List Grant}
    (ok : CacheOk [] cache)
    {slabManager : Manager}
    {size : UInt32}
    (granted :
      slabManager.Granted (pending ++ cache.metas.map Meta.grant))
    (numSlabs : slabManager.numSlabs.toNat = slabManager.slabs.length)
    (size_eq : size.toNat = slabManager.slabs.length * getSlabSize)
    (size_le : size.toNat ≤ cache.maxmem.toNat) :
    CacheOk pending
      { cache with slabManager := slabManager, size := size } where
  table := ⟨ok.table.numBuckets, ok.table.placed, ok.table.unique⟩
  granted := granted
  selected := ok.selected
  fits := ok.fits
  limits := ⟨ok.limits.slab_le_maxmem, ok.limits.maxmem_le, numSlabs,
    size_eq, size_le⟩

/-- A class with a new slab is exhausted when the new slab has no free slot. -/
private theorem exhausted_extended_iff
    {man after : Manager}
    (extended : Extended man slabClass after)
    (isClass : IsClass slabClass)
    (allUsed : man.Exhausted slabClass) :
    after.Exhausted slabClass ↔
      ¬ Usable (man.blocks man.slabs.length) slabClass := by
  have newClass :
      after.classAt man.slabs.length = some slabClass := by
    rw [extended.classAt, if_pos rfl]
  constructor
  · rintro afterUsed ⟨item, inCapacity, isFree⟩
    have inBounds : item < statusBits :=
      Nat.lt_of_lt_of_le inCapacity
        (capacity_le_statusBits isClass.smallest)
    have isUsed := afterUsed newClass inBounds
    rw [extended.used _ _ inBounds, if_pos rfl, isFree] at isUsed
    exact Bool.noConfusion isUsed
  · intro notUsable number hasClass item inBounds
    rw [extended.used _ _ inBounds]
    by_cases isNew : number = man.slabs.length
    · subst number
      rw [if_pos rfl]
      by_cases inCapacity : item < capacity slabClass
      · by_contra isFree
        exact notUsable
          ⟨item, inCapacity, Bool.not_eq_true _ ▸ isFree⟩
      · rw [freshBit, if_neg (by omega), if_neg inCapacity]
    · rw [extended.classAt, if_neg isNew] at hasClass
      rw [if_neg isNew]
      exact allUsed hasClass inBounds

/-- The growth test of `expand_cache` is the room for one more slab. -/
theorem expandTest_iff
    (limits : Limits cache) :
    cache.maxmem - cache.size.toUInt64 > UInt64.ofNat getSlabSize ↔
      cache.CanGrow := by
  have sizeFits : cache.size.toUInt64 ≤ cache.maxmem := by
    rw [UInt64.le_iff_toNat_le]
    exact limits.size_le
  have size_eq := limits.size_eq
  have size_le := limits.size_le
  rw [gt_iff_lt, UInt64.lt_iff_toNat_lt, UInt64.toNat_sub_of_le _ _ sizeFits,
    UInt32.toNat_toUInt64, Cache.CanGrow,
    show (UInt64.ofNat getSlabSize).toNat = getSlabSize by decide]
  omega

/-- A slab that can be added keeps the size within the limit. -/
private theorem grown_size
    (limits : Limits cache)
    (canGrow : cache.CanGrow) :
    (cache.size + UInt32.ofNat getSlabSize).toNat =
      (cache.slabManager.slabs.length + 1) * getSlabSize := by
  have size_eq := limits.size_eq
  have bound := limits.maxmem_le
  unfold Cache.CanGrow at canGrow
  rw [UInt32.toNat_add,
    show (UInt32.ofNat getSlabSize).toNat = getSlabSize by decide,
    Nat.mod_eq_of_lt (by omega), Nat.add_mul, size_eq]
  omega

/-- The number of slabs stays far below its 32-bit limit. -/
private theorem grown_numSlabs
    (limits : Limits cache)
    (canGrow : cache.CanGrow) :
    (cache.slabManager.numSlabs + 1).toNat =
      cache.slabManager.slabs.length + 1 := by
  have numSlabs := limits.numSlabs
  have bound := limits.maxmem_le
  have slabSize : getSlabSize = 1050632 := by
    decide
  unfold Cache.CanGrow at canGrow
  rw [slabSize] at canGrow
  rw [UInt32.toNat_add, show (1 : UInt32).toNat = 1 by decide,
    Nat.mod_eq_of_lt (by omega), numSlabs]

/-- What one call of `get_address` does to the cache. -/
structure Probed
    (cache : Cache)
    (slabClass : Nat)
    (result : Option Nat)
    (after : Cache) : Prop where
  same : SameTable cache after
  ok : CacheOk (result.map (Grant.mk · slabClass)).toList after
  bytes :
    SameBytes cache.slabManager after.slabManager
      (cache.metas.map Meta.grant)
  blocks : after.slabManager.blocks = cache.slabManager.blocks
  length :
    after.slabManager.slabs.length = cache.slabManager.slabs.length
  none_iff : result = none ↔ cache.slabManager.Exhausted slabClass
  exhausted : result = none → after.slabManager.Exhausted slabClass

/-- `get_address` succeeds for the class of a slab. -/
theorem CacheOk.probe
    (ok : CacheOk [] cache)
    (isClass : IsClass slabClass) :
    ∃ result slabManager,
      getAddress cache.slabManager slabClass = .ok (result, slabManager) ∧
        Probed cache slabClass result
          { cache with slabManager := slabManager } := by
  have limits := ok.limits
  have wellFormed := ok.granted.wellFormed
  have selects : getSlabClass cache.slabManager slabClass = slabClass := by
    rw [wellFormed.getSlabClass_eq]
    exact defaultTable.select_of_mem isClass
  obtain ⟨result, searched, returned, store, reservation, granted⟩ :=
    ok.granted.getAddress selects
  have numSlabs : searched.numSlabs.toNat = searched.slabs.length :=
    (congrArg UInt32.toNat store.numSlabs).trans
      (limits.numSlabs.trans store.length.symm)
  have size_eq :
      cache.size.toNat = searched.slabs.length * getSlabSize := by
    rw [store.length]
    exact limits.size_eq
  exact ⟨result, searched, returned, ⟨rfl, rfl, rfl, rfl, rfl⟩,
    ok.withManager granted numSlabs size_eq limits.size_le,
    store.sameBytes ok.granted granted.wellFormed, store.blocks,
    store.length, reservation.none_iff wellFormed,
    reservation.exhausted_after store⟩

/-- What `expand_cache` does for a class that has no free slot. -/
structure Expanded
    (cache : Cache)
    (slabClass : Nat)
    (after : Cache) : Prop where
  same : SameTable cache after
  ok : CacheOk [] after
  bytes :
    SameBytes cache.slabManager after.slabManager
      (cache.metas.map Meta.grant)
  blocks : after.slabManager.blocks = cache.slabManager.blocks
  length :
    after.slabManager.slabs.length =
      cache.slabManager.slabs.length + if cache.CanGrow then 1 else 0
  exhausted_iff :
    after.slabManager.Exhausted slabClass ↔
      (cache.CanGrow →
        ¬ Usable
          (cache.slabManager.blocks cache.slabManager.slabs.length)
          slabClass)

/-- `expand_cache` adds a slab exactly when there is room for one. -/
private theorem CacheOk.expandCache
    (ok : CacheOk [] cache)
    (isClass : IsClass slabClass)
    (exhausted : cache.slabManager.Exhausted slabClass) :
    ∃ after,
      expandCache cache slabClass = .ok after ∧
        Expanded cache slabClass after := by
  have limits := ok.limits
  have growth := expandTest_iff limits
  by_cases canGrow : cache.CanGrow
  · obtain ⟨grown, added, extended, granted, bytes⟩ :=
      ok.granted.slabAdd isClass
    refine ⟨{ cache with
        slabManager := grown
        size := cache.size + UInt32.ofNat getSlabSize },
      ?_, ⟨rfl, rfl, rfl, rfl, rfl⟩, ok.withManager granted ?_ ?_ ?_,
      bytes, extended.blocks, ?_, ?_⟩
    · rw [CacheBench.expandCache, if_pos (growth.mpr canGrow), added]
      rfl
    · rw [extended.numSlabs, extended.length]
      exact grown_numSlabs limits canGrow
    · rw [extended.length]
      exact grown_size limits canGrow
    · rw [grown_size limits canGrow, Nat.add_mul, Nat.one_mul]
      exact Nat.le_of_lt canGrow
    · rw [if_pos canGrow]
      exact extended.length
    · rw [exhausted_extended_iff extended isClass exhausted]
      simp [canGrow]
  · refine ⟨cache, ?_, ⟨rfl, rfl, rfl, rfl, rfl⟩, ok,
      fun _ _ _ _ => rfl, rfl, ?_, ?_⟩
    · rw [CacheBench.expandCache,
        if_neg (fun grows => canGrow (growth.mp grows))]
    · rw [if_neg canGrow, Nat.add_zero]
    · simp [canGrow, exhausted]

/-- A cache at its limit cannot grow. -/
theorem not_canGrow_of_not_lt
    (limits : Limits cache)
    (atLimit : ¬ cache.size.toUInt64 < cache.maxmem) :
    ¬ cache.CanGrow := by
  rw [UInt64.lt_iff_toNat_lt, UInt32.toNat_toUInt64] at atLimit
  have size_eq := limits.size_eq
  intro canGrow
  unfold Cache.CanGrow at canGrow
  omega

/-- `free_space` succeeds, and says so exactly when there is a free slot. -/
theorem CacheOk.freeSpace
    (ok : CacheOk [] cache)
    (isClass : IsClass slabClass) :
    ∃ result after,
      freeSpace cache slabClass = .ok (result, after) ∧
        Searched cache slabClass result after := by
  obtain ⟨first, searched, returned, probed⟩ := ok.probe isClass
  cases first with
  | some address =>
      have notExhausted : ¬ cache.slabManager.Exhausted slabClass := by
        rw [← probed.none_iff]
        simp
      refine ⟨some address, { cache with slabManager := searched }, ?_,
        probed.same, probed.ok, probed.bytes, probed.blocks, ?_, ?_⟩
      · simp [CacheBench.freeSpace, returned, bind, Except.bind]
      · simp [notExhausted]
      · simp
  | none =>
      have exhausted : cache.slabManager.Exhausted slabClass :=
        probed.none_iff.mp rfl
      have sameGrowth :
          Cache.CanGrow { cache with slabManager := searched } ↔
            cache.CanGrow := by
        simp only [Cache.CanGrow, probed.length]
      by_cases below : cache.size.toUInt64 < cache.maxmem
      · obtain ⟨grown, expansion, expanded⟩ :=
          probed.ok.expandCache isClass (probed.exhausted rfl)
        obtain ⟨second, final, again, last⟩ := expanded.ok.probe isClass
        have searchedBlocks :
            searched.blocks = cache.slabManager.blocks :=
          probed.blocks
        have grownLength := expanded.length
        have grownExhausted := expanded.exhausted_iff
        simp only [sameGrowth, probed.length, searchedBlocks]
          at grownLength grownExhausted
        have lastBytes := last.bytes
        rw [expanded.same.metas] at lastBytes
        refine ⟨second, { grown with slabManager := final }, ?_,
          (probed.same.trans expanded.same).trans last.same, last.ok,
          (probed.bytes.trans expanded.bytes).trans lastBytes,
          last.blocks.trans (expanded.blocks.trans probed.blocks), ?_, ?_⟩
        · simp [CacheBench.freeSpace, returned, bind, Except.bind, below,
            expansion, again]
        · rw [last.none_iff, grownExhausted]
          simp [exhausted]
        · intro isNone
          exact ⟨last.exhausted isNone, last.length.trans grownLength⟩
      · have canGrow := not_canGrow_of_not_lt ok.limits below
        refine ⟨none, { cache with slabManager := searched }, ?_,
          probed.same, probed.ok, probed.bytes, probed.blocks, ?_, ?_⟩
        · simp [CacheBench.freeSpace, returned, bind, Except.bind, below]
        · simp [exhausted, canGrow]
        · intro _
          rw [if_neg canGrow]
          exact ⟨probed.exhausted rfl, probed.length⟩

end Search

end CacheBench
