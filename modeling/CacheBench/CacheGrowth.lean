import CacheBench.CacheSetFailure

namespace CacheBench

open Manager Execution

/-!
# Growth and eviction

When a class has no free slot, `free_space` asks `expand_cache` for one more
slab, and `cache_set` evicts a value if there is still no slot.  This module
proves when the cache grows and that nothing is evicted before it has to be.

Growth is proved for every run, also after a value of more than 2^20 bytes has
overwritten a slab's fields.  Of the manager it uses only the class table and
the blocks `malloc` returns, which no call changes.
-/

/-! ## Searching any manager -/

section Search

variable {man : Manager} {slabClass valSize : Nat}

/-- A slab of the class that was open is marked full. -/
def closeSlab (slabClass : Nat) (slab : Slab) : Slab :=
  if isOpen slab slabClass then { slab with isFull := 1 } else slab

/-- The manager with every open slab of a class marked full. -/
def Manager.closeClass (man : Manager) (slabClass : Nat) : Manager :=
  { man with slabs := man.slabs.map (closeSlab slabClass) }

@[simp] theorem slabClass_closeSlab (slab : Slab) :
    (closeSlab slabClass slab).slabClass = slab.slabClass := by
  unfold closeSlab
  split <;> rfl

@[simp] theorem bit_closeSlab (slab : Slab) (item : Nat) :
    (closeSlab slabClass slab).bit item = slab.bit item := by
  unfold closeSlab
  split <;> rfl

@[simp] theorem isOpen_closeSlab (slab : Slab) :
    isOpen (closeSlab slabClass slab) slabClass = false := by
  unfold closeSlab
  split
  · simp [isOpen]
  · simp_all

/-- Closing a class does not free anything. -/
theorem Manager.Exhausted.closeClass
    (allUsed : man.Exhausted slabClass) :
    (man.closeClass slabClass).Exhausted slabClass := by
  intro number hasClass item inBounds
  obtain ⟨slab, present, isClass⟩ := exists_of_classAt hasClass
  rw [used_eq present]
  simp only [Manager.closeClass, List.getElem?_map, Option.map_eq_some_iff]
    at present
  obtain ⟨before, beforePresent, rfl⟩ := present
  rw [slabClass_closeSlab] at isClass
  rw [bit_closeSlab, ← used_eq beforePresent]
  exact allUsed (by simp [classAt, beforePresent, isClass]) inBounds

/-- No slab of an exhausted class has a free index. -/
theorem Manager.Exhausted.getFreeIndex_eq_zero
    (allUsed : man.Exhausted slabClass)
    {slab : Slab}
    {number : Nat}
    (present : man.slabs[number]? = some slab)
    (hasClass : slab.slabClass = slabClass) :
    getFreeIndex slab = 0 := by
  by_contra someFree
  obtain ⟨inBounds, isFree, -⟩ := isFirstClear_of_getFreeIndex someFree
  have isUsed :=
    @allUsed number (by simp [classAt, present, hasClass]) _ inBounds
  rw [used_eq present, isFree] at isUsed
  cases isUsed

/--
The search on a class without a free slot, with enough calls.  The induction is
on the calls: a call that recurses has marked the first open slab full, which
is closed in the result anyway.
-/
private theorem getAddressWithin_of_exhausted
    (calls : Nat)
    (man : Manager)
    (selects : getSlabClass man valSize = slabClass)
    (allUsed : man.Exhausted slabClass)
    (enough : man.slabs.countP (isOpen · slabClass) < calls) :
    getAddressWithin calls man valSize =
      .ok (none, man.closeClass slabClass) := by
  induction calls generalizing man with
  | zero =>
      omega
  | succ calls inductionHypothesis =>
      rw [getAddressWithin]
      simp only [selects]
      cases search : getSlab man slabClass with
      | none =>
          have unchanged : man.closeClass slabClass = man := by
            have noneOpen := List.find?_eq_none.mp search
            have sameSlabs :
                man.slabs.map (closeSlab slabClass) = man.slabs.map id := by
              apply List.map_congr_left
              intro slab member
              simp [closeSlab, noneOpen slab member]
            rw [Manager.closeClass, sameSlabs, List.map_id]
          rw [unchanged]
      | some slab =>
          obtain ⟨number, present, accepts, -, update⟩ :=
            FirstMatch.position_of_find? search
          have hasClass : slab.slabClass = slabClass := by
            simp only [isOpen, Bool.and_eq_true, decide_eq_true_eq]
              at accepts
            exact accepts.1
          have stored :
              { man with
                slabs := llUpdate isOpen man.slabs slabClass
                  fun _ => { slab with isFull := 1 } } =
                man.setSlab number { slab with isFull := 1 } :=
            congrArg (fun slabs => { man with slabs := slabs })
              (update _)
          have marked :
              (man.setSlab number { slab with isFull := 1 }).Exhausted
                slabClass := by
            intro query queryHasClass item inBounds
            have store :
                SameStore man
                  (man.setSlab number { slab with isFull := 1 }) :=
              sameStore_setSlab present ⟨rfl, rfl, rfl⟩
            rw [used_markFull present]
            exact allUsed ((store.classAt query).symm.trans queryHasClass)
              inBounds
          have closed :
              (man.setSlab number { slab with isFull := 1 }).closeClass
                  slabClass =
                man.closeClass slabClass := by
            have sameSlab :
                (man.slabs.map (closeSlab slabClass))[number]? =
                  some (closeSlab slabClass { slab with isFull := 1 }) := by
              rw [List.getElem?_map, present, Option.map_some, closeSlab,
                if_pos accepts, closeSlab, if_neg (by simp [isOpen])]
            obtain ⟨inBounds, isSlab⟩ :=
              List.getElem?_eq_some_iff.mp sameSlab
            rw [Manager.closeClass, Manager.closeClass, setSlab,
              List.map_set, ← isSlab, List.set_getElem_self]
          have fewer := countP_markFull_lt present accepts
          simp only [allUsed.getFreeIndex_eq_zero present hasClass,
            ↓reduceIte, stored]
          rw [inductionHypothesis
            (man.setSlab number { slab with isFull := 1 }) selects @marked
            (by omega), closed]

/-- `get_address` on a class without a free slot. -/
theorem getAddress_of_exhausted
    (selects : getSlabClass man valSize = slabClass)
    (allUsed : man.Exhausted slabClass) :
    getAddress man valSize = .ok (none, man.closeClass slabClass) :=
  getAddressWithin_of_exhausted _ man selects allUsed
    (Nat.lt_succ_of_le List.countP_le_length)

/-- `get_address` takes its slot from the last slab if no other is open. -/
theorem getAddress_of_last
    {earlier : List Slab}
    {slab : Slab}
    (slabs : man.slabs = earlier ++ [slab])
    (selects : getSlabClass man valSize = slabClass)
    (noneOpen : ∀ other ∈ earlier, isOpen other slabClass = false)
    (accepts : isOpen slab slabClass = true)
    (someFree : getFreeIndex slab ≠ 0) :
    ∃ address after,
      getAddress man valSize = .ok (some address, after) ∧
        after.slabs.length = earlier.length + 1 ∧
        after.classAt earlier.length = some slab.slabClass := by
  have search : getSlab man slabClass = some slab := by
    have before : earlier.find? (isOpen · slabClass) = none := by
      rw [List.find?_eq_none]
      intro other member
      simp [noneOpen other member]
    rw [getSlab, llFind, slabs, List.find?_append, before]
    simp [accepts]
  obtain ⟨inBounds, -, -⟩ := isFirstClear_of_getFreeIndex someFree
  unfold statusBits statusWords at inBounds
  have update (change : Slab → Slab) :
      llUpdate isOpen man.slabs slabClass change =
        earlier ++ [change slab] := by
    rw [slabs]
    exact FirstMatch.updateFirst_split (isOpen · slabClass) change accepts
      noneOpen
  have toggled :=
    @toggleBit_eq_ok slab (getFreeIndex slab - 1) (by omega)
  rw [getAddress, getAddressWithin]
  simp only [selects, search, someFree, ↓reduceIte, toggled, bind,
    Except.bind, update]
  exact ⟨_, _, rfl, by simp, by simp [classAt]⟩

end Search

/-! ## What no call changes -/

section Source

variable {man newMan : Manager} {cache after : Cache}
variable {result : Option Nat} {valSize slabClass : Nat}

/-- The class table of a manager and the blocks `malloc` returns to it. -/
def Manager.source (man : Manager) : List Nat × (Nat → Slab) :=
  (man.classes, man.blocks)

theorem getAddressWithin_source
    {calls : Nat}
    (returned :
      getAddressWithin calls man valSize = .ok (result, newMan)) :
    newMan.source = man.source := by
  induction calls generalizing man with
  | zero =>
      cases returned
  | succ calls inductionHypothesis =>
      rw [getAddressWithin] at returned
      dsimp only at returned
      split at returned
      · cases returned
        rfl
      · split at returned
        · have sameSource := inductionHypothesis returned
          exact sameSource
        · obtain ⟨reserved, -, returned⟩ := bind_eq_ok.mp returned
          cases returned
          rfl

private theorem manDelete_source
    {valPtr : Nat}
    (returned : manDelete man valPtr = .ok newMan) :
    newMan.source = man.source := by
  unfold manDelete at returned
  split at returned
  · cases returned
    rfl
  · split at returned
    · cases returned
    · obtain ⟨adjusted, -, returned⟩ := bind_eq_ok.mp returned
      cases returned
      rfl

private theorem slabAdd_source
    (returned : slabAdd man slabClass = .ok newMan) :
    newMan.source = man.source := by
  obtain ⟨slab, -, returned⟩ := bind_eq_ok.mp returned
  cases returned
  rfl

private theorem memcpy_source
    {address count : Nat}
    {val : Nat → UInt8}
    (returned : man.memcpy address val count = .ok newMan) :
    newMan.source = man.source := by
  unfold Manager.memcpy at returned
  split at returned
  · cases returned
    rfl
  · split at returned
    · cases returned
    · split at returned
      · cases returned
        rfl
      · cases returned

theorem expandCache_source
    (returned : expandCache cache slabClass = .ok after) :
    after.slabManager.source = cache.slabManager.source := by
  rcases expandCache_cases returned with
      ⟨slabManager, -, added, rfl⟩ | ⟨-, rfl⟩
  · exact slabAdd_source added
  · rfl

theorem freeSpace_source
    (returned : freeSpace cache slabClass = .ok (result, after)) :
    after.slabManager.source = cache.slabManager.source := by
  obtain ⟨first, searched, search, found | atLimit | grew⟩ :=
    freeSpace_cases returned
  · obtain ⟨address, -, -, rfl⟩ := found
    exact getAddressWithin_source search
  · obtain ⟨-, -, -, rfl⟩ := atLimit
    exact getAddressWithin_source search
  · obtain ⟨grown, later, -, -, expansion, again, rfl⟩ := grew
    exact (getAddressWithin_source again).trans
      ((expandCache_source expansion).trans
        (getAddressWithin_source search))

theorem cacheDelete_source
    {key : CString}
    {code : UInt8}
    (returned : cacheDelete cache key = .ok (code, after)) :
    after.slabManager.source = cache.slabManager.source := by
  rcases cacheDelete_cases returned with
      ⟨-, -, rfl⟩ | ⟨item, slabManager, -, freed, -, rfl⟩
  · rfl
  · exact manDelete_source freed

theorem cacheEvict_source
    (returned : cacheEvict cache slabClass = .ok after) :
    after.slabManager.source = cache.slabManager.source := by
  rcases cacheEvict_cases returned with
      ⟨-, rfl⟩ | ⟨victim, code, -, deletion⟩
  · rfl
  · exact cacheDelete_source deletion

theorem makeSpace_source
    (returned : makeSpace cache slabClass = .ok (result, after)) :
    after.slabManager.source = cache.slabManager.source := by
  rcases makeSpace_cases returned with
      ⟨address, search, -⟩ | ⟨searched, evicted, search, eviction, again⟩
  · exact freeSpace_source search
  · exact (freeSpace_source again).trans
      ((cacheEvict_source eviction).trans (freeSpace_source search))

theorem deleteOld_source
    {key : CString}
    (returned : deleteOld cache key = .ok after) :
    after.slabManager.source = cache.slabManager.source := by
  rcases deleteOld_cases returned with ⟨-, rfl⟩ | ⟨item, code, -, deletion⟩
  · rfl
  · exact cacheDelete_source deletion

private theorem cacheSet_source
    {key : CString}
    {val : Nat → UInt8}
    {size : UInt32}
    {code : UInt8}
    (returned : cacheSet cache key val size = .ok (code, after)) :
    after.slabManager.source = cache.slabManager.source := by
  rcases cacheSet_cases returned with
      ⟨-, rfl⟩ | ⟨cleared, spaced, found, -, deletion, space, rest⟩
  · rfl
  · have spacedSource :
        spaced.slabManager.source = cache.slabManager.source :=
      (makeSpace_source space).trans (deleteOld_source deletion)
    rcases rest with ⟨-, -, rfl⟩ | ⟨address, -, storing, -⟩
    · exact spacedSource
    · obtain ⟨slabManager, copied, rfl⟩ := storeValue_cases storing
      exact (memcpy_source copied).trans spacedSource

/-- No call changes the class table or the blocks. -/
theorem step_source
    {event : Event}
    (step : cache.Step event after) :
    after.slabManager.source = cache.slabManager.source := by
  cases event with
  | set key val size code =>
      obtain ⟨⟨reply, next⟩, returned, rest⟩ := bind_eq_ok.mp step
      cases rest
      exact cacheSet_source returned
  | get key value size =>
      obtain ⟨⟨found, next⟩, returned, rest⟩ := bind_eq_ok.mp step
      cases rest
      rcases cacheGet_cases returned with ⟨-, -, rfl⟩ | ⟨item, -, -, rfl⟩
      · rfl
      · rfl
  | delete key code =>
      obtain ⟨⟨reply, next⟩, returned, rest⟩ := bind_eq_ok.mp step
      cases rest
      exact cacheDelete_source returned

/-- Every cache has the default classes and the blocks it started with. -/
theorem source_of_run
    {blocks : Nat → Slab}
    {maxmem : UInt64}
    {hasher : Option HashFunc}
    {history : List Event}
    (run :
      Run Cache.Step (createCache blocks maxmem hasher) history cache) :
    cache.slabManager.source = (defaultClasses, blocks) :=
  run.invariant
    (fun cache => cache.slabManager.source = (defaultClasses, blocks)) rfl
    (fun holds (_ : True) step => (step_source step).trans holds)
    fun _ _ => trivial

end Source

/-! ## Growing -/

section Growth

variable {cache : Cache} {slabClass : Nat}

/-- `free_space` adds a slab of the class and returns an address. -/
def Cache.Grows (cache : Cache) (slabClass : Nat) : Prop :=
  ∃ address after,
    freeSpace cache slabClass = .ok (some address, after) ∧
      after.slabManager.slabs.length =
        cache.slabManager.slabs.length + 1 ∧
      after.slabManager.classAt cache.slabManager.slabs.length =
        some slabClass

/-- With room for a slab, the test of `expand_cache` fails at equality only. -/
private theorem expandTest_iff_ne
    (room : cache.size.toNat + getSlabSize ≤ cache.maxmem.toNat) :
    cache.maxmem - cache.size.toUInt64 > UInt64.ofNat getSlabSize ↔
      cache.size.toNat + getSlabSize ≠ cache.maxmem.toNat := by
  have sizeFits : cache.size.toUInt64 ≤ cache.maxmem := by
    rw [UInt64.le_iff_toNat_le, UInt32.toNat_toUInt64]
    omega
  rw [gt_iff_lt, UInt64.lt_iff_toNat_lt, UInt64.toNat_sub_of_le _ _ sizeFits,
    UInt32.toNat_toUInt64,
    show (UInt64.ofNat getSlabSize).toNat = getSlabSize by decide]
  omega

/-- A zero-filled block gives a slab of the class with a free slot. -/
private theorem exists_open_slab
    (addr : Nat)
    (isClass : IsClass slabClass) :
    ∃ slab,
      allocateSlab (Slab.zeros addr) slabClass = .ok slab ∧
        slab.slabClass = slabClass ∧ isOpen slab slabClass = true ∧
        getFreeIndex slab ≠ 0 := by
  obtain ⟨slab, allocation, allocated⟩ :=
    allocateSlab_spec (Slab.zeros addr) isClass.smallest
  have hasSlot : 0 < capacity slabClass := isClass.capacity_pos
  have isFree : slab.bit 0 = false := by
    rw [allocated.bits 0 (by decide)]
    exact freshBit_zeros addr hasSlot
  refine ⟨slab, allocation, allocated.slabClass, ?_, ?_⟩
  · simp [isOpen, allocated.slabClass, allocated.isFull]
  · intro noneFree
    have isUsed := bit_of_getFreeIndex_eq_zero noneFree
      (by decide : 0 < statusBits)
    rw [isFree] at isUsed
    cases isUsed

/--
A class without a free slot, in a cache with room for a slab.  `free_space`
grows the cache unless the slab would take the size to exactly the limit.
-/
theorem Cache.grows_iff
    {addr : Nat}
    (isClass : IsClass slabClass)
    (classes : cache.slabManager.classes = defaultClasses)
    (zeros :
      cache.slabManager.blocks cache.slabManager.slabs.length =
        Slab.zeros addr)
    (allUsed : cache.slabManager.Exhausted slabClass)
    (room : cache.size.toNat + getSlabSize ≤ cache.maxmem.toNat) :
    cache.Grows slabClass ↔
      cache.size.toNat + getSlabSize ≠ cache.maxmem.toNat := by
  have selects (man : Manager) (sameTable : man.classes = defaultClasses) :
      getSlabClass man slabClass = slabClass := by
    rw [getSlabClass, sameTable]
    exact defaultTable.select_of_mem isClass
  have search := getAddress_of_exhausted (selects _ classes) allUsed
  have below : cache.size.toUInt64 < cache.maxmem := by
    have positive : 0 < getSlabSize := by
      decide
    rw [UInt64.lt_iff_toNat_lt, UInt32.toNat_toUInt64]
    omega
  rw [← expandTest_iff_ne room]
  constructor
  · rintro ⟨address, after, returned, -, -⟩
    by_contra refused
    have again :=
      getAddress_of_exhausted
        (selects (cache.slabManager.closeClass slabClass) classes)
        allUsed.closeClass
    simp only [freeSpace, search, bind, Except.bind, below, ↓reduceIte,
      expandCache, refused, again] at returned
    cases returned
  · intro grows
    obtain ⟨slab, allocation, hasClass, accepts, someFree⟩ :=
      exists_open_slab addr isClass
    have noneOpen :
        ∀ other ∈ (cache.slabManager.closeClass slabClass).slabs,
          isOpen other slabClass = false := by
      intro other member
      obtain ⟨before, -, rfl⟩ := List.mem_map.mp member
      exact isOpen_closeSlab before
    have nextBlock :
        (cache.slabManager.closeClass slabClass).blocks
            (cache.slabManager.closeClass slabClass).slabs.length =
          Slab.zeros addr := by
      simpa [Manager.closeClass] using zeros
    obtain ⟨grown, added, slabs, sameClasses⟩ :
        ∃ grown,
          slabAdd (cache.slabManager.closeClass slabClass) slabClass =
              .ok grown ∧
            grown.slabs =
              (cache.slabManager.closeClass slabClass).slabs ++ [slab] ∧
            grown.classes = defaultClasses := by
      rw [slabAdd, nextBlock, allocation]
      exact ⟨_, rfl, rfl, classes⟩
    obtain ⟨address, after, again, length, newClass⟩ :=
      getAddress_of_last slabs (selects grown sameClasses) noneOpen accepts
        someFree
    refine ⟨address,
      { cache with
        slabManager := after
        size := cache.size + UInt32.ofNat getSlabSize }, ?_, ?_, ?_⟩
    · simp only [freeSpace, search, bind, Except.bind, below, ↓reduceIte,
        expandCache, grows, added, again]
    · simpa [Manager.closeClass] using length
    · simpa [Manager.closeClass, hasClass] using newClass

/-- A new cache can take a slab unless the limit is exactly one slab. -/
private theorem createCache_canGrow_iff
    (blocks : Nat → Slab)
    (maxmem : UInt64)
    (hasher : Option HashFunc) :
    (createCache blocks maxmem hasher).CanGrow ↔
      maxmem.toNat ≠ getSlabSize := by
  have slabSize : (UInt64.ofNat getSlabSize).toNat = getSlabSize := by
    decide
  have doubled :
      (2 * UInt64.ofNat getSlabSize).toNat = 2 * getSlabSize := by
    decide
  have largest : (UInt64.ofNat (2 ^ 32)).toNat = 2 ^ 32 := by
    decide
  have positive : 0 < getSlabSize ∧ 2 * getSlabSize < 2 ^ 32 := by
    decide
  unfold Cache.CanGrow
  simp only [createCache, initializeManager, List.length_nil, Nat.zero_mul,
    Nat.zero_add, gt_iff_lt, UInt64.lt_iff_toNat_lt]
  split_ifs <;> omega

/-- With zero-filled blocks a new cache lacks room only at that limit. -/
private theorem noRoom_createCache_iff
    {blocks : Nat → Slab}
    (zeroFilled : ZeroFilled blocks)
    (maxmem : UInt64)
    (hasher : Option HashFunc)
    (key : CString)
    (isClass : IsClass slabClass) :
    NoRoom (createCache blocks maxmem hasher) key slabClass ↔
      maxmem.toNat = getSlabSize := by
  have noMetas := createCache_metas blocks maxmem hasher
  have missing := getMeta_of_no_metas noMetas key
  have usable : Usable (blocks 0) slabClass := by
    refine ⟨0, isClass.capacity_pos, ?_⟩
    rw [zeroFilled 0]
    exact freshBit_zeros _ isClass.capacity_pos
  have grows_iff := createCache_canGrow_iff blocks maxmem hasher
  constructor
  · intro noRoom
    by_contra notOneSlab
    exact noRoom.firstSlab (grows_iff.mpr notOneSlab) usable
  · intro oneSlab
    have cannotGrow :
        ¬ (createCache blocks maxmem hasher).CanGrow := by
      rw [grows_iff]
      exact fun notOneSlab => notOneSlab oneSlab
    refine ⟨?_, ?_, fun canGrow => absurd canGrow cannotGrow, ?_, ?_⟩
    · intro number hasClass
      simp [createCache, initializeManager, classAt] at hasClass
    · intro old found
      rw [missing] at found
      cases found
    · intro canGrowTwice
      unfold Cache.CanGrow at cannotGrow
      omega
    · rw [noneEvicted_of_missing_iff missing]
      rintro item ⟨victim, chosen, -⟩
      have member := (findVictim_sound chosen).1
      rw [noMetas] at member
      cases member

/--
The cache grows whenever the limit allows, unless the new slab would take the
size to exactly the limit.  The first set on a new cache therefore succeeds
unless `create_cache` was given the size of one slab.
-/
theorem grows_iff_not_exactly_full
    {blocks : Nat → Slab}
    (disjoint : DisjointBlocks blocks)
    (zeroFilled : ZeroFilled blocks)
    (maxmem : UInt64)
    (hasher : Option HashFunc) :
    (∀ {history cache} (valSize : UInt32),
      Run Cache.Step (createCache blocks maxmem hasher) history cache →
      cache.slabManager.Exhausted
        (getSlabClass cache.slabManager valSize.toNat) →
      cache.size.toNat + getSlabSize ≤ cache.maxmem.toNat →
        (cache.Grows (getSlabClass cache.slabManager valSize.toNat) ↔
          cache.size.toNat + getSlabSize ≠ cache.maxmem.toNat)) ∧
      ∀ {key val} {valSize : UInt32},
        key.length ≤ 31 →
        valSize.toNat ≤ 2 ^ 20 →
        val (valSize - 1).toNat = 0 →
          ((∃ after,
            cacheSet (createCache blocks maxmem hasher) key val valSize =
              .ok (0, after)) ↔
            maxmem.toNat ≠ getSlabSize) := by
  constructor
  · intro history cache valSize run allUsed room
    obtain ⟨classes, sameBlocks⟩ := Prod.mk.inj (source_of_run run)
    have selects :
        getSlabClass cache.slabManager valSize.toNat =
          classOf valSize.toNat := by
      rw [getSlabClass, classes, classOf]
    have zeros := zeroFilled cache.slabManager.slabs.length
    rw [← sameBlocks] at zeros
    rw [selects] at allUsed ⊢
    exact Cache.grows_iff (isClass_classOf valSize.toNat) classes zeros
      allUsed room
  · intro key val valSize keyFits bounded terminated
    have ok := createCache_ok disjoint maxmem hasher
    have accepted :=
      ok.limits.setRefusal_of_terminated (Nat.le_succ_of_le keyFits)
        bounded terminated
    obtain ⟨code, after, returned, -, stores⟩ :=
      cacheSet_code ok accepted bounded
    rw [noRoom_createCache_iff zeroFilled maxmem hasher key
      (isClass_classOf valSize.toNat)] at stores
    rw [ne_eq, ← stores, returned]
    constructor
    · rintro ⟨final, isStored⟩
      cases isStored
      rfl
    · rintro rfl
      exact ⟨after, rfl⟩

/-- A new cache with the default limit. -/
theorem grows_iff_not_exactly_full_default :
    (createCache zeroBlocks 0 none).Grows 64 ∧
      ∃ after,
        cacheSet (createCache zeroBlocks 0 none) (CString.ofText "a")
            (bytesAt []) 1 =
          .ok (0, after) := by
  obtain ⟨grows, stores⟩ :=
    grows_iff_not_exactly_full zeroBlocks_disjoint (fun _ => rfl) 0 none
  have allUsed :
      (createCache zeroBlocks 0 none).slabManager.Exhausted 64 := by
    intro number hasClass
    simp [createCache, initializeManager, classAt] at hasClass
  exact ⟨(grows 1 .nil allUsed (by decide)).mpr (by decide),
    (stores (by decide) (by decide) (by decide)).mpr (by decide)⟩

/-- With a limit of exactly one slab not even the empty string is stored. -/
theorem first_set_fails_at_one_slab :
    (createCache zeroBlocks 1050632 none).size.toNat + getSlabSize ≤
        (createCache zeroBlocks 1050632 none).maxmem.toNat ∧
      ∃ after,
        cacheSet (createCache zeroBlocks 1050632 none)
            (CString.ofText "a") (bytesAt []) 1 =
          .ok (4, after) := by
  refine ⟨by decide, ?_⟩
  obtain ⟨⟨code, after⟩, returned, isFour⟩ :=
    exists_of_returnsSuch (by
      decide +kernel :
      returnsSuch
        (cacheSet (createCache zeroBlocks 1050632 none)
          (CString.ofText "a") (bytesAt []) 1)
        (fun result => result.1 == 4) = true)
  rw [beq_iff_eq] at isFour
  exact ⟨after, isFour ▸ returned⟩

end Growth

/-! ## Evicting -/

section Evict

variable {cache cleared after : Cache} {key other : CString}
variable {slabClass : Nat} {result : Option Nat}

/-- Deleting the old value of a key keeps every other key. -/
private theorem Cleared.getMeta_of_ne
    (ok : CacheOk [] cache)
    (clearing : Cleared cache key cleared)
    (different : other ≠ key)
    {item : Meta}
    (present : getMeta cache other = some item) :
    ∃ kept, getMeta cleared other = some kept := by
  cases clearing with
  | absent missing =>
      exact ⟨item, present⟩
  | deleted found freed =>
      refine ⟨tick item, ?_⟩
      rw [getMeta_afterDelete_of_ne ok.table _ different, present]
      rfl

/-- Making space keeps the table, or has found no slot at first. -/
private theorem Spaced.sameTable_or_full
    (spaced : Spaced cache slabClass result after) :
    SameTable cache after ∨
      ∃ searched, Searched cache slabClass none searched := by
  cases spaced with
  | direct found => exact Or.inl found.same
  | kept full noVictim again => exact Or.inr ⟨_, full⟩
  | lost full chosen notFound again => exact Or.inr ⟨_, full⟩
  | evicted full chosen found freed trimmedOk again =>
      exact Or.inr ⟨_, full⟩

/-- Every slab of the class has all of its status bits set. -/
theorem Manager.Exhausted.bit
    {man : Manager}
    (allUsed : man.Exhausted slabClass)
    {slab : Slab}
    (member : slab ∈ man.slabs)
    (hasClass : slab.slabClass = slabClass)
    {index : Nat}
    (inBounds : index < 32 * 512) :
    slab.bit index = true := by
  obtain ⟨number, present⟩ := List.mem_iff_getElem?.mp member
  rw [← used_eq present]
  exact @allUsed number (by simp [classAt, present, hasClass]) _ inBounds

/--
A set that makes another key disappear.  In every run with values of up to 2^20
bytes all status bits of the class were then set, and `expand_cache` refused a
further slab unless the slab it added had no free slot.  Zero-filled blocks
always have one.
-/
theorem evicts_only_when_full_iff
    {blocks : Nat → Slab}
    (disjoint : DisjointBlocks blocks)
    {maxmem : UInt64}
    {hasher : Option HashFunc}
    {history : List Event}
    (run : Run Cache.Step (createCache blocks maxmem hasher) history cache)
    (bounded : ∀ event ∈ history, event.Bounded)
    {val : Nat → UInt8}
    {valSize : UInt32}
    {code : UInt8}
    (returned : cacheSet cache key val valSize = .ok (code, after))
    (different : other ≠ key)
    {item : Meta}
    (present : getMeta cache other = some item)
    (absent : getMeta after other = none) :
    ∃ cleared,
      deleteOld cache key = .ok cleared ∧
        ((∀ slab ∈ cleared.slabManager.slabs,
            slab.slabClass =
                getSlabClass cleared.slabManager valSize.toNat →
              ∀ index < 32 * 512, slab.bit index = true) ∧
            ¬ cleared.maxmem - cleared.size.toUInt64 >
              UInt64.ofNat getSlabSize ↔
          (cleared.maxmem - cleared.size.toUInt64 >
              UInt64.ofNat getSlabSize →
            Usable (blocks cleared.slabManager.slabs.length)
              (getSlabClass cleared.slabManager valSize.toNat))) := by
  obtain ⟨ok, sameBlocks⟩ := cacheOk_of_run disjoint run bounded
  rcases cacheSet_cases returned with
      ⟨-, rfl⟩ | ⟨cleared, spaced, result, accepted, deletion, space, rest⟩
  · rw [present] at absent
    cases absent
  · obtain ⟨cleared', deletion', clearedOk, clearing⟩ := ok.deleteOld key
    rw [deletion] at deletion'
    cases deletion'
    obtain ⟨kept, stillPresent⟩ :=
      clearing.getMeta_of_ne ok different present
    have selects :=
      clearedOk.granted.wellFormed.getSlabClass_eq valSize.toNat
    rw [selects] at space rest
    obtain ⟨result', spaced', space', spacedOk, spacing⟩ :=
      clearedOk.makeSpace (isClass_classOf valSize.toNat)
    rw [space] at space'
    cases space'
    have full :
        ∃ searched,
          Searched cleared (classOf valSize.toNat) none searched := by
      rcases spacing.sameTable_or_full with same | full
      · -- The slot was found at once, and storing keeps the other key.
        have found : getMeta spaced other = some kept := by
          rw [same.getMeta, stillPresent]
        rcases rest with ⟨-, -, rfl⟩ | ⟨address, -, storing, -⟩
        · rw [found] at absent
          cases absent
        · obtain ⟨slabManager, -, rfl⟩ := storeValue_cases storing
          rw [getMeta_afterStore_of_some spacedOk.table found] at absent
          cases absent
      · exact full
    obtain ⟨searched, full⟩ := full
    obtain ⟨allUsed, notUsable⟩ := full.none_iff.mp rfl
    rw [clearing.blocks, sameBlocks, ← expandTest_iff clearedOk.limits]
      at notUsable
    refine ⟨cleared, deletion, ?_⟩
    rw [selects]
    constructor
    · intro claimed grows
      exact absurd grows claimed.2
    · intro usable
      refine ⟨?_, fun grows => notUsable grows (usable grows)⟩
      intro slab member hasClass index inBounds
      exact allUsed.bit member hasClass inBounds

/-- A third value in a cache that cannot grow. -/
theorem evicts_only_when_full_third_value :
    ∃ (history : List Event) (cache after : Cache) (code : UInt8),
      Run Cache.Step (createCache zeroBlocks 0 none) history cache ∧
        cacheSet cache (CString.ofText "c") (letters 300000) 300000 =
          .ok (code, after) ∧
        getMeta cache (CString.ofText "a") ≠ none ∧
        getMeta after (CString.ofText "a") = none ∧
        deleteOld cache (CString.ofText "c") = .ok cache ∧
        (∀ slab ∈ cache.slabManager.slabs,
          slab.slabClass =
              getSlabClass cache.slabManager (300000 : UInt32).toNat →
            ∀ index < 32 * 512, slab.bit index = true) ∧
        ¬ cache.maxmem - cache.size.toUInt64 >
          UInt64.ofNat getSlabSize := by
  obtain ⟨history, cache, after, item, code, calls, run, returned, found,
      -, -, absent, missing, -⟩ :=
    @exists_third_value zeroBlocks zeroBlocks_disjoint 0 halves (by decide)
      false (by simp) (by decide +kernel)
  obtain ⟨cleared, deletion, full_iff⟩ :=
    evicts_only_when_full_iff zeroBlocks_disjoint run
      (bounded_of_calls calls (by decide)) returned
      (by decide : CString.ofText "a" ≠ CString.ofText "c") found absent
  have unchanged := deleteOld_of_missing missing
  rw [unchanged] at deletion
  cases deletion
  obtain ⟨classes, -⟩ := Prod.mk.inj (source_of_run run)
  have isClass :
      IsClass (getSlabClass cache.slabManager (300000 : UInt32).toNat) := by
    rw [getSlabClass, classes]
    exact isClass_classOf (300000 : UInt32).toNat
  obtain ⟨allUsed, refused⟩ :=
    full_iff.mpr fun _ =>
      ⟨0, isClass.capacity_pos, freshBit_zeros _ isClass.capacity_pos⟩
  exact ⟨history, cache, after, code, run, returned, by simp [found],
    absent, unchanged, allUsed, refused⟩

/-- The first block is zero-filled, all others hold ones as status words. -/
def staleBlocks (number : Nat) : Slab :=
  if number = 0 then
    zeroBlocks 0
  else
    { zeroBlocks number with
      status := Vector.replicate 512 (BitVec.allOnes 32) }

theorem staleBlocks_disjoint : DisjointBlocks staleBlocks := by
  have sameAddr (number : Nat) :
      (staleBlocks number).addr = (zeroBlocks number).addr := by
    unfold staleBlocks
    split
    · rename_i isFirst
      rw [isFirst]
    · rfl
  intro first second different
  have apart := zeroBlocks_disjoint first second different
  unfold Apart at apart ⊢
  rw [sameAddr, sameAddr]
  exact apart

/-- `allocate_slab` leaves no free slot in the second of these blocks. -/
theorem staleBlocks_not_usable : ¬ Usable (staleBlocks 1) 524288 := by
  have allSet :
      ∀ index < capacity 524288,
        freshBit (staleBlocks 1) 524288 index = true := by
    decide
  rintro ⟨index, inside, free⟩
  rw [allSet index inside] at free
  cases free

/--
A value is evicted although `expand_cache` accepts a further slab: the bits of
the new slab are left as `malloc` returned them, so it looks full.
-/
theorem evicts_although_cache_can_grow :
    DisjointBlocks staleBlocks ∧
      ∃ (history : List Event) (cache after : Cache) (code : UInt8),
        (∀ event ∈ history, event.Bounded) ∧
          Run Cache.Step (createCache staleBlocks 4202528 none) history
            cache ∧
          cacheSet cache (CString.ofText "c") (letters 300000) 300000 =
            .ok (code, after) ∧
          getMeta cache (CString.ofText "a") ≠ none ∧
          getMeta after (CString.ofText "a") = none ∧
          deleteOld cache (CString.ofText "c") = .ok cache ∧
          cache.maxmem - cache.size.toUInt64 >
            UInt64.ofNat getSlabSize := by
  obtain ⟨history, cache, after, item, code, calls, run, returned, found,
      -, -, absent, missing, grows⟩ :=
    @exists_third_value staleBlocks staleBlocks_disjoint 4202528 halves
      (by decide) true (fun _ => staleBlocks_not_usable) (by decide +kernel)
  exact ⟨staleBlocks_disjoint, history, cache, after, code,
    bounded_of_calls calls (by decide), run, returned, by simp [found],
    absent, deleteOld_of_missing missing, of_decide_eq_true grows⟩

end Evict

end CacheBench
