import CacheBench.SlotOwnership

namespace CacheBench

open Execution

/-!
# What the table counts

The cache keeps the number of its metas in `num_values` and adds their sizes up
on demand.  This module proves that both agree with the map the table stands
for, as long as the 32-bit counter cannot overflow: in runs of fewer than 2^32
sets, and in runs of any length with values that fit their slots.
-/

/-- `num_values` counts the metas modulo 2^32 and every size is admitted. -/
structure Counted (hasher : HashFunc) (cache : Cache) : Prop where
  sameHasher : cache.hasher = hasher
  numValues : cache.numValues = UInt32.ofNat cache.metas.length
  small : ∀ item ∈ cache.metas, item.size ≤ getSlabSize

section Moves

variable {hasher : HashFunc} {key : CString} {cache after : Cache}

/-- A deletion that finds its key takes one meta out. -/
theorem length_afterDelete
    (tableOk : TableOk cache)
    {item : Meta}
    (found : getMeta cache key = some item)
    (slabManager : Manager) :
    (afterDelete cache key slabManager).metas.length + 1 =
      cache.metas.length := by
  obtain ⟨rest, perm, metas⟩ :=
    afterDelete_metas tableOk found slabManager
  rw [metas, perm.length_eq, List.length_map, List.length_cons]

/-- A store adds one meta. -/
theorem length_afterStore
    (tableOk : TableOk cache)
    {valSize slabClass address : Nat}
    (slabManager : Manager) :
    (afterStore cache key valSize slabClass address
      slabManager).metas.length = cache.metas.length + 1 := by
  rw [(afterStore_metas tableOk slabManager).length_eq, List.length_cons,
    List.length_map]

/-- Every move counts the metas it adds and takes out. -/
theorem Counted.move
    (tableOk : TableOk cache)
    (counted : Counted hasher cache)
    (move : Move key cache after) :
    Counted hasher after := by
  cases move with
  | space same =>
      refine ⟨same.hasher.trans counted.sameHasher, ?_, ?_⟩
      · rw [same.numValues, same.metas]
        exact counted.numValues
      · rw [same.metas]
        exact counted.small
  | delete found slabManager =>
      refine ⟨counted.sameHasher, ?_, ?_⟩
      · change cache.numValues - 1 = _
        rw [counted.numValues,
          ← length_afterDelete tableOk found slabManager,
          UInt32.ofNat_add]
        exact UInt32.add_sub_cancel _ _
      · intro other member
        obtain ⟨before, beforeMember, rfl⟩ :=
          mem_afterDelete tableOk found slabManager member
        rw [tick_size]
        exact counted.small before beforeMember
  | store admitted missing small slabClass address slabManager =>
      refine ⟨counted.sameHasher, ?_, ?_⟩
      · change cache.numValues + 1 = _
        rw [counted.numValues, length_afterStore tableOk slabManager,
          UInt32.ofNat_add]
        rfl
      · intro other member
        rcases mem_afterStore tableOk member with
            rfl | ⟨before, beforeMember, rfl⟩
        · exact small
        · rw [tick_size]
          exact counted.small before beforeMember
  | @touch item found =>
      obtain ⟨rest, oldPerm, newPerm⟩ := afterGet_metas tableOk found
      refine ⟨counted.sameHasher, ?_, ?_⟩
      · change cache.numValues = _
        rw [counted.numValues, oldPerm.length_eq, newPerm.length_eq,
          List.length_cons, List.length_cons]
      · intro other member
        rcases mem_afterGet tableOk found member with rfl | isOld
        · exact counted.small item (getMeta_sound found).1
        · exact counted.small other isOld

theorem createCache_counted
    (blocks : Nat → Slab)
    (maxmem : UInt64)
    (hasher : Option HashFunc) :
    Counted (hasher.getD hash) (createCache blocks maxmem hasher) where
  sameHasher := rfl
  numValues := by
    rw [createCache_metas]
    rfl
  small := by
    rw [createCache_metas]
    simp

theorem counted_of_run
    {blocks : Nat → Slab}
    {maxmem : UInt64}
    {hasher : Option HashFunc}
    {history : List Event}
    (run : Run Cache.Step (createCache blocks maxmem hasher) history cache) :
    TableOk cache ∧ Counted (hasher.getD hash) cache :=
  table_invariant (createCache_counted blocks maxmem hasher)
    (fun tableOk counted (_ : True) move => counted.move tableOk move)
    run (fun _ _ => trivial)

end Moves

/-! ## How many metas there can be -/

/-- Number of sets among the calls of a history. -/
def setCalls (history : List Event) : Nat :=
  history.countP fun event =>
    match event with
    | .set .. => true
    | _ => false

section Length

variable {key : CString} {cache after : Cache}

/-- A deletion adds no meta. -/
theorem cacheDelete_length_le
    (tableOk : TableOk cache)
    {code : UInt8}
    (returned : cacheDelete cache key = .ok (code, after)) :
    after.metas.length ≤ cache.metas.length := by
  rcases cacheDelete_cases returned with
      ⟨-, -, rfl⟩ | ⟨item, slabManager, found, -, -, rfl⟩
  · exact Nat.le_refl _
  · rw [← length_afterDelete tableOk found slabManager]
    exact Nat.le_succ _

/-- Making space adds no meta. -/
theorem makeSpace_length_le
    (tableOk : TableOk cache)
    {slabClass : Nat}
    {result : Option Nat}
    (returned : makeSpace cache slabClass = .ok (result, after)) :
    after.metas.length ≤ cache.metas.length := by
  rcases makeSpace_cases returned with
      ⟨address, search, -⟩ | ⟨searched, evicted, search, eviction, again⟩
  · rw [(freeSpace_sameTable search).metas]
  · have sameBefore := freeSpace_sameTable search
    rw [(freeSpace_sameTable again).metas, ← sameBefore.metas]
    rcases cacheEvict_cases eviction with
        ⟨-, rfl⟩ | ⟨victim, code, -, deletion⟩
    · exact Nat.le_refl _
    · exact cacheDelete_length_le (sameBefore.tableOk tableOk) deletion

/-- A set adds at most one meta. -/
theorem cacheSet_length_le
    (tableOk : TableOk cache)
    {val : Nat → UInt8}
    {valSize : UInt32}
    {code : UInt8}
    (returned : cacheSet cache key val valSize = .ok (code, after)) :
    after.metas.length ≤ cache.metas.length + 1 := by
  rcases cacheSet_cases returned with
      ⟨-, rfl⟩ | ⟨cleared, spaced, result, accepted, deletion, space, rest⟩
  · exact Nat.le_succ _
  · have admitted := admitted_of_setRefusal accepted
    obtain ⟨clearing, missing⟩ :=
      deleteOld_moves tableOk admitted deletion
    have clearedOk := tableOk.moves clearing
    obtain ⟨spacing, -⟩ :=
      makeSpace_moves clearedOk admitted space missing
    have clearedLength : cleared.metas.length ≤ cache.metas.length := by
      rcases deleteOld_cases deletion with
          ⟨-, rfl⟩ | ⟨item, code, -, deletion⟩
      · exact Nat.le_refl _
      · exact cacheDelete_length_le tableOk deletion
    have spacedLength : spaced.metas.length ≤ cache.metas.length :=
      (makeSpace_length_le clearedOk space).trans clearedLength
    rcases rest with ⟨-, -, rfl⟩ | ⟨address, -, storing, -⟩
    · exact spacedLength.trans (Nat.le_succ _)
    · obtain ⟨slabManager, -, rfl⟩ := storeValue_cases storing
      rw [length_afterStore (clearedOk.moves spacing)]
      exact Nat.succ_le_succ spacedLength

/-- One call adds at most as many metas as it makes sets. -/
theorem step_length_le
    (tableOk : TableOk cache)
    {event : Event}
    (step : cache.Step event after) :
    after.metas.length ≤ cache.metas.length + setCalls [event] := by
  cases event with
  | set key val valSize code =>
      obtain ⟨⟨result, next⟩, returned, rest⟩ := bind_eq_ok.mp step
      cases rest
      exact cacheSet_length_le tableOk returned
  | get key value size =>
      obtain ⟨⟨found, next⟩, returned, rest⟩ := bind_eq_ok.mp step
      cases rest
      rcases cacheGet_cases returned with
          ⟨-, -, rfl⟩ | ⟨item, present, -, rfl⟩
      · exact Nat.le_refl _
      · obtain ⟨rest, oldPerm, newPerm⟩ := afterGet_metas tableOk present
        rw [oldPerm.length_eq, newPerm.length_eq]
        exact Nat.le_refl _
  | delete key code =>
      obtain ⟨⟨result, next⟩, returned, rest⟩ := bind_eq_ok.mp step
      cases rest
      exact cacheDelete_length_le tableOk returned

/-- A run leaves at most as many metas as it made sets. -/
theorem length_le_setCalls
    {blocks : Nat → Slab}
    {maxmem : UInt64}
    {hasher : Option HashFunc}
    {history : List Event}
    (run : Run Cache.Step (createCache blocks maxmem hasher) history cache) :
    TableOk cache ∧ cache.metas.length ≤ setCalls history := by
  induction run with
  | nil =>
      refine ⟨createCache_tableOk blocks maxmem hasher, ?_⟩
      rw [createCache_metas]
      exact Nat.zero_le _
  | snoc earlier step inductionHypothesis =>
      obtain ⟨tableOk, bounded⟩ := inductionHypothesis
      refine ⟨tableOk.moves (step_moves tableOk step), ?_⟩
      have grows := step_length_le tableOk step
      unfold setCalls at grows bounded ⊢
      rw [List.countP_append]
      omega

end Length

/-! ## The table as a representation of the map -/

/--
The hash table represents the map from keys to values: every meta is in the
bucket of its key, no key occurs twice, and the two counts are right.
-/
structure Represents (hasher : HashFunc) (cache : Cache) : Prop where
  placed :
    ∀ position, ∀ item ∈ ChainedTable.bucketAt cache.buckets position,
      position = (hasher item.storedKey).toNat % cache.numBuckets
  distinct : (cache.metas.map Meta.storedKey).Nodup
  numValues : cache.numValues.toNat = cache.metas.length
  spaceUsed :
    ∃ domain : Finset CString,
      (∀ key, key ∈ domain ↔ cache.contents key ≠ none) ∧
        (cacheSpaceUsed cache).toNat =
          ∑ key ∈ domain, ((cache.contents key).getD []).length

section Represents

variable {cache : Cache}

/-- Keys that fit occur once each. -/
theorem TableOk.nodup_storedKey
    (tableOk : TableOk cache)
    (keysFit : KeysFit cache) :
    (cache.metas.map Meta.storedKey).Nodup := by
  rw [List.nodup_iff_count_le_one]
  intro key
  by_cases present : key ∈ cache.metas.map Meta.storedKey
  · obtain ⟨item, member, rfl⟩ := List.mem_map.mp present
    exact tableOk.unique _ (keysFit.admitted member)
  · rw [List.count_eq_zero.mpr present]
    exact Nat.zero_le _

/-- The sizes add up to the lengths of the values of all keys. -/
theorem totalSize_eq_sum
    (tableOk : TableOk cache)
    (keysFit : KeysFit cache) :
    cache.totalSize =
      ∑ key ∈ (cache.metas.map Meta.storedKey).toFinset,
        ((cache.contents key).getD []).length := by
  rw [List.sum_toFinset _ (tableOk.nodup_storedKey keysFit),
    List.map_map, Cache.totalSize]
  refine congrArg List.sum (List.map_congr_left ?_)
  intro item member
  have found : getMeta cache item.storedKey = some item :=
    (tableOk.getMeta_eq_some_iff (keysFit.admitted member)).mpr
      ⟨member, rfl⟩
  simp [Cache.contents, found, length_valueOf]

/-- The keys of the metas are the keys with a value. -/
theorem mem_storedKeys_iff
    (tableOk : TableOk cache)
    (keysFit : KeysFit cache)
    (key : CString) :
    key ∈ (cache.metas.map Meta.storedKey).toFinset ↔
      cache.contents key ≠ none := by
  rw [List.mem_toFinset, List.mem_map, Cache.contents, Ne,
    Option.map_eq_none_iff, ← Ne, Option.ne_none_iff_exists']
  constructor
  · rintro ⟨item, member, rfl⟩
    exact ⟨item, (tableOk.getMeta_eq_some_iff
      (keysFit.admitted member)).mpr ⟨member, rfl⟩⟩
  · rintro ⟨item, found⟩
    exact ⟨item, getMeta_sound found⟩

/-- Fewer than 2^32 metas are counted without overflow. -/
theorem Counted.represents
    {hasher : HashFunc}
    (counted : Counted hasher cache)
    (tableOk : TableOk cache)
    (keysFit : KeysFit cache)
    (few : cache.metas.length < 2 ^ 32) :
    Represents hasher cache := by
  have bounded : cache.totalSize ≤ cache.metas.length * getSlabSize := by
    have summed :=
      List.sum_le_card_nsmul (cache.metas.map Meta.size) getSlabSize
        (by simpa using counted.small)
    simpa [Cache.totalSize] using summed
  have slabSize : getSlabSize = 1050632 := by
    decide
  have noOverflow : cache.totalSize < 2 ^ 64 := by
    rw [slabSize] at bounded
    omega
  refine ⟨?_, tableOk.nodup_storedKey keysFit, ?_,
    (cache.metas.map Meta.storedKey).toFinset,
    mem_storedKeys_iff tableOk keysFit, ?_⟩
  · intro position item member
    rw [← counted.sameHasher]
    have filed : item ∈ cache.metas :=
      ChainedTable.mem_flatten_of_mem_bucketAt member
    exact (tableOk.placed position item member
      (keysFit.admitted filed)).symm
  · rw [counted.numValues, UInt32.toNat_ofNat',
      Nat.mod_eq_of_lt few]
  · rw [cacheSpaceUsed_eq, UInt64.toNat_ofNat',
      Nat.mod_eq_of_lt noOverflow, totalSize_eq_sum tableOk keysFit]

/-- A `uint32_t` counts no more metas. -/
theorem Represents.length_lt
    {hasher : HashFunc}
    (represents : Represents hasher cache) :
    cache.metas.length < 2 ^ 32 := by
  rw [← represents.numValues]
  exact cache.numValues.toNat_lt

/-- Values that fit their slots leave room for fewer than 2^32 metas. -/
theorem CacheOk.length_lt
    (ok : CacheOk [] cache) :
    cache.metas.length < 2 ^ 32 := by
  have slots := ok.granted.length_le
  rw [List.nil_append, List.length_map] at slots
  have slabs := ok.limits.numSlabs
  have memory := ok.limits.size_eq
  have bounded := ok.limits.size_le
  have limit := ok.limits.maxmem_le
  have slabSize : getSlabSize = 1050632 := by
    decide
  rw [slabSize] at memory
  unfold memorySize at slots
  omega

end Represents

/--
With keys of up to 31 bytes the table represents the map as long as it has fewer
than 2^32 metas.  It does in every run that makes fewer than 2^32 sets, and in
every run that sets only values that fit their slots.
-/
theorem table_represents_map
    {blocks : Nat → Slab}
    {maxmem : UInt64}
    {hasher : Option HashFunc}
    {history : List Event}
    {cache : Cache}
    (run : Run Cache.Step (createCache blocks maxmem hasher) history cache)
    (fits : ∀ event ∈ history, event.call.key.length ≤ 31) :
    (Represents (hasher.getD hash) cache ↔ cache.metas.length < 2 ^ 32) ∧
      (setCalls history < 2 ^ 32 ∨
          DisjointBlocks blocks ∧
            (∀ event ∈ history, event.Bounded) →
        Represents (hasher.getD hash) cache) := by
  obtain ⟨tableOk, counted⟩ := counted_of_run run
  have keysFit := keysFit_of_run run fits
  refine ⟨⟨Represents.length_lt, counted.represents tableOk keysFit⟩, ?_⟩
  intro counts
  apply counted.represents tableOk keysFit
  rcases counts with few | ⟨disjoint, bounded⟩
  · exact Nat.lt_of_le_of_lt (length_le_setCalls run).2 few
  · exact (cacheOk_of_run disjoint run bounded).1.length_lt

/-- The counts after a set, an overwrite and a second key. -/
theorem table_represents_map_two_metas :
    ∃ (history : List Event) (cache : Cache),
      history.map Event.call =
          [.set (CString.ofText "a") (bytesAt []) 64,
            .set (CString.ofText "b") (bytesAt []) 1,
            .set (CString.ofText "a") (bytesAt []) 40] ∧
        Run Cache.Step (createCache zeroBlocks 0 none) history cache ∧
        cache.numValues = 2 ∧ cacheSpaceUsed cache = 41 ∧
        Represents hash cache := by
  obtain ⟨history, cache, calls, run, seen⟩ :=
    exists_run (by
      decide +kernel :
      returnsSuch
        ((createCache zeroBlocks 0 none).performAll
          [.set (CString.ofText "a") (bytesAt []) 64,
            .set (CString.ofText "b") (bytesAt []) 1,
            .set (CString.ofText "a") (bytesAt []) 40])
        (fun result =>
          result.2.numValues == 2 && cacheSpaceUsed result.2 == 41) = true)
  simp only [Bool.and_eq_true, beq_iff_eq] at seen
  have shortKeys :=
    forall_call (fun call => call.key.length ≤ 31) calls (by decide)
  have bounded := bounded_of_calls calls (by decide)
  exact ⟨history, cache, calls, run, seen.1, seen.2,
    (table_represents_map run shortKeys).2
      (Or.inr ⟨zeroBlocks_disjoint, bounded⟩)⟩

/-! ## Values past their slots -/

/--
A value whose last bytes lie over the slab's class and its first status word.
It gives the class back and marks the slot it was copied to as free.
-/
def releasing (position : Nat) : UInt8 :=
  if position = 2 ^ 20 + 2 then 16 else 0

/-- A slab of the largest class whose one slot is marked free. -/
structure Released (slab : Slab) : Prop where
  slabClass : slab.slabClass = memorySize
  isFull : slab.isFull = 0
  status : slab.status[0] = 0#32

namespace Released

variable {slab : Slab} {man : Manager}

/-- The slot of the slab is found free. -/
theorem getFreeIndex_eq
    (released : Released slab) :
    getFreeIndex slab = 1 := by
  have shape : ∃ rest, slab.status.toList = 0#32 :: rest := by
    cases words : slab.status.toList with
    | nil =>
        have size : slab.status.toList.length = 512 := by
          simp
        rw [words] at size
        cases size
    | cons head rest =>
        have isHead : slab.status.toList[0]? = some head := by
          rw [words]
          rfl
        rw [Vector.getElem?_toList,
          Vector.getElem?_eq_getElem (by decide), released.status,
          Option.some.injEq] at isHead
        exact ⟨rest, by rw [isHead]⟩
  obtain ⟨rest, shape⟩ := shape
  rw [getFreeIndex, shape, getFreeIndexFrom, if_neg (by decide),
    if_pos rfl]

/-- The slot of the slab is handed out. -/
theorem getAddress_eq
    (released : Released slab)
    (classes : man.classes = defaultClasses)
    (slabs : man.slabs = [slab]) :
    getAddress man memorySize =
      .ok (some slab.addr,
        { man with
          slabs :=
            [{ slab with
              status := Bitmap.toggle slab.status 0 (by decide) }] }) := by
  have selects : getSlabClass man memorySize = memorySize := by
    rw [getSlabClass, classes]
    decide
  have isOpen : isOpen slab memorySize = true := by
    simp [CacheBench.isOpen, released.slabClass, released.isFull]
  have found : getSlab man memorySize = some slab := by
    simp [getSlab, llFind, slabs, isOpen]
  rw [getAddress, getAddressWithin]
  simp only [selects, found, released.getFreeIndex_eq]
  rw [if_neg (by decide), toggleBit_eq_ok slab (by decide)]
  simp [bind, Except.bind, llUpdate, FirstMatch.updateFirst, slabs, isOpen]

/-- A copy of the value leaves the slab with its slot free again. -/
theorem write
    (released : Released slab)
    (status : Vector (BitVec 32) 512) :
    Released
      ({ slab with status := status }.write 0 1048584 releasing) := by
  rw [Slab.write, if_neg (by decide)]
  refine ⟨?_, ?_, ?_⟩
  · simp [Slab.ofBytes, leWord, Slab.overlay, classOffset, memorySize,
      releasing]
  · simp [Slab.ofBytes, Slab.overlay, Slab.byteAt, isFullOffset,
      statusOffset, statusWords, classOffset, memorySize, released.isFull]
  · simp [Slab.ofBytes, leWord, Slab.overlay, statusOffset, classOffset,
      memorySize, releasing]

end Released

/-- The value is copied over the whole memory of the slab and beyond. -/
theorem memcpy_releasing
    {man : Manager}
    {slab : Slab}
    (slabs : man.slabs = [slab]) :
    man.memcpy slab.addr releasing 1048584 =
      .ok { man with slabs := [slab.write 0 1048584 releasing] } := by
  have inBlock : findVal slab slab.addr = true := by
    simp [findVal, getSlabSize]
  rw [Manager.memcpy, if_neg (by decide), slabs]
  simp only [llFind, List.find?_cons, inBlock, Nat.sub_self, llUpdate,
    FirstMatch.updateFirst]
  rw [if_pos (by decide)]
  rfl

/-- A cache with one slab of the largest class, its slot marked free. -/
structure Refillable (cache : Cache) : Prop where
  maxmem : cache.maxmem = 2101264
  classes : cache.slabManager.classes = defaultClasses
  slab : ∃ slab, cache.slabManager.slabs = [slab] ∧ Released slab

/-- One more key is set, and the cache can be filled further. -/
theorem Refillable.cacheSet
    {cache : Cache}
    {key : CString}
    (refillable : Refillable cache)
    (admitted : Admitted key)
    (missing : getMeta cache key = none) :
    ∃ spaced address slabManager,
      SameTable cache spaced ∧
        cacheSet cache key releasing 1048584 =
          .ok (0, afterStore spaced key 1048584 memorySize address
            slabManager) ∧
        Refillable
          (afterStore spaced key 1048584 memorySize address
            slabManager) := by
  obtain ⟨slab, slabs, released⟩ := refillable.slab
  have accepted : setRefusal cache key releasing 1048584 = none := by
    have short : ¬ 32 < key.length := Nat.not_lt_of_le admitted
    rw [setRefusal, refusalWithin, refillable.maxmem, if_neg short, if_neg (by decide),
      if_neg (by decide), if_neg (by decide)]
  have selects :
      getSlabClass cache.slabManager (1048584 : UInt32).toNat =
        memorySize := by
    rw [getSlabClass, refillable.classes]
    decide
  let taken : Slab :=
    { slab with status := Bitmap.toggle slab.status 0 (by decide) }
  let spaced : Cache :=
    { cache with
      slabManager := { cache.slabManager with slabs := [taken] } }
  have space :
      makeSpace cache memorySize = .ok (some slab.addr, spaced) := by
    simp only [makeSpace, freeSpace, bind, Except.bind,
      released.getAddress_eq refillable.classes slabs]
    rfl
  have copied :
      spaced.slabManager.memcpy slab.addr releasing
          (1048584 : UInt32).toNat =
        .ok { spaced.slabManager with
          slabs := [taken.write 0 1048584 releasing] } :=
    memcpy_releasing (rfl : spaced.slabManager.slabs = [taken])
  refine ⟨spaced, slab.addr,
    { spaced.slabManager with
      slabs := [taken.write 0 1048584 releasing] }, ⟨rfl, rfl, rfl, rfl, rfl⟩, ?_,
    ⟨refillable.maxmem, refillable.classes, _, rfl, released.write _⟩⟩
  rw [CacheBench.cacheSet, accepted]
  simp only [deleteOld, missing, bind, Except.bind, selects, space,
    storeValue_eq, copied]
  rfl

/-- The key of a number: its digits to the base 128, none of them NUL. -/
def numberKey (number : Nat) : CString where
  bytes :=
    (List.range 5).map fun position =>
      UInt8.ofNat (number / 128 ^ position % 128 + 1)
  noNul := by
    intro isNul
    obtain ⟨position, -, isZero⟩ := List.mem_map.mp isNul
    have asNat := congrArg UInt8.toNat isZero
    rw [UInt8.toNat_ofNat'] at asNat
    change _ = 0 at asNat
    omega

@[simp] theorem length_numberKey (number : Nat) :
    (numberKey number).length = 5 := by
  simp [CString.length, numberKey]

/-- Different numbers have different keys. -/
theorem numberKey_injective
    {first second : Nat}
    (firstSmall : first < 2 ^ 35)
    (secondSmall : second < 2 ^ 35)
    (same : numberKey first = numberKey second) :
    first = second := by
  have digits (position : Nat) (inKey : position ∈ List.range 5) :
      first / 128 ^ position % 128 = second / 128 ^ position % 128 := by
    have sameBytes := congrArg CString.bytes same
    simp only [numberKey, List.map_inj_left] at sameBytes
    have sameByte := sameBytes position inKey
    have asNat := congrArg UInt8.toNat sameByte
    rw [UInt8.toNat_ofNat', UInt8.toNat_ofNat'] at asNat
    omega
  have digit0 := digits 0 (by decide)
  have digit1 := digits 1 (by decide)
  have digit2 := digits 2 (by decide)
  have digit3 := digits 3 (by decide)
  have digit4 := digits 4 (by decide)
  omega

/-- The cache after the first `count` numbers were set as keys. -/
structure Overfilled (count : Nat) (cache : Cache) : Prop where
  refillable : Refillable cache
  table : TableOk cache
  length : cache.metas.length = count
  keys :
    ∀ item ∈ cache.metas, ∃ number < count,
      item.storedKey = numberKey number

/-- The set of the next number as a key. -/
theorem Overfilled.next
    {count : Nat}
    {cache : Cache}
    (overfilled : Overfilled count cache)
    (small : count < 2 ^ 35) :
    ∃ after,
      cacheSet cache (numberKey count) releasing 1048584 =
          .ok (0, after) ∧
        Overfilled (count + 1) after := by
  have admitted : Admitted (numberKey count) := by
    simp [Admitted]
  have missing : getMeta cache (numberKey count) = none := by
    rw [overfilled.table.getMeta_eq_none_iff admitted]
    intro item member same
    obtain ⟨number, below, isKey⟩ := overfilled.keys item member
    have := numberKey_injective (below.trans small) small
      (isKey.symm.trans same)
    omega
  obtain ⟨spaced, address, slabManager, sameTable, returned, refillable⟩ :=
    overfilled.refillable.cacheSet admitted missing
  have spacedOk := sameTable.tableOk overfilled.table
  have stillMissing := (sameTable.getMeta (numberKey count)).trans missing
  refine ⟨_, returned, refillable,
    spacedOk.afterStore admitted stillMissing slabManager, ?_, ?_⟩
  · rw [length_afterStore spacedOk, sameTable.metas, overfilled.length]
  · intro item member
    rcases mem_afterStore spacedOk member with
        rfl | ⟨before, beforeMember, rfl⟩
    · exact ⟨count, Nat.lt_succ_self count,
        storedKey_of_lt (by simp) newMeta_key⟩
    · rw [sameTable.metas] at beforeMember
      obtain ⟨number, below, isKey⟩ := overfilled.keys before beforeMember
      exact ⟨number, Nat.lt_succ_of_lt below,
        (tick_storedKey before).trans isKey⟩

/-- The first number is set as a key of a new cache. -/
theorem exists_overfilled_one :
    ∃ after,
      cacheSet (createCache zeroBlocks 0 none) (numberKey 0) releasing
          1048584 = .ok (0, after) ∧
        Overfilled 1 after := by
  obtain ⟨⟨code, after⟩, returned, seen⟩ :=
    exists_of_returnsSuch (by
      decide +kernel :
      returnsSuch
        (cacheSet (createCache zeroBlocks 0 none) (numberKey 0) releasing
          1048584)
        (fun result =>
          result.1 == 0 && result.2.maxmem == 2101264 &&
            result.2.slabManager.classes == defaultClasses &&
            result.2.metas.map Meta.storedKey == [numberKey 0] &&
            result.2.slabManager.slabs.map (fun slab =>
                (slab.slabClass, slab.isFull, slab.status[0])) ==
              [(memorySize, 0, 0#32)]) = true)
  simp only [Bool.and_eq_true, beq_iff_eq, List.map_eq_singleton_iff]
    at seen
  obtain ⟨⟨⟨⟨rfl, maxmem⟩, classes⟩, item, metas, isKey⟩, slab, slabs,
    fields⟩ := seen
  simp only [Prod.mk.injEq] at fields
  have tableOk := createCache_tableOk zeroBlocks 0 none
  refine ⟨after, returned,
    ⟨maxmem, classes, slab, slabs, fields.1, fields.2.1, fields.2.2⟩,
    tableOk.moves (cacheSet_moves tableOk returned), ?_, ?_⟩
  · rw [metas]
    rfl
  · intro other member
    rw [metas, List.mem_singleton] at member
    exact ⟨0, Nat.one_pos, by rw [member, isKey]⟩

/-- As many numbers as wanted are set as keys. -/
theorem exists_overfilled
    {count : Nat}
    (small : count < 2 ^ 35) :
    ∃ history cache,
      Run Cache.Step (createCache zeroBlocks 0 none) history cache ∧
        (∀ event ∈ history, event.call.key.length ≤ 31) ∧
        Overfilled (count + 1) cache := by
  have step {cache after : Cache} {key : CString}
      (returned :
        cacheSet cache key releasing 1048584 = .ok (0, after)) :
      cache.Step (.set key releasing 1048584 0) after :=
    bind_eq_ok.mpr ⟨_, returned, rfl⟩
  induction count with
  | zero =>
      obtain ⟨after, returned, overfilled⟩ := exists_overfilled_one
      refine ⟨_, after, .snoc .nil (step returned), ?_, overfilled⟩
      simp [Event.call, Call.key]
  | succ count inductionHypothesis =>
      obtain ⟨history, cache, run, fits, overfilled⟩ :=
        inductionHypothesis (Nat.lt_of_succ_lt small)
      obtain ⟨after, returned, overfilled⟩ := overfilled.next small
      refine ⟨_, after, .snoc run (step returned), ?_, overfilled⟩
      intro event member
      rcases List.mem_append.mp member with earlier | last
      · exact fits event earlier
      · rw [List.mem_singleton.mp last]
        simp [Event.call, Call.key]

/--
After 2^32 sets of values that are too large for their slots the table has 2^32
metas and `num_values` is 0.
-/
theorem num_values_wraps :
    ∃ (history : List Event) (cache : Cache),
      Run Cache.Step (createCache zeroBlocks 0 none) history cache ∧
        (∀ event ∈ history, event.call.key.length ≤ 31) ∧
        cache.metas.length = 2 ^ 32 ∧
        cache.numValues = 0 ∧
        ¬ Represents hash cache := by
  obtain ⟨history, cache, run, fits, overfilled⟩ :=
    exists_overfilled (by decide : 2 ^ 32 - 1 < 2 ^ 35)
  have length : cache.metas.length = 2 ^ 32 := overfilled.length
  have counted := (counted_of_run run).2
  have isZero : cache.numValues = 0 := by
    rw [counted.numValues, length]
    decide
  refine ⟨history, cache, run, fits, length, isZero, ?_⟩
  intro represents
  have counts := represents.numValues
  rw [isZero, length] at counts
  exact absurd counts (by decide)

end CacheBench
