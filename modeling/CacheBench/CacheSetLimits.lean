import CacheBench.SlotOwnership

namespace CacheBench

open Manager Execution

/-!
# The limits `cache_set` checks

`cache_set` admits values of up to `sizeof(slab_obj)` bytes and keys of up to
32 bytes.  The slots of a slab end at 2^20 bytes and the key field has room for
31 bytes and a terminator.  This module proves what a set guarantees below the
two smaller limits, and what goes wrong between them and the ones checked.
-/

/-- The state in which a set calls `memcpy`, the class and the address. -/
inductive Copies
    (cache : Cache)
    (key : CString)
    (val : Nat → UInt8)
    (valSize : UInt32) :
    Cache → Nat → Nat → Prop where
  | intro
      {cleared spaced : Cache}
      {address : Nat}
      (accepted : setRefusal cache key val valSize = none)
      (deleted : deleteOld cache key = .ok cleared)
      (space :
        makeSpace cleared
            (getSlabClass cleared.slabManager valSize.toNat) =
          .ok (some address, spaced)) :
      Copies cache key val valSize spaced
        (getSlabClass cleared.slabManager valSize.toNat) address

section Copies

variable {cache spaced after : Cache} {key : CString}
variable {val : Nat → UInt8} {valSize : UInt32}
variable {slabClass address : Nat}

/-- A set that returns 0 has copied. -/
theorem exists_copies
    (returned : cacheSet cache key val valSize = .ok (0, after)) :
    ∃ spaced slabClass address,
      Copies cache key val valSize spaced slabClass address ∧
        storeValue spaced key val valSize.toNat slabClass address =
          .ok after := by
  rcases cacheSet_cases returned with
      ⟨refusal, -⟩ |
      ⟨cleared, spaced, result, accepted, deletion, space, rest⟩
  · exact ((setRefusal_code refusal).1 rfl).elim
  · rcases rest with ⟨-, impossible, -⟩ | ⟨address, rfl, storing, -⟩
    · cases impossible
    · exact ⟨spaced, _, address, .intro accepted deletion space, storing⟩

/-- The table is still in order when the value is copied. -/
theorem Copies.tableOk
    (copies : Copies cache key val valSize spaced slabClass address)
    (tableOk : TableOk cache) :
    TableOk spaced := by
  cases copies with
  | intro accepted deleted space =>
      have admitted := admitted_of_setRefusal accepted
      obtain ⟨clearing, missing⟩ :=
        deleteOld_moves tableOk admitted deleted
      have clearedOk := tableOk.moves clearing
      obtain ⟨spacing, -⟩ :=
        makeSpace_moves clearedOk admitted space missing
      exact clearedOk.moves spacing

/-- The slot a set copies into is pending, and its key is not filed. -/
theorem Copies.pending
    (ok : CacheOk [] cache)
    (copies : Copies cache key val valSize spaced slabClass address) :
    slabClass = classOf valSize.toNat ∧
      CacheOk [⟨address, classOf valSize.toNat⟩] spaced ∧
      spaced.slabManager.blocks = cache.slabManager.blocks ∧
      Admitted key ∧ getMeta spaced key = none := by
  cases copies with
  | intro accepted deleted space =>
      have admitted := admitted_of_setRefusal accepted
      obtain ⟨cleared, deletion, clearedOk, clearing⟩ := ok.deleteOld key
      rw [deleted] at deletion
      cases deletion
      have selects :=
        clearedOk.granted.wellFormed.getSlabClass_eq valSize.toNat
      rw [selects] at space ⊢
      obtain ⟨result, spaced', expected, spacedOk, spacing⟩ :=
        clearedOk.makeSpace (isClass_classOf valSize.toNat)
      obtain ⟨-, missing⟩ :=
        makeSpace_moves clearedOk.table admitted space
          (clearing.missing ok admitted)
      rw [space] at expected
      cases expected
      exact ⟨rfl, spacedOk, spacing.blocks.trans clearing.blocks,
        admitted, missing⟩

end Copies

/-! ## The size of a value -/

/--
The copy stays inside the slot reserved for it: the slot is in use, the bytes
copied end no later than the slot, and neither another live value nor a slab's
own fields change.
-/
structure CopyInside
    (spaced : Cache)
    (val : Nat → UInt8)
    (valSize slabClass address : Nat) : Prop where
  slot :
    ∃ slot,
      spaced.slabManager.SlotInUse slot ∧
        spaced.slabManager.SlotAt slot address ∧
        spaced.slabManager.classAt slot.1 = some slabClass
  inside : address + valSize ≤ address + slabClass
  otherValues :
    ∀ {after}, spaced.slabManager.memcpy address val valSize = .ok after →
      ∀ item ∈ spaced.metas, ∀ offset < item.size,
        after.byteAt (item.address + offset) =
          spaced.slabManager.byteAt (item.address + offset)
  slabFields :
    ∀ {after}, spaced.slabManager.memcpy address val valSize = .ok after →
      ∀ number : Nat,
        after.slabs[number]?.map
            (fun slab => (slab.slabClass, slab.status, slab.isFull)) =
          spaced.slabManager.slabs[number]?.map
            (fun slab => (slab.slabClass, slab.status, slab.isFull))

section Size

variable {cache after : Cache} {key : CString}
variable {val : Nat → UInt8} {valSize : UInt32}

/-- Equal classes, statuses and flags of every slab, taken together. -/
private theorem sameFields
    {man other : Manager}
    (same : SameStatus man other)
    (number : Nat) :
    other.slabs[number]?.map
        (fun slab => (slab.slabClass, slab.status, slab.isFull)) =
      man.slabs[number]?.map
        (fun slab => (slab.slabClass, slab.status, slab.isFull)) := by
  have sameClass :
      other.slabs[number]?.map Slab.slabClass =
        man.slabs[number]?.map Slab.slabClass := same.classAt number
  have sameStatus := same.status number
  have sameFlag := same.isFull number
  cases before : man.slabs[number]? with
  | none =>
      rw [before] at sameClass
      simp only [Option.map_none, Option.map_eq_none_iff] at sameClass
      rw [sameClass]
  | some slab =>
      rw [before] at sameClass sameStatus sameFlag
      obtain ⟨later, present, isClass⟩ := Option.map_eq_some_iff.mp sameClass
      rw [present] at sameStatus sameFlag ⊢
      simp only [Option.map_some, Option.some.injEq] at sameStatus sameFlag ⊢
      rw [isClass, sameStatus, sameFlag]

/-- A value of up to 2^20 bytes is copied inside its slot. -/
theorem copyInside_of_le
    (ok : CacheOk [] cache)
    (bounded : valSize.toNat ≤ 2 ^ 20)
    {spaced : Cache}
    {slabClass address : Nat}
    (copies : Copies cache key val valSize spaced slabClass address) :
    CopyInside spaced val valSize.toNat slabClass address := by
  obtain ⟨rfl, spacedOk, -, -, -⟩ := copies.pending ok
  have fits := le_classOf bounded
  have wellFormed := spacedOk.granted.wellFormed
  obtain ⟨number, item, occupied, isAddress⟩ :=
    spacedOk.granted.held (List.mem_cons_self)
  obtain ⟨expected, copied, status, -, bytes, -⟩ :=
    spacedOk.granted.memcpy fits val
  have isExpected {after : Manager}
      (returned :
        spaced.slabManager.memcpy address val valSize.toNat = .ok after) :
      after = expected := by
    rw [copied] at returned
    cases returned
    rfl
  refine ⟨⟨(number, item), occupied.slotInUse, ?_, occupied.hasClass⟩,
    by omega, ?_, ?_⟩
  · have isAddress :
        address =
          spaced.slabManager.slotAddress number (classOf valSize.toNat)
            item := isAddress
    rw [isAddress]
    exact occupied.slotAt wellFormed
  · intro after returned other member offset inside
    rw [isExpected returned]
    exact bytes other.grant (List.mem_map_of_mem member) offset
      (Nat.lt_of_lt_of_le inside (spacedOk.fits other member))
  · intro after returned number
    rw [isExpected returned]
    exact sameFields status number

/-- A copy that stays inside its slot is of at most 2^20 bytes. -/
theorem le_of_copyInside
    (ok : CacheOk [] cache)
    {spaced : Cache}
    {slabClass address : Nat}
    (copies : Copies cache key val valSize spaced slabClass address)
    (inside : CopyInside spaced val valSize.toNat slabClass address) :
    valSize.toNat ≤ 2 ^ 20 := by
  obtain ⟨rfl, -, -, -, -⟩ := copies.pending ok
  have ends := inside.inside
  have largest :=
    (isClass_classOf valSize.toNat).le_memorySize
  unfold memorySize at largest
  omega

/--
In every run with values of up to 2^20 bytes, a set that returns 0 has copied
inside its slot exactly when its own value is of at most 2^20 bytes.
-/
theorem copy_inside_slot_iff
    {blocks : Nat → Slab}
    (disjoint : DisjointBlocks blocks)
    {maxmem : UInt64}
    {hasher : Option HashFunc}
    {history : List Event}
    (run : Run Cache.Step (createCache blocks maxmem hasher) history cache)
    (bounded : ∀ event ∈ history, event.Bounded)
    (returned : cacheSet cache key val valSize = .ok (0, after)) :
    (∀ {spaced slabClass address},
      Copies cache key val valSize spaced slabClass address →
        CopyInside spaced val valSize.toNat slabClass address) ↔
      valSize.toNat ≤ 2 ^ 20 := by
  obtain ⟨ok, -⟩ := cacheOk_of_run disjoint run bounded
  constructor
  · intro allInside
    obtain ⟨spaced, slabClass, address, copies, -⟩ :=
      exists_copies returned
    exact le_of_copyInside ok copies (allInside copies)
  · intro fits spaced slabClass address copies
    exact copyInside_of_le ok fits copies

/-- The first set of a new cache, of 64 bytes. -/
theorem copy_inside_slot_of_64 :
    ∃ after : Cache,
      cacheSet (createCache zeroBlocks 0 none) (CString.ofText "a")
          (bytesAt []) 64 = .ok (0, after) ∧
        ∀ {spaced slabClass address},
          Copies (createCache zeroBlocks 0 none) (CString.ofText "a")
              (bytesAt []) 64 spaced slabClass address →
            CopyInside spaced (bytesAt []) 64 slabClass address := by
  obtain ⟨⟨code, after⟩, returned, isZero⟩ :=
    exists_of_returnsSuch (by
      decide +kernel :
      returnsSuch
        (cacheSet (createCache zeroBlocks 0 none) (CString.ofText "a")
          (bytesAt []) 64)
        (fun result => result.1 == 0) = true)
  have isZero : code = 0 := by
    simpa using isZero
  subst code
  exact ⟨after, returned,
    (copy_inside_slot_iff zeroBlocks_disjoint .nil (by simp) returned).mpr
      (by decide)⟩

/--
A value of 2^20 + 4 zero bytes is admitted and copied past its slot: the copy
overwrites the slab's class with 0.
-/
theorem copy_past_slot :
    ∃ after : Cache,
      cacheSet (createCache zeroBlocks 0 none) (CString.ofText "a")
          (bytesAt []) 1048580 = .ok (0, after) ∧
        after.slabManager.slabs.map Slab.slabClass = [0] ∧
        ¬ ∀ {spaced slabClass address},
          Copies (createCache zeroBlocks 0 none) (CString.ofText "a")
              (bytesAt []) 1048580 spaced slabClass address →
            CopyInside spaced (bytesAt []) 1048580 slabClass address := by
  obtain ⟨⟨code, after⟩, returned, seen⟩ :=
    exists_of_returnsSuch (by
      decide +kernel :
      returnsSuch
        (cacheSet (createCache zeroBlocks 0 none) (CString.ofText "a")
          (bytesAt []) 1048580)
        (fun result =>
          result.1 == 0 &&
            result.2.slabManager.slabs.map Slab.slabClass == [0]) = true)
  simp only [Bool.and_eq_true, beq_iff_eq] at seen
  obtain ⟨rfl, classes⟩ := seen
  refine ⟨after, returned, classes, ?_⟩
  intro allInside
  have ok := createCache_ok zeroBlocks_disjoint 0 none
  obtain ⟨spaced, slabClass, address, copies, -⟩ := exists_copies returned
  have bounded := le_of_copyInside ok copies (allInside copies)
  exact absurd bounded (by decide)

end Size

/-! ## The length of a key -/

/-- The value is a C string of `valSize` bytes, its terminator included. -/
def IsString (val : Nat → UInt8) (valSize : UInt32) : Prop :=
  ∃ string : CString,
    bytesFrom val 0 valSize.toNat = string.bytes ++ [0]

/--
What a client expects right after a set: the value can be got and deleted, it
can be set once more, and a further set leaves exactly one meta of the key.
-/
structure FoundAgain
    (cache : Cache)
    (key : CString)
    (val : Nat → UInt8)
    (valSize : UInt32) : Prop where
  get :
    ∃ address final,
      cacheGet cache key =
          .ok ({ address := some address, size := valSize.toNat },
            final) ∧
        bytesFrom final.slabManager.byteAt address valSize.toNat =
          bytesFrom val 0 valSize.toNat
  delete : ∃ final, cacheDelete cache key = .ok (0, final)
  again : ∃ final, cacheSet cache key val valSize = .ok (0, final)
  one :
    ∀ {newVal newSize final},
      cacheSet cache key newVal newSize = .ok (0, final) →
        (final.metas.map Meta.storedKey).count key = 1

section Key

variable {cache after : Cache} {key : CString}
variable {val : Nat → UInt8} {valSize : UInt32}

/-- A set that returned 0 has filed a meta for the key at the address. -/
theorem exists_afterStore
    (returned : cacheSet cache key val valSize = .ok (0, after)) :
    ∃ spaced slabClass address slabManager,
      Copies cache key val valSize spaced slabClass address ∧
        spaced.slabManager.memcpy address val valSize.toNat =
          .ok slabManager ∧
        after =
          afterStore spaced key valSize.toNat slabClass address
            slabManager := by
  obtain ⟨spaced, slabClass, address, copies, storing⟩ :=
    exists_copies returned
  obtain ⟨slabManager, copied, isAfter⟩ := storeValue_cases storing
  exact ⟨spaced, slabClass, address, slabManager, copies, copied, isAfter⟩

/-- After a set that returns 0, a short key has exactly one meta. -/
theorem count_storedKey_eq_one
    (tableOk : TableOk cache)
    (fits : key.length ≤ 31)
    (returned : cacheSet cache key val valSize = .ok (0, after)) :
    (after.metas.map Meta.storedKey).count key = 1 := by
  have afterOk := tableOk.moves (cacheSet_moves tableOk returned)
  obtain ⟨spaced, slabClass, address, slabManager, copies, -, rfl⟩ :=
    exists_afterStore returned
  have atMost := afterOk.unique key (Nat.le_succ_of_le fits)
  refine Nat.le_antisymm atMost (List.count_pos_iff.mpr ?_)
  exact List.mem_map.mpr
    ⟨_, newMeta_mem_afterStore (copies.tableOk tableOk) slabManager,
      storedKey_of_lt (Nat.lt_succ_of_le fits) newMeta_key⟩

/-- A short key is found again. -/
theorem foundAgain_of_short
    (ok : CacheOk [] cache)
    (fits : key.length ≤ 31)
    (isString : IsString val valSize)
    (bounded : valSize.toNat ≤ 2 ^ 20)
    (returned : cacheSet cache key val valSize = .ok (0, after)) :
    FoundAgain after key val valSize := by
  have admitted : Admitted key := Nat.le_succ_of_le fits
  obtain ⟨code, after', expected, afterOk, -⟩ :=
    ok.cacheSet key val bounded
  rw [returned] at expected
  cases expected
  obtain ⟨string, isString⟩ := isString
  obtain ⟨spaced, slabClass, address, slabManager, copies, copied, rfl⟩ :=
    exists_afterStore returned
  obtain ⟨rfl, spacedOk, -, -, missing⟩ := copies.pending ok
  obtain ⟨sameManager, copiedAgain, -, -, filed⟩ :=
    CacheOk.storeValue spacedOk admitted missing bounded val
  rw [copied] at copiedAgain
  cases copiedAgain
  have ownKey :
      (newMeta spaced key valSize.toNat (classOf valSize.toNat)
        address).storedKey = key :=
    storedKey_of_lt (Nat.lt_succ_of_le fits) newMeta_key
  have found :
      getMeta
          (afterStore spaced key valSize.toNat (classOf valSize.toNat)
            address slabManager)
          key =
        some (newMeta spaced key valSize.toNat (classOf valSize.toNat)
          address) := by
    rw [getMeta_afterStore spacedOk.table admitted missing slabManager
      admitted, if_pos ownKey]
  refine ⟨?_, ?_, ?_, ?_⟩
  · exact ⟨address, _, afterOk.cacheGet found
      (filed.stored.trans isString), filed.stored⟩
  · obtain ⟨freedManager, deletion, -, -⟩ := afterOk.cacheDelete found
    exact ⟨_, deletion⟩
  · have accepted :=
      afterOk.limits.setRefusal_eq_none admitted bounded isString
    obtain ⟨cleared, result, spacedAgain, clearing, clearedOk, spacing,
        spacedAgainOk, stillMissing, setAgain⟩ :=
      afterOk.cacheSet_space accepted
    have notExhausted :
        ¬ cleared.slabManager.Exhausted (classOf valSize.toNat) := by
      cases clearing with
      | absent absent =>
          rw [found] at absent
          cases absent
      | deleted present freed =>
          rw [found, Option.some.injEq] at present
          subst present
          exact freed.notExhausted
    obtain ⟨newAddress, rfl⟩ := spacing.of_not_exhausted notExhausted
    obtain ⟨newManager, -, storing, -, -⟩ :=
      CacheOk.storeValue spacedAgainOk admitted stillMissing bounded val
    exact ⟨_, by
      rw [setAgain]
      simp only [storing]
      rfl⟩
  · intro newVal newSize final setAgain
    exact count_storedKey_eq_one afterOk.table fits setAgain

/-- A value that passes the checks is copied without leaving its block. -/
theorem CacheOk.storeValue_returns
    (ok : CacheOk [⟨address, classOf valSize.toNat⟩] cache)
    (small : valSize.toNat ≤ getSlabSize)
    (key : CString)
    (val : Nat → UInt8) :
    ∃ after,
      CacheBench.storeValue cache key val valSize.toNat
          (classOf valSize.toNat) address =
        .ok after := by
  have copied :
      ∃ slabManager,
        cache.slabManager.memcpy address val valSize.toNat =
          .ok slabManager := by
    rcases Nat.lt_or_ge memorySize valSize.toNat with large | fits
    · rw [← defaultTable_largest] at large
      have largest : classOf valSize.toNat = memorySize :=
        (defaultTable.select_of_largest_lt large).trans
          defaultTable_largest
      exact ok.granted.memcpy_returns largest small val
    · obtain ⟨slabManager, copied, -⟩ :=
        ok.granted.memcpy (le_classOf fits) val
      exact ⟨slabManager, copied⟩
  obtain ⟨slabManager, copied⟩ := copied
  rw [storeValue_eq, copied]
  exact ⟨_, rfl⟩

/-- The first set of a new cache that passes the checks finds space. -/
theorem exists_set_of_new
    {maxmem : UInt64}
    {hasher : Option HashFunc}
    (canGrow : (createCache zeroBlocks maxmem hasher).CanGrow)
    (accepted :
      setRefusal (createCache zeroBlocks maxmem hasher) key val valSize =
        none) :
    ∃ after,
      cacheSet (createCache zeroBlocks maxmem hasher) key val valSize =
        .ok (0, after) := by
  have ok := createCache_ok zeroBlocks_disjoint maxmem hasher
  obtain ⟨cleared, result, spaced, clearing, clearedOk, spacing, spacedOk,
      missing, returned⟩ := ok.cacheSet_space accepted
  have isNew : cleared = createCache zeroBlocks maxmem hasher := by
    cases clearing with
    | absent => rfl
    | deleted found =>
        rw [getMeta_of_no_metas (createCache_metas _ _ _)] at found
        cases found
  subst cleared
  have notFull {searched : Cache} :
      ¬ Searched (createCache zeroBlocks maxmem hasher)
        (classOf valSize.toNat) none searched := by
    intro full
    have hasSlot : 0 < capacity (classOf valSize.toNat) :=
      (isClass_classOf valSize.toNat).capacity_pos
    exact (full.none_iff.mp rfl).2 canGrow
      ⟨0, hasSlot, freshBit_zeros _ hasSlot⟩
  have found : ∃ address, result = some address := by
    cases spacing with
    | direct found => exact ⟨_, rfl⟩
    | kept full noVictim again => exact (notFull full).elim
    | lost full chosen notFound again => exact (notFull full).elim
    | evicted full chosen found freed trimmedOk again =>
        exact (notFull full).elim
  obtain ⟨address, rfl⟩ := found
  obtain ⟨after, storing⟩ :=
    spacedOk.storeValue_returns (small_of_setRefusal accepted) key val
  exact ⟨after, by
    rw [returned]
    simp only [storing]
    rfl⟩

/-- A new cache takes the empty string under every key that is admitted. -/
theorem exists_first_set
    (admitted : Admitted key) :
    ∃ after,
      cacheSet (createCache zeroBlocks 0 none) key (bytesAt []) 1 =
        .ok (0, after) := by
  have ok := createCache_ok zeroBlocks_disjoint 0 none
  refine exists_set_of_new (by decide)
    (ok.limits.setRefusal_eq_none admitted (by decide)
      (by decide :
        bytesFrom (bytesAt []) 0 (1 : UInt32).toNat =
          (CString.ofText "").bytes ++ [0]))

/-- A slot in blocks aligned to 16 bytes does not start with a zero byte. -/
theorem address_mod_ne_zero
    {man : Manager}
    {grants : List Grant}
    {grant : Grant}
    (granted : man.Granted grants)
    (member : grant ∈ grants)
    (blocks : man.blocks = zeroBlocks) :
    grant.address % 256 ≠ 0 := by
  obtain ⟨number, item, occupied, address⟩ := granted.held member
  obtain ⟨factor, isMultiple⟩ :=
    (granted.wellFormed.isClass occupied.hasClass).dvd
  rw [address, slotAddress, blocks, isMultiple, Nat.mul_assoc]
  unfold zeroBlocks Slab.zeros
  dsimp only
  omega

/-- In a new cache a key of 32 bytes is not found again. -/
theorem not_foundAgain_of_32
    (fills : key.length = 32)
    (returned :
      cacheSet (createCache zeroBlocks 0 none) key (bytesAt []) 1 =
        .ok (0, after)) :
    ¬ FoundAgain after key (bytesAt []) 1 := by
  rintro ⟨⟨address, final, got, -⟩, -, -, -⟩
  have ok := createCache_ok zeroBlocks_disjoint 0 none
  obtain ⟨spaced, slabClass, slot, slabManager, copies, -, rfl⟩ :=
    exists_afterStore returned
  obtain ⟨rfl, spacedOk, blocks, admitted, missing⟩ := copies.pending ok
  have lost :
      (newMeta spaced key (1 : UInt32).toNat (classOf (1 : UInt32).toNat)
        slot).storedKey ≠ key :=
    storedKey_ne_of_eq fills newMeta_key
      (address_mod_ne_zero spacedOk.granted List.mem_cons_self blocks)
  have notFound :
      getMeta
          (afterStore spaced key (1 : UInt32).toNat
            (classOf (1 : UInt32).toNat) slot slabManager)
          key = none := by
    rw [getMeta_afterStore spacedOk.table admitted missing slabManager
      admitted, if_neg lost, missing]
    rfl
  rw [cacheGet_of_none notFound] at got
  cases got

/--
A key that `cache_set` admits is found again, in every cache reached with
values of up to 2^20 bytes, exactly when it is at most 31 bytes long.
-/
theorem key_found_again_iff
    (key : CString)
    (admitted : key.length ≤ 32) :
    (∀ {blocks : Nat → Slab} {maxmem : UInt64} {hasher : Option HashFunc}
      {history : List Event} {cache after : Cache}
      {val : Nat → UInt8} {valSize : UInt32},
      DisjointBlocks blocks →
      Run Cache.Step (createCache blocks maxmem hasher) history cache →
      (∀ event ∈ history, event.Bounded) →
      IsString val valSize →
      valSize.toNat ≤ 2 ^ 20 →
      cacheSet cache key val valSize = .ok (0, after) →
      FoundAgain after key val valSize) ↔
      key.length ≤ 31 := by
  constructor
  · intro foundAgain
    by_contra tooLong
    have fills : key.length = 32 := by
      omega
    obtain ⟨after, returned⟩ := exists_first_set admitted
    exact not_foundAgain_of_32 fills returned
      (foundAgain zeroBlocks_disjoint .nil (by simp)
        ⟨CString.ofText "", by decide⟩ (by decide) returned)
  · intro fits blocks maxmem hasher history cache after val valSize
      disjoint run bounded isString small returned
    obtain ⟨ok, -⟩ := cacheOk_of_run disjoint run bounded
    exact foundAgain_of_short ok fits isString small returned

/-- A key of 31 bytes in a new cache. -/
theorem key_found_again_of_31 :
    ∃ after : Cache,
      cacheSet (createCache zeroBlocks 0 none)
          (CString.ofText "0123456789012345678901234567890")
          (bytesAt []) 1 = .ok (0, after) ∧
        FoundAgain after
          (CString.ofText "0123456789012345678901234567890")
          (bytesAt []) 1 := by
  obtain ⟨after, returned⟩ :=
    exists_first_set
      (by decide :
        (CString.ofText "0123456789012345678901234567890").length ≤ 32)
  exact ⟨after, returned,
    (key_found_again_iff _ (by decide)).mpr (by decide)
      zeroBlocks_disjoint .nil (by simp) ⟨CString.ofText "", by decide⟩
      (by decide) returned⟩

/--
A key of 32 bytes that is set with code 0 and then neither got nor deleted, and
of which a second set leaves two metas.
-/
theorem key_of_32_lost :
    ∃ after again : Cache,
      cacheSet (createCache zeroBlocks 0 none)
          (CString.ofText "01234567890123456789012345678901")
          (bytesAt []) 1 = .ok (0, after) ∧
        (CString.ofText "01234567890123456789012345678901").length = 32 ∧
        cacheGet after
            (CString.ofText "01234567890123456789012345678901") =
          .ok ({ address := none, size := 0 }, after) ∧
        cacheDelete after
            (CString.ofText "01234567890123456789012345678901") =
          .ok (255, after) ∧
        cacheSet after
            (CString.ofText "01234567890123456789012345678901")
            (bytesAt []) 1 = .ok (0, again) ∧
        again.metas.length = 2 ∧
        ¬ FoundAgain after
          (CString.ofText "01234567890123456789012345678901")
          (bytesAt []) 1 := by
  obtain ⟨⟨code, after⟩, returned, seen⟩ :=
    exists_of_returnsSuch (by
      decide +kernel :
      returnsSuch
        (cacheSet (createCache zeroBlocks 0 none)
          (CString.ofText "01234567890123456789012345678901")
          (bytesAt []) 1)
        (fun first =>
          first.1 == 0 &&
            (getMeta first.2
              (CString.ofText
                "01234567890123456789012345678901")).isNone &&
            returnsSuch
              (cacheSet first.2
                (CString.ofText "01234567890123456789012345678901")
                (bytesAt []) 1)
              (fun second =>
                second.1 == 0 && second.2.metas.length == 2)) = true)
  simp only [Bool.and_eq_true, beq_iff_eq, Option.isNone_iff_eq_none]
    at seen
  obtain ⟨⟨rfl, notFound⟩, second⟩ := seen
  obtain ⟨⟨code, again⟩, setAgain, seen⟩ := exists_of_returnsSuch second
  simp only [Bool.and_eq_true, beq_iff_eq] at seen
  obtain ⟨rfl, two⟩ := seen
  exact ⟨after, again, returned, by decide,
    cacheGet_of_none notFound, cacheDelete_of_none notFound, setAgain,
    two, not_foundAgain_of_32 (by decide) returned⟩

end Key

end CacheBench
