import CacheBench.CacheEviction
import CacheBench.CacheSpace

namespace CacheBench

open Manager Execution

/-!
# What the cache's functions do

The stages of `cache_set` put together on states that satisfy `CacheOk`, and
the invariant carried through every call.  A set is described by the states it
goes through: the old value cleared away, space found or made, and the new
value filed.
-/

/-! ## Clearing the old value -/

/-- The state after `cache_set` deleted the old value of the key. -/
inductive Cleared (cache : Cache) (key : CString) : Cache → Prop where
  | absent
      (missing : getMeta cache key = none) :
      Cleared cache key cache
  | deleted
      {item : Meta}
      {slabManager : Manager}
      (found : getMeta cache key = some item)
      (freed : Freed cache item slabManager) :
      Cleared cache key (afterDelete cache key slabManager)

section Clear

variable {cache cleared : Cache} {key : CString}

theorem CacheOk.deleteOld
    (ok : CacheOk [] cache)
    (key : CString) :
    ∃ cleared,
      deleteOld cache key = .ok cleared ∧ CacheOk [] cleared ∧
        Cleared cache key cleared := by
  cases search : getMeta cache key with
  | none =>
      exact ⟨cache, by simp [CacheBench.deleteOld, search], ok,
        .absent search⟩
  | some item =>
      obtain ⟨slabManager, deletion, clearedOk, freed⟩ :=
        ok.cacheDelete search
      refine ⟨_, ?_, clearedOk, .deleted search freed⟩
      simp [CacheBench.deleteOld, search, deletion, bind, Except.bind]

/-- The contents lose the key and nothing else. -/
theorem Cleared.contents
    (ok : CacheOk [] cache)
    (clearing : Cleared cache key cleared)
    {query : CString}
    (admitted : Admitted query) :
    cleared.contents query =
      if query = key then none else cache.contents query := by
  cases clearing with
  | absent missing =>
      by_cases same : query = key
      · rw [if_pos same, Cache.contents, same, missing]
        rfl
      · rw [if_neg same]
  | deleted found freed =>
      exact contents_afterDelete ok found freed admitted

/-- The key is out of the table. -/
theorem Cleared.missing
    (ok : CacheOk [] cache)
    (clearing : Cleared cache key cleared)
    (admitted : Admitted key) :
    getMeta cleared key = none := by
  cases clearing with
  | absent missing =>
      exact missing
  | deleted found freed =>
      rw [getMeta_afterDelete ok.table found _ admitted, if_pos rfl]

end Clear

/-! ## Making space -/

/-- How `cache_set` came by its slot: directly, or after an eviction. -/
inductive Spaced (cache : Cache) (slabClass : Nat) :
    Option Nat → Cache → Prop where
  | direct
      {address : Nat}
      {after : Cache}
      (found : Searched cache slabClass (some address) after) :
      Spaced cache slabClass (some address) after
  | kept
      {result : Option Nat}
      {searched after : Cache}
      (full : Searched cache slabClass none searched)
      (noVictim : findVictim searched slabClass = none)
      (again : Searched searched slabClass result after) :
      Spaced cache slabClass result after
  | lost
      {result : Option Nat}
      {searched after : Cache}
      {victim : Meta}
      (full : Searched cache slabClass none searched)
      (chosen : findVictim searched slabClass = some victim)
      (notFound : getMeta searched victim.storedKey = none)
      (again : Searched searched slabClass result after) :
      Spaced cache slabClass result after
  | evicted
      {result : Option Nat}
      {searched after : Cache}
      {victim item : Meta}
      {slabManager : Manager}
      (full : Searched cache slabClass none searched)
      (chosen : findVictim searched slabClass = some victim)
      (found : getMeta searched victim.storedKey = some item)
      (freed : Freed searched item slabManager)
      (trimmedOk :
        CacheOk [] (afterDelete searched victim.storedKey slabManager))
      (again :
        Searched (afterDelete searched victim.storedKey slabManager)
          slabClass result after) :
      Spaced cache slabClass result after

section Space

variable {cache after : Cache} {slabClass : Nat} {result : Option Nat}

theorem CacheOk.makeSpace
    (ok : CacheOk [] cache)
    (isClass : IsClass slabClass) :
    ∃ result after,
      makeSpace cache slabClass = .ok (result, after) ∧
        CacheOk (result.map (Grant.mk · slabClass)).toList after ∧
        Spaced cache slabClass result after := by
  obtain ⟨first, searched, search, found⟩ := ok.freeSpace isClass
  cases first with
  | some address =>
      exact ⟨some address, searched,
        by simp [CacheBench.makeSpace, search, bind, Except.bind],
        found.ok, .direct found⟩
  | none =>
      have searchedOk : CacheOk [] searched := found.ok
      cases choice : findVictim searched slabClass with
      | none =>
          obtain ⟨result, after, second, again⟩ :=
            searchedOk.freeSpace isClass
          exact ⟨result, after,
            by simp [CacheBench.makeSpace, search, bind, Except.bind,
              cacheEvict, choice, second],
            again.ok, .kept found choice again⟩
      | some victim =>
          cases lookup : getMeta searched victim.storedKey with
          | none =>
              obtain ⟨result, after, second, again⟩ :=
                searchedOk.freeSpace isClass
              exact ⟨result, after,
                by simp [CacheBench.makeSpace, search, bind, Except.bind,
                  cacheEvict, choice, cacheDelete_of_none lookup, second],
                again.ok, .lost found choice lookup again⟩
          | some item =>
              obtain ⟨slabManager, deletion, trimmedOk, freed⟩ :=
                searchedOk.cacheDelete lookup
              obtain ⟨result, after, second, again⟩ :=
                trimmedOk.freeSpace isClass
              exact ⟨result, after,
                by simp [CacheBench.makeSpace, search, bind, Except.bind,
                  cacheEvict, choice, deletion, second],
                again.ok, .evicted found choice lookup freed trimmedOk again⟩

/-- A class that is not exhausted yields a slot at once. -/
theorem Spaced.of_not_exhausted
    (spaced : Spaced cache slabClass result after)
    (notExhausted : ¬ cache.slabManager.Exhausted slabClass) :
    ∃ address, result = some address := by
  have notFull {searched : Cache}
      (full : Searched cache slabClass none searched) : False :=
    notExhausted (full.none_iff.mp rfl).1
  cases spaced with
  | direct found => exact ⟨_, rfl⟩
  | kept full noVictim again => exact (notFull full).elim
  | lost full chosen notFound again => exact (notFull full).elim
  | evicted full chosen found freed trimmedOk again =>
      exact (notFull full).elim

/-- Looking for space keeps the contents. -/
theorem Searched.contents
    (ok : CacheOk [] cache)
    (searched : Searched cache slabClass result after)
    (query : CString) :
    after.contents query = cache.contents query := by
  have lookup :
      getMeta after query = (getMeta cache query).map id := by
    rw [searched.same.getMeta, Option.map_id]
    rfl
  exact contents_eq ok searched.bytes (fun _ => rfl) (fun _ => rfl) lookup

/--
Making space keeps the contents, or drops the value of one key, which is of the
class space was made for.
-/
theorem Spaced.contents
    (ok : CacheOk [] cache)
    (spaced : Spaced cache slabClass result after) :
    (∀ query, Admitted query →
      after.contents query = cache.contents query) ∨
      ∃ victim,
        Admitted victim.storedKey ∧
          getMeta cache victim.storedKey = some victim ∧
          victim.slabClass = slabClass ∧
          ∀ query, Admitted query →
            after.contents query =
              if query = victim.storedKey then
                none
              else
                cache.contents query := by
  cases spaced with
  | direct found =>
      exact Or.inl fun query _ => found.contents ok query
  | kept full noVictim again =>
      exact Or.inl fun query _ =>
        (again.contents full.ok query).trans (full.contents ok query)
  | lost full chosen notFound again =>
      exact Or.inl fun query _ =>
        (again.contents full.ok query).trans (full.contents ok query)
  | @evicted _ searched _ victim item slabManager full chosen found freed
      trimmedOk again =>
      have searchedOk : CacheOk [] searched := full.ok
      have trimmed :
          ∀ query, Admitted query →
            after.contents query =
              if query = victim.storedKey then
                none
              else
                cache.contents query := by
        intro query admitted
        rw [again.contents trimmedOk query,
          contents_afterDelete searchedOk found freed admitted,
          full.contents ok query]
      by_cases admitted : Admitted victim.storedKey
      · obtain ⟨member, sameClass, -, -⟩ := findVictim_sound chosen
        have isVictim :
            getMeta searched victim.storedKey = some victim :=
          (searchedOk.table.getMeta_eq_some_iff admitted).mpr
            ⟨member, rfl⟩
        rw [full.same.getMeta] at isVictim
        exact Or.inr ⟨victim, admitted, isVictim, sameClass, trimmed⟩
      · refine Or.inl fun query queryAdmitted => ?_
        rw [trimmed query queryAdmitted, if_neg]
        rintro rfl
        exact admitted queryAdmitted

end Space

/-! ## Filing the new value -/

/-- What copying a value into its slot does to the slabs. -/
structure Filed
    (cache : Cache)
    (val : Nat → UInt8)
    (valSize address : Nat)
    (slabManager : Manager) : Prop where
  status : SameStatus cache.slabManager slabManager
  bytes :
    SameBytes cache.slabManager slabManager
      (cache.metas.map Meta.grant)
  stored :
    bytesFrom slabManager.byteAt address valSize =
      bytesFrom val 0 valSize

section Store

variable {cache : Cache} {key : CString} {valSize address : Nat}

/-- Storing into a pending slot succeeds and keeps the invariant. -/
theorem CacheOk.storeValue
    (ok : CacheOk [⟨address, classOf valSize⟩] cache)
    (admitted : Admitted key)
    (missing : getMeta cache key = none)
    (bounded : valSize ≤ memorySize)
    (val : Nat → UInt8) :
    ∃ slabManager,
      cache.slabManager.memcpy address val valSize = .ok slabManager ∧
        storeValue cache key val valSize (classOf valSize) address =
          .ok (afterStore cache key valSize (classOf valSize) address
            slabManager) ∧
        CacheOk []
          (afterStore cache key valSize (classOf valSize) address
            slabManager) ∧
        Filed cache val valSize address slabManager := by
  obtain ⟨slabManager, copied, status, granted, bytes, stored⟩ :=
    ok.granted.memcpy (le_classOf bounded) val
  refine ⟨slabManager, copied, ?_,
    ⟨ok.table.afterStore admitted missing slabManager, ?_, ?_, ?_, ?_⟩,
    ⟨status, bytes, stored⟩⟩
  · rw [storeValue_eq, copied]
    rfl
  · have perm :
        (CacheBench.afterStore cache key valSize (classOf valSize) address
          slabManager).metas.Perm
          (newMeta cache key valSize (classOf valSize) address ::
            cache.metas.map tick) :=
      afterStore_metas ok.table slabManager
    have grants := perm.map Meta.grant
    rw [List.map_cons, List.map_map] at grants
    have ticked : Meta.grant ∘ tick = Meta.grant := by
      funext item
      exact tick_grant item
    rw [ticked] at grants
    exact granted.perm grants.symm
  · intro item member
    rcases mem_afterStore ok.table member with
        rfl | ⟨before, beforeMember, rfl⟩
    · rfl
    · simpa using ok.selected before beforeMember
  · intro item member
    rcases mem_afterStore ok.table member with
        rfl | ⟨before, beforeMember, rfl⟩
    · exact le_classOf bounded
    · simpa using ok.fits before beforeMember
  · have limits := ok.limits
    exact ⟨limits.slab_le_maxmem, limits.maxmem_le,
      (congrArg UInt32.toNat status.numSlabs).trans
        (limits.numSlabs.trans status.length.symm),
      limits.size_eq.trans (by
        rw [← status.length]
        rfl),
      limits.size_le⟩

/-- The contents after a value was filed. -/
theorem contents_afterStore
    {pending : List Grant}
    (ok : CacheOk pending cache)
    (admitted : Admitted key)
    (missing : getMeta cache key = none)
    {val : Nat → UInt8}
    {slabClass : Nat}
    {slabManager : Manager}
    (filed : Filed cache val valSize address slabManager)
    {query : CString}
    (queryAdmitted : Admitted query) :
    (afterStore cache key valSize slabClass address
        slabManager).contents query =
      if (newMeta cache key valSize slabClass address).storedKey =
          query then
        some (bytesFrom val 0 valSize)
      else
        cache.contents query := by
  have lookup :
      getMeta
          (afterStore cache key valSize slabClass address slabManager)
          query =
        if (newMeta cache key valSize slabClass address).storedKey =
            query then
          some (newMeta cache key valSize slabClass address)
        else
          (getMeta cache query).map tick :=
    getMeta_afterStore ok.table admitted missing slabManager queryAdmitted
  by_cases own :
      (newMeta cache key valSize slabClass address).storedKey = query
  · rw [if_pos own] at lookup ⊢
    rw [Cache.contents, lookup, ← filed.stored]
    rfl
  · rw [if_neg own] at lookup ⊢
    exact contents_eq ok filed.bytes tick_address tick_size lookup

end Store

/-! ## The whole set -/

/-- The three ways a set goes. -/
inductive SetResult
    (cache : Cache)
    (key : CString)
    (val : Nat → UInt8)
    (valSize : UInt32) :
    UInt8 → Cache → Prop where
  | refused
      {code : UInt8}
      (refusal : setRefusal cache key val valSize = some code) :
      SetResult cache key val valSize code cache
  | full
      {cleared after : Cache}
      (accepted : setRefusal cache key val valSize = none)
      (clearing : Cleared cache key cleared)
      (clearedOk : CacheOk [] cleared)
      (spacing : Spaced cleared (classOf valSize.toNat) none after) :
      SetResult cache key val valSize 4 after
  | stored
      {cleared spaced : Cache}
      {address : Nat}
      {slabManager : Manager}
      (accepted : setRefusal cache key val valSize = none)
      (clearing : Cleared cache key cleared)
      (clearedOk : CacheOk [] cleared)
      (spacing :
        Spaced cleared (classOf valSize.toNat) (some address) spaced)
      (spacedOk : CacheOk [⟨address, classOf valSize.toNat⟩] spaced)
      (missing : getMeta spaced key = none)
      (filed : Filed spaced val valSize.toNat address slabManager) :
      SetResult cache key val valSize 0
        (afterStore spaced key valSize.toNat (classOf valSize.toNat)
          address slabManager)

section Set

variable {cache : Cache} {key : CString}
variable {val : Nat → UInt8} {valSize : UInt32}

/-- A terminated value of up to 2^20 bytes passes the checks of `cache_set`. -/
theorem Limits.setRefusal_of_terminated
    (limits : Limits cache)
    (admitted : Admitted key)
    (bounded : valSize.toNat ≤ 2 ^ 20)
    (terminated : val (valSize - 1).toNat = 0) :
    setRefusal cache key val valSize = none := by
  have keyFits : ¬ 32 < key.length := Nat.not_lt_of_le admitted
  have inSlab : ¬ getSlabSize < valSize.toNat := by
    have : 2 ^ 20 ≤ getSlabSize := by
      decide
    omega
  have inCache : ¬ valSize.toUInt64 > cache.maxmem := by
    rw [gt_iff_lt, UInt64.lt_iff_toNat_lt, UInt32.toNat_toUInt64]
    have := limits.slab_le_maxmem
    omega
  rw [setRefusal, refusalWithin, if_neg keyFits, if_neg inSlab, if_neg inCache,
    if_neg (by simpa using terminated)]

/-- So does a string with its terminator. -/
theorem Limits.setRefusal_eq_none
    (limits : Limits cache)
    (admitted : Admitted key)
    (bounded : valSize.toNat ≤ 2 ^ 20)
    {string : CString}
    (isString : bytesFrom val 0 valSize.toNat = string.bytes ++ [0]) :
    setRefusal cache key val valSize = none := by
  have length : valSize.toNat = string.length + 1 := by
    have lengths := congrArg List.length isString
    simpa [CString.length] using lengths
  have lastByte : val (valSize - 1).toNat = 0 := by
    have one_le : 1 ≤ valSize := by
      rw [UInt32.le_iff_toNat_le]
      simp only [UInt32.reduceToNat]
      omega
    have last := congrArg (·[string.length]?) isString
    rw [UInt32.toNat_sub_of_le _ _ one_le]
    simpa [bytesFrom, length, CString.length] using last
  exact limits.setRefusal_of_terminated admitted bounded lastByte

/-- A set that is not refused gets as far as having looked for space. -/
theorem CacheOk.cacheSet_space
    (ok : CacheOk [] cache)
    (accepted : setRefusal cache key val valSize = none) :
    ∃ cleared result spaced,
      Cleared cache key cleared ∧ CacheOk [] cleared ∧
        Spaced cleared (classOf valSize.toNat) result spaced ∧
        CacheOk
          (result.map (Grant.mk · (classOf valSize.toNat))).toList
          spaced ∧
        getMeta spaced key = none ∧
        cacheSet cache key val valSize =
          (match result with
          | none => .ok (4, spaced)
          | some address =>
              CacheBench.storeValue spaced key val valSize.toNat
                  (classOf valSize.toNat) address >>=
                fun after => .ok (0, after)) := by
  have admitted := admitted_of_setRefusal accepted
  obtain ⟨cleared, deletion, clearedOk, clearing⟩ := ok.deleteOld key
  obtain ⟨result, spaced, space, spacedOk, spacing⟩ :=
    clearedOk.makeSpace (isClass_classOf valSize.toNat)
  obtain ⟨-, missing⟩ :=
    makeSpace_moves clearedOk.table admitted space
      (clearing.missing ok admitted)
  refine ⟨cleared, result, spaced, clearing, clearedOk, spacing, spacedOk,
    missing, ?_⟩
  have selects :=
    clearedOk.granted.wellFormed.getSlabClass_eq valSize.toNat
  cases result <;>
    simp [CacheBench.cacheSet, accepted, deletion, bind, Except.bind,
      selects, space]

/-- What a set that returned has done, if it stored at most 2^20 bytes. -/
theorem CacheOk.setResult
    {code : UInt8}
    {after : Cache}
    (ok : CacheOk [] cache)
    (returned : CacheBench.cacheSet cache key val valSize = .ok (code, after))
    (bounded : code = 0 → valSize.toNat ≤ memorySize) :
    CacheOk [] after ∧ SetResult cache key val valSize code after := by
  cases refusal : setRefusal cache key val valSize with
  | some refused =>
      rw [CacheBench.cacheSet, refusal] at returned
      cases returned
      exact ⟨ok, .refused refusal⟩
  | none =>
      obtain ⟨cleared, result, spaced, clearing, clearedOk, spacing,
          spacedOk, missing, expected⟩ := ok.cacheSet_space refusal
      rw [expected] at returned
      cases result with
      | none =>
          cases returned
          exact ⟨spacedOk, .full refusal clearing clearedOk spacing⟩
      | some address =>
          -- Only here is the value copied, and then the code is 0.
          obtain ⟨stored, storing, rest⟩ := bind_eq_ok.mp returned
          cases rest
          obtain ⟨slabManager, -, expectedStore, storedOk, filed⟩ :=
            CacheOk.storeValue spacedOk (admitted_of_setRefusal refusal)
              missing (bounded rfl) val
          rw [storing] at expectedStore
          cases expectedStore
          exact ⟨storedOk,
            .stored refusal clearing clearedOk spacing spacedOk missing
              filed⟩

/-- A set of a value of up to 2^20 bytes returns and keeps the invariant. -/
theorem CacheOk.cacheSet
    (ok : CacheOk [] cache)
    (key : CString)
    (val : Nat → UInt8)
    (bounded : valSize.toNat ≤ memorySize) :
    ∃ code after,
      cacheSet cache key val valSize = .ok (code, after) ∧
        CacheOk [] after ∧
        SetResult cache key val valSize code after := by
  obtain ⟨code, after, returned⟩ :
      ∃ code after,
        CacheBench.cacheSet cache key val valSize = .ok (code, after) := by
    cases refusal : setRefusal cache key val valSize with
    | some code =>
        exact ⟨code, cache, by simp [CacheBench.cacheSet, refusal]⟩
    | none =>
        obtain ⟨cleared, result, spaced, -, -, -, spacedOk, missing,
          returned⟩ := ok.cacheSet_space refusal
        cases result with
        | none =>
            exact ⟨4, spaced, returned⟩
        | some address =>
            obtain ⟨slabManager, -, storing, -, -⟩ :=
              CacheOk.storeValue spacedOk (admitted_of_setRefusal refusal)
                missing bounded val
            simp only [storing, bind, Except.bind] at returned
            exact ⟨0, _, returned⟩
  exact ⟨code, after, returned, ok.setResult returned fun _ => bounded⟩

end Set

/-! ## The blocks of `malloc` -/

theorem Cleared.blocks
    {cache cleared : Cache}
    {key : CString}
    (clearing : Cleared cache key cleared) :
    cleared.slabManager.blocks = cache.slabManager.blocks := by
  cases clearing with
  | absent missing => rfl
  | deleted found freed => exact freed.store.blocks

theorem Spaced.blocks
    {cache after : Cache}
    {slabClass : Nat}
    {result : Option Nat}
    (spaced : Spaced cache slabClass result after) :
    after.slabManager.blocks = cache.slabManager.blocks := by
  cases spaced with
  | direct found => exact found.blocks
  | kept full noVictim again => exact again.blocks.trans full.blocks
  | lost full chosen notFound again => exact again.blocks.trans full.blocks
  | evicted full chosen found freed trimmedOk again =>
      exact again.blocks.trans (freed.store.blocks.trans full.blocks)

theorem SetResult.blocks
    {cache after : Cache}
    {key : CString}
    {val : Nat → UInt8}
    {valSize : UInt32}
    {code : UInt8}
    (result : SetResult cache key val valSize code after) :
    after.slabManager.blocks = cache.slabManager.blocks := by
  cases result with
  | refused refusal => rfl
  | full accepted clearing clearedOk spacing =>
      exact spacing.blocks.trans clearing.blocks
  | stored accepted clearing clearedOk spacing spacedOk missing filed =>
      exact filed.status.blocks.trans
        (spacing.blocks.trans clearing.blocks)

/-! ## Getting -/

section Get

variable {cache : Cache} {key : CString} {item : Meta}

/-- A hit changes no grant and no byte. -/
theorem CacheOk.afterGet
    (ok : CacheOk [] cache)
    (found : getMeta cache key = some item) :
    CacheOk [] (afterGet cache key) := by
  obtain ⟨rest, oldPerm, newPerm⟩ := afterGet_metas ok.table found
  have grants :
      (cache.metas.map Meta.grant).Perm
        ((CacheBench.afterGet cache key).metas.map Meta.grant) :=
    (oldPerm.map Meta.grant).trans (newPerm.map Meta.grant).symm
  have itemMember := (getMeta_sound found).1
  have limits := ok.limits
  refine ⟨ok.table.afterGet found, ok.granted.perm grants, ?_, ?_,
    ⟨limits.slab_le_maxmem, limits.maxmem_le, limits.numSlabs,
      limits.size_eq, limits.size_le⟩⟩
  · intro other member
    rcases mem_afterGet ok.table found member with rfl | isOld
    · exact ok.selected item itemMember
    · exact ok.selected other isOld
  · intro other member
    rcases mem_afterGet ok.table found member with rfl | isOld
    · exact ok.fits item itemMember
    · exact ok.fits other isOld

/-- A get leaves every value readable as it was. -/
theorem contents_afterGet
    (ok : CacheOk [] cache)
    (found : getMeta cache key = some item)
    {query : CString}
    (admitted : Admitted query) :
    (afterGet cache key).contents query = cache.contents query := by
  rw [Cache.contents, Cache.contents,
    getMeta_afterGet ok.table found admitted]
  by_cases same : query = key
  · rw [if_pos same, same, found]
    rfl
  · rw [if_neg same]
    rfl

/-- The length of the string found in the slot of a value. -/
theorem CacheOk.strlen_eq_iff
    (ok : CacheOk [] cache)
    (member : item ∈ cache.metas)
    {length : Nat}
    (inside : length < item.size) :
    cache.slabManager.strlen item.address = .ok length ↔
      (∀ position < length,
        cache.slabManager.byteAt (item.address + position) ≠ 0) ∧
        cache.slabManager.byteAt (item.address + length) = 0 := by
  obtain ⟨number, slot, occupied, address⟩ :=
    ok.granted.held (List.mem_map_of_mem member)
  have address :
      item.address =
        cache.slabManager.slotAddress number item.slabClass slot :=
    address
  rw [address]
  exact strlen_spec ok.granted.wellFormed occupied.hasClass
    occupied.inCapacity (Nat.lt_of_lt_of_le inside (ok.fits item member))

/-- A hit on a string value passes the assertion of `cache_get`. -/
theorem CacheOk.cacheGet
    (ok : CacheOk [] cache)
    (found : getMeta cache key = some item)
    {string : CString}
    (isString : cache.valueOf item = string.bytes ++ [0]) :
    cacheGet cache key =
      .ok ({ address := some item.address, size := item.size },
        CacheBench.afterGet cache key) := by
  have member := (getMeta_sound found).1
  have size : item.size = string.length + 1 := by
    have lengths := congrArg List.length isString
    simpa [Cache.valueOf, CString.length] using lengths
  have byte (position : Nat) (inside : position < item.size) :
      (cache.slabManager.byteAt (item.address + position)) =
        (string.bytes ++ [0])[position]?.getD 0 := by
    rw [← isString, Cache.valueOf, bytesFrom]
    simp [inside]
  have length :
      cache.slabManager.strlen item.address = .ok string.length := by
    refine (ok.strlen_eq_iff member (by omega)).mpr ⟨?_, ?_⟩
    · intro position inside
      rw [byte position (by omega), List.getElem?_append_left inside,
        List.getElem?_eq_getElem inside]
      intro isNul
      apply string.noNul
      rw [← isNul]
      exact List.getElem_mem inside
    · rw [byte string.length (by omega)]
      simp [CString.length]
  simp only [CacheBench.cacheGet, found, length, bind, Except.bind, size]
  rfl

end Get

/-! ## Runs -/

/-- A new cache has nothing granted and respects the limit. -/
theorem createCache_ok
    {blocks : Nat → Slab}
    (disjoint : DisjointBlocks blocks)
    (maxmem : UInt64)
    (hasher : Option HashFunc) :
    CacheOk [] (createCache blocks maxmem hasher) := by
  have noMetas := createCache_metas blocks maxmem hasher
  refine ⟨createCache_tableOk blocks maxmem hasher, ?_, ?_, ?_, ?_⟩
  · rw [noMetas]
    refine ⟨⟨rfl, disjoint, ?_, ?_⟩, ?_, by simp, ?_⟩
    · intro number slab present
      simp [createCache, initializeManager] at present
    · intro number slab present
      simp [createCache, initializeManager] at present
    · intro grant member
      simp at member
    · intro number slabClass item occupied
      have hasClass := occupied.hasClass
      simp [createCache, initializeManager, classAt] at hasClass
  · simp [noMetas]
  · simp [noMetas]
  · have slabSize : (UInt64.ofNat getSlabSize).toNat = getSlabSize := by
      decide
    have limits :
        getSlabSize ≤
            (createCache blocks maxmem hasher).maxmem.toNat ∧
          (createCache blocks maxmem hasher).maxmem.toNat ≤ 2 ^ 32 := by
      simp only [createCache]
      by_cases small : maxmem < UInt64.ofNat getSlabSize
      · simp only [if_pos small]
        decide
      · simp only [if_neg small]
        have notSmall : getSlabSize ≤ maxmem.toNat := by
          rw [UInt64.not_lt, UInt64.le_iff_toNat_le, slabSize] at small
          exact small
        by_cases large : maxmem > UInt64.ofNat (2 ^ 32)
        · simp only [if_pos large]
          decide
        · simp only [if_neg large]
          refine ⟨notSmall, ?_⟩
          rw [gt_iff_lt, UInt64.not_lt, UInt64.le_iff_toNat_le] at large
          exact large
    refine ⟨limits.1, limits.2, rfl, ?_, Nat.zero_le _⟩
    simp [createCache, initializeManager]

/-- A call whose value, if it has one, is at most 2^20 bytes. -/
def Call.Bounded : Call → Prop
  | .set _ _ valSize => valSize.toNat ≤ memorySize
  | .get _ => True
  | .delete _ => True

instance : DecidablePred Call.Bounded
  | .set _ _ valSize =>
      inferInstanceAs (Decidable (valSize.toNat ≤ memorySize))
  | .get _ => isTrue trivial
  | .delete _ => isTrue trivial

/--
The value that was stored, if one was, is at most 2^20 bytes.  A set that fails
copies nothing, whatever its size.
-/
def Event.Bounded : Event → Prop
  | .set _ _ valSize code => code = 0 → valSize.toNat ≤ memorySize
  | .get _ _ _ => True
  | .delete _ _ => True

instance : DecidablePred Event.Bounded
  | .set _ _ valSize code =>
      inferInstanceAs (Decidable (code = 0 → valSize.toNat ≤ memorySize))
  | .get _ _ _ => isTrue trivial
  | .delete _ _ => isTrue trivial

theorem Event.bounded_of_call
    {event : Event}
    (bounded : event.call.Bounded) :
    event.Bounded := by
  cases event with
  | set key val valSize code => exact fun _ => bounded
  | get key value size => exact trivial
  | delete key code => exact trivial

/-- Where all calls have bounded values, so have the events. -/
theorem bounded_of_calls
    {history : List Event}
    {calls : List Call}
    (sameCalls : history.map Event.call = calls)
    (bounded : ∀ call ∈ calls, call.Bounded) :
    ∀ event ∈ history, event.Bounded := by
  intro event member
  exact Event.bounded_of_call
    (forall_call Call.Bounded sameCalls bounded event member)

/-- Every call that stores no longer value keeps the invariant and the blocks. -/
theorem CacheOk.step
    {cache after : Cache}
    {event : Event}
    (ok : CacheOk [] cache)
    (bounded : event.Bounded)
    (step : cache.Step event after) :
    CacheOk [] after ∧
      after.slabManager.blocks = cache.slabManager.blocks := by
  cases event with
  | set key val valSize code =>
      obtain ⟨⟨result, next⟩, returned, rest⟩ := bind_eq_ok.mp step
      cases rest
      obtain ⟨afterOk, setResult⟩ := ok.setResult returned bounded
      exact ⟨afterOk, setResult.blocks⟩
  | get key value size =>
      obtain ⟨⟨found, next⟩, returned, rest⟩ := bind_eq_ok.mp step
      cases rest
      rcases cacheGet_cases returned with
          ⟨-, -, rfl⟩ | ⟨item, present, -, rfl⟩
      · exact ⟨ok, rfl⟩
      · exact ⟨ok.afterGet present, rfl⟩
  | delete key code =>
      obtain ⟨⟨result, next⟩, returned, rest⟩ := bind_eq_ok.mp step
      cases rest
      cases search : getMeta cache key with
      | none =>
          rw [cacheDelete_of_none search] at returned
          cases returned
          exact ⟨ok, rfl⟩
      | some item =>
          obtain ⟨slabManager, deletion, afterOk, freed⟩ :=
            ok.cacheDelete search
          rw [returned] at deletion
          cases deletion
          exact ⟨afterOk, freed.store.blocks⟩

/-- The invariant holds in every run that stores bounded values, of any keys. -/
theorem cacheOk_of_run
    {blocks : Nat → Slab}
    (disjoint : DisjointBlocks blocks)
    {maxmem : UInt64}
    {hasher : Option HashFunc}
    {history : List Event}
    {cache : Cache}
    (run : Run Cache.Step (createCache blocks maxmem hasher) history cache)
    (bounded : ∀ event ∈ history, event.Bounded) :
    CacheOk [] cache ∧ cache.slabManager.blocks = blocks := by
  refine run.invariant
    (fun cache => CacheOk [] cache ∧ cache.slabManager.blocks = blocks)
    ⟨createCache_ok disjoint maxmem hasher, rfl⟩ ?_ bounded
  rintro cache event after ⟨ok, sameBlocks⟩ bounded step
  obtain ⟨afterOk, stepBlocks⟩ := ok.step bounded step
  exact ⟨afterOk, stepBlocks.trans sameBlocks⟩

end CacheBench
